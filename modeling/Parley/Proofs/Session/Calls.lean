import Parley.Proofs.Conversation.Handles
import Parley.Proofs.Session.Course

/-!
# The calls of a session

What is true of the calls in progress whenever a session is between two steps (`Session.Orderly`). A fiber with a job is at work
on the body of the job's handler, in the way of the job's mode; it waits to be looked at or has a turn; and if there is nothing
that it could still wait for, because its token has fired or its body has ended on a worker, it has a turn (`Session.Urgent`).
Each part of a step keeps to this. As in `Session.Follows`, the fiber that has its turn is set aside and put back.
-/

namespace Parley

variable {α : Type}

/-- The body of the handler of a job, on the call of the job. A job without a handler fails. -/
def Registry.bodyOf (handlers : Registry (Handler α)) (j : Job) : Routine α :=
  match handlers.find? j.origin j.name with
  | some h => h.routine j.call
  | none => .done (.error (.failed "no handler"))

/-- A fiber runs a body on a worker: first it waits for one, then it is there, and at the end it is here with what the body has
come to. -/
structure Fiber.Offloads (body : Routine α) (f : Fiber α) : Prop where
  callers : f.callers = []
  leads : body.Leads f.routine
  queued : f.place = .queued → f.routine = body
  here : f.place = .here → ∃ o, f.routine = .done o

/-- A fiber is at work on a job. -/
structure Fiber.Serves (handlers : Registry (Handler α)) (j : Job) (f : Fiber α) : Prop where
  mode : j.mode ≠ .direct
  call : f.call = j.call
  guarded : f.guarded = j.isGuarded
  /-- What a coroutine has on a worker is a handler that it called. -/
  nested : j.mode = .coroutine → f.place ≠ .here → f.callers ≠ []
  threaded : j.mode = .threaded → f.Offloads (handlers.bodyOf j)

namespace Fiber.Serves

variable {handlers : Registry (Handler α)} {j : Job} {f f' : Fiber α}

/-- The token of the call is that of the job. -/
theorem token (h : f.Serves handlers j) : f.call.token = j.token := by rw [h.call, Job.call]

/-- What was given to a fiber does not matter. -/
theorem of_bare (h : f.Serves handlers j) (hb : f'.bare = f.bare) : f'.Serves handlers j := by
  obtain ⟨hm, hc, hg, hn, ht⟩ := h
  simp only [bare, Fiber.mk.injEq] at hb
  obtain ⟨-, hc', hg', hp', hr', hcs', -⟩ := hb
  refine ⟨hm, hc'.trans hc, hg'.trans hg, ?_, fun hj => ?_⟩
  · rwa [hp', hcs']
  · obtain ⟨ho, hl, hq, hh⟩ := ht hj
    constructor
    · exact hcs'.trans ho
    · rwa [hr']
    · rwa [hp', hr']
    · rwa [hp', hr']

/-- A coroutine goes on with its call. -/
theorem continues (h : f.Serves handlers j) (hc : f.Continues f') (hm : j.mode = .coroutine) : f'.Serves handlers j :=
  ⟨h.mode, hc.call.trans h.call, hc.guarded.trans h.guarded, fun hj => hc.nested (h.nested hj), fun hj => by rw [hm] at hj; cases hj⟩

/-- A body goes on on a worker. -/
theorem advances (h : f.Serves handlers j) (ha : f.Advances f') (hp : f.place = .worker) : f'.Serves handlers j := by
  refine ⟨h.mode, ha.call.trans h.call, ha.guarded.trans h.guarded, ?_, fun hj => ?_⟩
  · rw [ha.place, ha.callers]
    exact h.nested
  · obtain ⟨ho, hl, -, -⟩ := h.threaded hj
    refine ⟨ha.callers.trans ho, hl.trans ha.routine, fun hq => ?_, fun hq => ?_⟩
    · rw [ha.place, hp] at hq
      cases hq
    · rw [ha.place, hp] at hq
      cases hq

/-- A body that has ended on a worker comes back with its outcome. -/
theorem back (h : f.Serves handlers j) {o : Outcome} (hr : f.routine = .done o) : Serves handlers j { f with place := .here } :=
  ⟨h.mode, h.call, h.guarded, fun _ hp => absurd rfl hp, fun hj => by
    obtain ⟨ho, hl, -, -⟩ := h.threaded hj
    exact ⟨ho, hl, nofun, fun _ => ⟨o, hr⟩⟩⟩

end Fiber.Serves

namespace Session

/-! ## The turn of a fiber that runs its body on a worker -/

/-- A fiber on a worker waits. -/
theorem drive_worker {f : Fiber α} (hp : f.place = .worker) (s : Session α) (fuel n : Nat) :
    s.drive fuel n f = (s, .waits f) := by
  cases fuel with
  | zero => rfl
  | succ fuel => simp only [drive, node, hp]

/-- Where a body has ended that nobody called, the turn ends with its outcome. -/
theorem drive_done {f : Fiber α} (hp : f.place = .here) {o : Outcome} (hr : f.routine = .done o) (hc : f.callers = [])
    (s : Session α) (fuel n : Nat) : s.drive (fuel + 1) n f = (s, .ends o) := by
  simp only [drive, node, hp, hr, hc]

/-- A fiber that waits for a worker is refused one when its token has fired. -/
theorem drive_refused {s : Session α} {f : Fiber α} (hp : f.place = .queued) (hf : s.isFired f.call.token = true)
    (hc : f.callers = []) (fuel n : Nat) : s.drive (fuel + 1) n f = (s.giveBack f, .ends (.error .cancelled)) := by
  simp only [drive, node, hp, hf, hc, if_true]

/-- A fiber that waits for a worker and was not cancelled gets one, or waits. -/
theorem drive_queued {s : Session α} {f : Fiber α} (hp : f.place = .queued) (hf : s.isFired f.call.token = false)
    (fuel n : Nat) :
    ∃ s' f', s.drive (fuel + 1) n f = (s', .waits f') ∧
      (f' = f ∨ f' = { f with place := .worker, granted := f'.granted }) := by
  simp only [drive, node, hp, hf, Bool.false_eq_true, if_false, seat]
  split
  · exact ⟨_, _, rfl, .inr rfl⟩
  · split
    · exact ⟨_, _, rfl, .inr rfl⟩
    · exact ⟨_, _, rfl, .inl rfl⟩

/-- How the turn of a fiber ends that runs its body on a worker: it waits there or for it, it is refused one because its token has
fired, or its body has ended. -/
theorem drive_offloads {s : Session α} {body : Routine α} {f : Fiber α} (h : f.Offloads body) (n : Nat) :
    (∃ s' f', s.drive turnBound n f = (s', .waits f') ∧ f'.Offloads body ∧ f'.place ≠ .here ∧
      (f'.place = .queued → s.isFired f.call.token = false)) ∨
    (f.place = .queued ∧ s.isFired f.call.token = true ∧
      s.drive turnBound n f = (s.giveBack f, .ends (.error .cancelled))) ∨
    ∃ o, f.place = .here ∧ f.routine = .done o ∧ s.drive turnBound n f = (s, .ends o) := by
  have hb : turnBound = 999998 + 2 := rfl
  cases hp : f.place with
  | worker =>
    refine .inl ⟨s, f, drive_worker hp s turnBound n, h, by simp [hp], fun hq => ?_⟩
    rw [hp] at hq
    cases hq
  | queued =>
    cases hf : s.isFired f.call.token with
    | true => exact .inr (.inl ⟨rfl, rfl, hb ▸ drive_refused hp hf h.callers _ n⟩)
    | false =>
      obtain ⟨s', f', hd, hf'⟩ := drive_queued hp hf (999998 + 1) n
      refine .inl ⟨s', f', hb ▸ hd, ?_, ?_, fun _ => rfl⟩
      · rcases hf' with rfl | hf'
        · exact h
        · rw [hf']
          exact ⟨h.callers, h.leads, nofun, nofun⟩
      · rcases hf' with rfl | hf'
        · simp [hp]
        · rw [hf']
          simp
  | here =>
    obtain ⟨o, hr⟩ := h.here hp
    exact .inr (.inr ⟨o, rfl, hr, hb ▸ drive_done hp hr h.callers s _ n⟩)

/-! ## Who has a turn -/

/-- There is nothing that the fiber of a job could still wait for: the token has fired, and the call is to end, or the body has
ended on a worker. -/
def Urgent (s : Session α) (j : Job) (f : Fiber α) : Prop :=
  s.isFired j.token = true ∧ (j.isGuarded = true ∨ j.mode = .threaded ∧ f.place = .queued) ∨
    j.mode = .threaded ∧ f.place = .here

/-- A fiber that has nothing to wait for can go on. -/
theorem canGoOn_of_urgent {handlers : Registry (Handler α)} {s : Session α} {j : Job} {f : Fiber α}
    (hs : f.Serves handlers j) (hu : s.Urgent j f) : s.canGoOn f = true := by
  have ht := hs.token
  rcases hu with ⟨hf, hg | ⟨-, hp⟩⟩ | ⟨hm, hp⟩
  · simp [canGoOn, hs.guarded, hg, ht, hf]
  · simp [canGoOn, hp, ht, hf]
  · obtain ⟨o, hr⟩ := (hs.threaded hm).here hp
    simp [canGoOn, hp, hr]

/-- Whoever is woken has a turn. -/
theorem mem_ready_foldl_wake {ns : List Nat} {n : Nat} (hn : n ∈ ns) (s : Session α) : .fiber n ∈ (ns.foldl wake s).ready := by
  induction ns generalizing s with
  | nil => cases hn
  | cons m ns ih =>
    rcases List.mem_cons.mp hn with rfl | hn
    · exact (handsOn_onward.foldl onward_wake ns (s.wake n)).ready.subset (mem_ready_enqueue _ _)
    · exact ih hn _

/-- A fiber that waits and can go on has a turn when those that wait are looked at. -/
theorem mem_ready_rouse {s : Session α} {n : Nat} {f : Fiber α} (hn : n ∈ s.parked) (hf : s.fibers.find? n = some f)
    (hc : s.canGoOn f = true) : .fiber n ∈ s.rouse.ready := by
  unfold rouse
  extract_lets able s₁ s₂
  have ha : n ∈ able := List.mem_filter.mpr ⟨hn, by simp [hf, hc]⟩
  have h₁ : .fiber n ∈ s₁.ready := mem_ready_foldl_wake ha s
  have h₂ : .fiber n ∈ s₂.ready := by
    simp only [s₂]
    split
    · exact (onward_enqueue s₁ _).ready.subset h₁
    · exact h₁
  split
  · exact (onward_enqueue s₂ _).ready.subset h₂
  · exact h₂

end Session

/-- Where our side acts without a teardown, the requests being served and their tokens stay. -/
theorem Connection.ActsTo.incoming {c c' : Connection} (h : c.ActsTo c') (ho : c'.outgoing.closed = false) :
    c.outgoing.closed = false ∧ c'.incoming = c.incoming := by
  obtain ⟨ms, hm, hr⟩ := h
  have hr : ((Conversation.mk c []).run ms).connection = c' := congrArg Conversation.connection (hr [])
  rw [← hr] at ho ⊢
  have ht : .teardown ∉ ms := fun ht => by
    rw [Conversation.closed_of_teardown ht] at ho
    cases ho
  refine ⟨?_, ?_⟩
  · cases hc : c.outgoing.closed with
    | false => rfl
    | true =>
      rw [Conversation.closed_run hc ms] at ho
      cases ho
  · have hrun (v : Conversation) : ∀ ms : List Move, (∀ m ∈ ms, m.isOurs = true) →
        (v.run ms).connection.incoming = v.connection.incoming := by
      intro ms hm
      induction ms generalizing v with
      | nil => rfl
      | cons m ms ih =>
        have hs := (Conversation.step_of_isOurs (hm m List.mem_cons_self) v).1.incoming
        exact (ih _ fun m' h => hm m' (List.mem_cons_of_mem _ h)).trans hs
    exact hrun ⟨c, []⟩ ms fun m h => (hm m h).resolve_right fun he => ht (he ▸ h)

namespace Session

variable {s s' : Session α}

/-- A later fiber of a call is the one before it, up to what was given to it. -/
theorem Onward.exists_fiber (h : Onward s s') {n : Nat} {f' : Fiber α} (hf : s'.fibers.find? n = some f') :
    ∃ f, s.fibers.find? n = some f ∧ f.bare = f'.bare :=
  mem_calls_iff.mp (h.calls.mem_iff.mp (mem_calls_iff.mpr ⟨f', hf, rfl⟩))

/-! ## Order -/

/-- Each job is in good hands. -/
structure Manned (s : Session α) : Prop where
  serves : ∀ n f j, s.fibers.find? n = some f → f.job = some j → f.Serves s.handlers j
  placed : ∀ n f j, s.fibers.find? n = some f → f.job = some j → n ∈ s.parked ∨ .fiber n ∈ s.ready
  crew : ∀ n ∈ s.running, n < s.nextFiber ∧ ∀ f, s.fibers.find? n = some f → f.place = .worker

/-- Each job is in good hands, and until the connection is released none waits in vain. -/
structure Orderly (s : Session α) : Prop extends Manned s where
  prompt : s.site.connection.outgoing.closed = false → ∀ n f j, s.fibers.find? n = some f → f.job = some j → s.Urgent j f →
    .fiber n ∈ s.ready

/-- What goes on by itself keeps those who wait in the row. -/
theorem Manned.onward (h : Manned s) (ho : Onward s s') : Manned s' := by
  refine ⟨fun n f' j hf' hj => ?_, fun n f' j hf' hj => ?_, fun n hn => ?_⟩
  · obtain ⟨f, hf, hb⟩ := ho.exists_fiber hf'
    rw [ho.handlers]
    exact (h.serves n f j hf ((Fiber.job_of_bare hb).trans hj)).of_bare hb.symm
  · obtain ⟨f, hf, hb⟩ := ho.exists_fiber hf'
    rcases h.placed n f j hf ((Fiber.job_of_bare hb).trans hj) with hp | hr
    · exact ho.parked n hp
    · exact .inr (ho.ready.subset hr)
  · rw [ho.running] at hn
    rw [ho.nextFiber]
    refine ⟨(h.crew n hn).1, fun f' hf' => ?_⟩
    obtain ⟨f, hf, hb⟩ := ho.exists_fiber hf'
    exact (Fiber.place_of_bare hb).symm.trans ((h.crew n hn).2 f hf)

/-- Until the connection is released, tokens fire for nothing that goes on by itself. -/
theorem Onward.isFired (ho : Onward s s') (hc : s'.site.connection.outgoing.closed = false) (t : Token) :
    s'.isFired t = s.isFired t := by
  rw [Session.isFired, Connection.isFired, (ho.connection.incoming hc).2]
  rfl

/-- A fiber of a job has nothing to wait for when the fiber before it has not. -/
theorem Urgent.of_bare {j : Job} {f f' : Fiber α} (h : s'.Urgent j f') (hi : s'.isFired j.token = s.isFired j.token)
    (hb : f.bare = f'.bare) : s.Urgent j f := by
  have hp : f.place = f'.place := Fiber.place_of_bare hb
  unfold Urgent at h ⊢
  rwa [hi, ← hp] at h

/-- What goes on by itself keeps order. -/
theorem Orderly.onward (h : Orderly s) (ho : Onward s s') : Orderly s' := by
  refine ⟨h.toManned.onward ho, fun hc n f' j hf' hj hu => ?_⟩
  obtain ⟨f, hf, hb⟩ := ho.exists_fiber hf'
  have hu : s.Urgent j f := hu.of_bare (ho.isFired hc _) hb
  exact ho.ready.subset
    (h.prompt (ho.connection.incoming hc).1 n f j hf ((Fiber.job_of_bare hb).trans hj) hu)

/-- When those that wait are looked at there is order. -/
theorem Manned.rouse (h : Manned s) : Orderly s.rouse := by
  have ho := onward_rouse s
  refine ⟨h.onward ho, fun _ n f' j hf' hj hu => ?_⟩
  obtain ⟨f, hf, hb⟩ := ho.exists_fiber hf'
  have hj : f.job = some j := (Fiber.job_of_bare hb).trans hj
  have hu : s.Urgent j f := hu.of_bare (by rw [isFired, site_rouse]; rfl) hb
  rcases h.placed n f j hf hj with hp | hr
  · exact mem_ready_rouse hp hf (canGoOn_of_urgent (h.serves n f j hf hj) hu)
  · exact ho.ready.subset hr

/-- The connection may be exchanged if those that wait are looked at. -/
theorem Orderly.reconnect (h : Orderly s) (connection : Connection) : Orderly (s.withConnection connection).rouse := by
  have hm : Manned (s.withConnection connection) := ⟨h.serves, h.placed, h.crew⟩
  exact hm.rouse

/-- A fiber may be set aside. -/
theorem Orderly.take (h : Orderly s) (n : Nat) : Orderly (s.without n) := by
  constructor
  · constructor
    · exact fun m f j hf hj => h.serves m f j (find?_of_without hf) hj
    · exact fun m f j hf hj => h.placed m f j (find?_of_without hf) hj
    · exact fun m hm => ⟨(h.crew m hm).1, fun f hf => (h.crew m hm).2 f (find?_of_without hf)⟩
  · exact fun hc m f j hf hj hu => h.prompt hc m f j (find?_of_without hf) hj hu

theorem without_store (s : Session α) (n : Nat) (f : Fiber α) : (s.store n f).without n = s.without n := by
  simp [without, store, Table.insert, Table.erase]

/-- A fiber that was set aside may come back. -/
theorem Manned.put {n : Nat} {f : Fiber α} (h : Manned (s.without n)) (hs : ∀ j, f.job = some j → f.Serves s.handlers j)
    (hp : ∀ j, f.job = some j → n ∈ s.parked ∨ .fiber n ∈ s.ready) (hw : n ∈ s.running → f.place = .worker) :
    Manned (s.store n f) := by
  refine ⟨fun m g j hg hj => ?_, fun m g j hg hj => ?_, fun m hr => ⟨(h.crew m hr).1, fun g hg => ?_⟩⟩
  · rcases find?_of_store hg with ⟨rfl, rfl⟩ | hg
    · exact hs j hj
    · exact h.serves m g j hg hj
  · rcases find?_of_store hg with ⟨rfl, rfl⟩ | hg
    · exact hp j hj
    · exact h.placed m g j hg hj
  · rcases find?_of_store hg with ⟨rfl, rfl⟩ | hg
    · exact hw hr
    · exact (h.crew m hr).2 g hg

/-- There is order when a fiber that was set aside comes back and does not wait in vain. -/
theorem Manned.orderly {n : Nat} (h : Manned s) (ho : Orderly (s.without n))
    (hu : s.site.connection.outgoing.closed = false →
      ∀ f j, s.fibers.find? n = some f → f.job = some j → s.Urgent j f → .fiber n ∈ s.ready) : Orderly s := by
  refine ⟨h, fun hc m g j hg hj hug => ?_⟩
  by_cases hm : m = n
  · subst hm
    exact hu hc g j hg hj hug
  · exact ho.prompt hc m g j ((find?_without_of_ne hm s).trans hg) hj hug

/-- A fiber that was set aside may come back if it does not wait in vain. -/
theorem Orderly.put {n : Nat} {f : Fiber α} (h : Orderly (s.without n)) (hs : ∀ j, f.job = some j → f.Serves s.handlers j)
    (hp : ∀ j, f.job = some j → n ∈ s.parked ∨ .fiber n ∈ s.ready) (hw : n ∈ s.running → f.place = .worker)
    (hu : s.site.connection.outgoing.closed = false → ∀ j, f.job = some j → s.Urgent j f → .fiber n ∈ s.ready) :
    Orderly (s.store n f) := by
  refine (h.toManned.put hs hp hw).orderly (n := n) (by rwa [without_store]) fun hc g j hg hj hug => ?_
  rw [find?_store_self] at hg
  obtain rfl := Option.some.inj hg
  exact hu hc j hj hug

/-- A fiber that is given a turn does not wait. -/
theorem Manned.wake {n : Nat} (h : Manned s) (ho : Orderly (s.without n)) : Orderly (s.wake n) :=
  (h.onward (onward_wake s n)).orderly (ho.onward ((onward_wake s n).without n)) fun _ _ _ _ _ _ => mem_ready_enqueue _ _

/-- An actor that is no fiber, or none any more, may use up its turn. -/
theorem Orderly.taken (h : Orderly s) {a : Actor} (ha : ∀ n, a = .fiber n → s.fibers.find? n = none) : Orderly (s.taken a) := by
  have hr {n : Nat} {f : Fiber α} (hf : s.fibers.find? n = some f) (hn : .fiber n ∈ s.ready) : .fiber n ∈ (s.taken a).ready := by
    refine (List.mem_erase_of_ne fun hm => ?_).mpr hn
    rw [ha n hm.symm] at hf
    cases hf
  constructor
  · exact ⟨h.serves, fun n f j hf hj => (h.placed n f j hf hj).imp_right (hr hf), h.crew⟩
  · exact fun hc n f j hf hj hu => hr hf (h.prompt hc n f j hf hj hu)

/-- The number of the next fiber can be used up. -/
theorem Orderly.numbered (h : Orderly s) : Orderly { s with nextFiber := s.nextFiber + 1 } :=
  ⟨⟨h.serves, h.placed, fun n hn => ⟨Nat.lt_succ_of_lt (h.crew n hn).1, (h.crew n hn).2⟩⟩, h.prompt⟩

/-- A call that begins has a turn. -/
theorem Orderly.spawn (h : Orderly s) {f : Fiber α} (hs : ∀ j, f.job = some j → f.Serves s.handlers j) :
    Orderly (s.spawn f) := by
  have hr : .fiber s.nextFiber ∈ ({ s with nextFiber := s.nextFiber + 1 }.enqueue (.fiber s.nextFiber)).ready :=
    mem_ready_enqueue _ _
  have ho := onward_enqueue { s with nextFiber := s.nextFiber + 1 } (.fiber s.nextFiber)
  have hp : Orderly (({ s with nextFiber := s.nextFiber + 1 }.enqueue (.fiber s.nextFiber)).store s.nextFiber f) := by
    refine ((h.numbered.onward ho).take _).put ?_ (fun _ _ => .inr hr) (fun hw => ?_) fun _ _ _ _ => hr
    · rw [ho.handlers]
      exact hs
    · rw [ho.running] at hw
      exact absurd (h.crew _ hw).1 (Nat.lt_irrefl _)
  have he : ({ s with nextFiber := s.nextFiber + 1 }.enqueue (.fiber s.nextFiber)).store s.nextFiber f = s.spawn f := by
    unfold Session.spawn enqueue store
    split <;> rfl
  exact he ▸ hp

/-- The fiber of a job is at work on it. -/
theorem serves_fiberOf (s : Session α) {j : Job} (hm : j.mode ≠ .direct) : (s.fiberOf j).Serves s.handlers j := by
  refine ⟨hm, rfl, rfl, fun hc hp => ?_, fun ht => ?_⟩
  · simp [fiberOf, hc] at hp
  · refine ⟨rfl, .refl _, fun _ => rfl, fun hp => ?_⟩
    simp [fiberOf, ht] at hp

/-- The fiber of a job is a fiber with this job. -/
theorem serves_of_fiberOf (s : Session α) {next : Job} (hm : next.mode ≠ .direct) :
    ∀ j, (s.fiberOf next).job = some j → (s.fiberOf next).Serves s.handlers j := by
  intro j hj
  obtain rfl := Option.some.inj hj
  exact serves_fiberOf s hm

/-- The outcome of a job is handed back. -/
theorem Orderly.settled (h : Orderly s) (hh : s.handlers.Lawful) {j : Job} {o : Outcome} (hs : Settled s j o s') :
    Orderly s' := by
  have hb : Orderly (s.handBack j o).1 := h.reconnect _
  have hl : (s.handBack j o).1.handlers.Lawful := by
    simp only [handBack, (onward_rouse _).handlers]
    exact hh
  cases hs with
  | last he =>
    rw [he] at hb
    exact hb
  | @done s₁ s₂ next o' he hd =>
    rw [he] at hb hl
    have hr := hb.onward (runDirect_onward hl next)
    rw [hd] at hr
    exact hr.reconnect _
  | begun he hm =>
    rw [he] at hb
    exact hb.spawn (serves_of_fiberOf _ hm)

/-- Whoever ends, the session keeps order. -/
theorem Orderly.ended (h : Orderly s) (hh : s.handlers.Lawful) {job : Option Job} {o : Outcome} (he : Ended s o job s') :
    Orderly s' := by
  cases he with
  | alone => exact h
  | settled hs => exact h.settled hh hs

/-- A fiber that waits behind its turn is still at work on its job. If its body is to run on a worker, it is there, or waits for
one and was not cancelled. -/
theorem serves_of_drive {s s' : Session α} (hh : s.handlers.Lawful) {n : Nat} {f f' : Fiber α} (hf : f.Lawful) {j : Job}
    (hs : f.Serves s.handlers j) (hd : s.drive turnBound n f = (s', .waits f')) :
    f'.Serves s.handlers j ∧
      (j.mode = .threaded → f'.place ≠ .here ∧ (f'.place = .queued → s.isFired j.token = false)) := by
  have hk := (drive_onward (s := s) hh turnBound n hf).progress
  rw [hd] at hk
  have hc : f.Continues f' := hk.2
  cases hm : j.mode with
  | direct => exact absurd hm hs.mode
  | coroutine => exact ⟨hs.continues hc hm, nofun⟩
  | threaded =>
    have ht := hs.token
    rcases drive_offloads (s := s) (hs.threaded hm) n with ⟨s₁, f₁, he, ho, hp, hq⟩ | ⟨-, -, he⟩ | ⟨o, -, -, he⟩
    · rw [hd] at he
      obtain ⟨-, rfl⟩ : s' = s₁ ∧ f' = f₁ := by simpa using he
      refine ⟨⟨hs.mode, hc.call.trans hs.call, hc.guarded.trans hs.guarded, ?_, fun _ => ho⟩, fun _ => ⟨hp, ht ▸ hq⟩⟩
      exact fun hj => by rw [hm] at hj; cases hj
    · rw [hd] at he
      cases he
    · rw [hd] at he
      cases he

/-- A fiber that was set aside may go to a worker. -/
theorem Orderly.join {n : Nat} (h : Orderly (s.without n)) (hn : n < s.nextFiber) :
    Orderly ({ s with running := s.running ++ [n] }.without n) := by
  refine ⟨⟨h.serves, h.placed, fun m hm => ?_⟩, h.prompt⟩
  rcases List.mem_append.mp hm with hm | hm
  · exact h.crew m hm
  · obtain rfl := List.mem_singleton.mp hm
    refine ⟨hn, fun f hf => ?_⟩
    rw [find?_without_self] at hf
    cases hf

/-- A fiber that was set aside may leave its worker. -/
theorem Orderly.leave {n : Nat} (h : Orderly (s.without n)) :
    Orderly ({ s with running := s.running.filter (· ≠ n) }.without n) :=
  ⟨⟨h.serves, h.placed, fun m hm => h.crew m (List.mem_filter.mp hm).1⟩, h.prompt⟩

/-- A fiber that was set aside ends early. -/
theorem Orderly.dismiss {n : Nat} {f : Fiber α} (h : Orderly (s.without n)) : Orderly (s.dismiss n f) := by
  have hq := h.onward ((onward_giveBack s f).without n)
  unfold Session.dismiss
  split
  · rename_i hp
    exact hq.put (fun _ hj => by cases hj) (fun _ hj => by cases hj) (fun _ => hp) fun _ _ hj => by cases hj
  · exact hq

/-- A fiber that was set aside may have gone to a worker in its turn. -/
theorem Orderly.drives {n : Nat} {f : Fiber α} {r : Session α × Pause α} (h : Orderly (s.without n)) (hn : n < s.nextFiber)
    (hd : Drives s n f r) : Orderly (r.1.without n) := by
  have hq := h.onward (hd.onward.without n)
  rcases hd.running with hr | ⟨f', -, -, hr⟩
  · rwa [← hr] at hq
  · have hj := hq.join (hd.onward.nextFiber ▸ hn)
    rwa [← hr] at hj

/-- A fiber that was set aside waits behind its turn. -/
theorem Orderly.waits {n : Nat} {f f' : Fiber α} (h : Orderly (s.without n)) (hh : s.handlers.Lawful) (hf : f.Lawful)
    (hs : ∀ j, f.job = some j → f.Serves s.handlers j) (hw : n ∈ s.running → f.place = .worker) (hn : n < s.nextFiber)
    (hg : f.guarded = true → s.isFired f.call.token = false) (he : s.drive turnBound n f = (s', .waits f')) :
    Orderly (s'.park n f') := by
  have hd := drive_onward (s := s) hh turnBound n hf
  rw [he] at hd
  have hq : Orderly (s'.without n) := h.drives hn hd
  have hc : f.Continues f' := hd.progress.2
  have hserves (j : Job) (hj : f'.job = some j) := serves_of_drive hh hf (hs j (hc.job ▸ hj)) he
  have hp : Onward (s'.without n) ({ s' with parked := s'.parked ++ [n] }.without n) :=
    ⟨.refl _, .refl _, rfl, rfl, List.prefix_refl _, fun _ hm => .inl (List.mem_append_left _ hm), rfl⟩
  refine (hq.onward hp).put (fun j hj => ?_) (fun _ _ => .inl (List.mem_append_right _ List.mem_cons_self))
    (fun hr => ?_) fun hopen j hj hu => ?_
  · have hh : s'.handlers = s.handlers := hd.onward.handlers
    simp only [hh]
    exact (hserves j hj).1
  · rcases hd.running with hr' | ⟨f₁, h₁, hp₁, -⟩
    · have hpl := hw (hr' ▸ hr)
      rw [drive_worker hpl] at he
      obtain ⟨-, rfl⟩ : s = s' ∧ f = f' := by simpa using he
      exact hpl
    · obtain rfl : f' = f₁ := by simpa using h₁
      exact hp₁
  · -- What waits behind its turn was not cancelled, and its body has not ended.
    have hfired : s'.isFired j.token = s.isFired j.token := hd.onward.isFired hopen _
    have hsj := hs j (hc.job ▸ hj)
    rcases hu with ⟨hfd, ha⟩ | ⟨hm, hp⟩
    · have hfd : s.isFired j.token = true := hfired ▸ hfd
      rcases ha with hj | ⟨hm, hp⟩
      · rw [← hsj.token, hg (hsj.guarded.trans hj)] at hfd
        cases hfd
      · rw [((hserves j hj).2 hm).2 hp] at hfd
        cases hfd
    · exact absurd hp ((hserves j hj).2 hm).1

/-- A fiber that was set aside has its turn. -/
theorem Orderly.driven {n : Nat} {f : Fiber α} (h : Orderly (s.without n)) (hh : s.handlers.Lawful) (hf : f.Lawful)
    (hs : ∀ j, f.job = some j → f.Serves s.handlers j) (hw : n ∈ s.running → f.place = .worker) (hn : n < s.nextFiber)
    (hd : Driven s n f s') : Orderly s' := by
  cases hd with
  | cancelled _ _ he =>
    refine h.dismiss.ended ?_ he
    have hg : (s.giveBack f).handlers = s.handlers := (onward_giveBack s f).handlers
    unfold Session.dismiss
    split <;> exact hg ▸ hh
  | waits hg hd => exact h.waits hh hf hs hw hn hg hd
  | @ends s₁ _ o _ hd he =>
    have hr := drive_onward (s := s) hh turnBound n hf
    rw [hd] at hr
    have hl : s₁.handlers = s.handlers := hr.onward.handlers
    exact (h.drives hn hr).ended (hl ▸ hh) he

/-- A payload is handed to the connection, and the job that comes of it begins. -/
theorem Orderly.handled (h : Orderly s) (hh : s.handlers.Lawful) {payload : Bytes} (hs : Handled s payload s') :
    Orderly s' := by
  have hr (connection : Connection) : Orderly (s.withConnection connection).rouse := h.reconnect connection
  have hl (connection : Connection) : (s.withConnection connection).rouse.handlers.Lawful := by
    rw [(onward_rouse _).handlers]
    exact hh
  cases hs with
  | answered he => exact hr _
  | @done connection j s₁ _ o he hd hs =>
    have ho := runDirect_onward (hl connection) j
    rw [hd] at ho
    exact ((hr connection).onward ho).settled (ho.handlers ▸ hl connection) hs
  | @begun connection j s₁ _ he hm h₁ hd =>
    have hr := h₁ ▸ hr connection
    have hl := h₁ ▸ hl connection
    have hw : s₁.nextFiber ∉ s₁.running := fun hw => Nat.lt_irrefl _ (hr.crew _ hw).1
    exact (hr.numbered.take _).driven hl (lawful_fiberOf hl j) (serves_of_fiberOf _ hm) (fun hr => absurd hr hw)
      (Nat.lt_succ_self _) hd
  | @spawned connection j s₁ he hm h₁ => exact (h₁ ▸ hr connection).spawn (serves_of_fiberOf _ hm)

/-- A fiber on a worker goes on. -/
theorem Orderly.worked (h : Orderly s) {n : Nat} (hl : ∀ f, s.fibers.find? n = some f → f.Lawful) (hn : n ∈ s.running)
    (hs : Worked s n s') : Orderly s' := by
  -- What is known of the fiber and the session when the body has gone on.
  have hgone {k : Nat} {s₁ : Session α} {f f' : Fiber α} {moved : Bool} (hf : s.fibers.find? n = some f)
      (hd : s.driveWorker k f false = (s₁, f', moved)) :
      Onward s s₁ ∧ f.Advances f' ∧ f.place = .worker ∧ (∀ j, f'.job = some j → f'.Serves s₁.handlers j) ∧
        ∀ j, f'.job = some j → n ∈ s₁.parked ∨ .fiber n ∈ s₁.ready := by
    have hp := (h.crew n hn).2 f hf
    obtain ⟨ho, -, ha⟩ := (labors_of_eq hd).onward (hl f hf)
    refine ⟨ho, ha, hp, fun j hj => ?_, fun j hj => ?_⟩
    · rw [ho.handlers]
      exact (h.serves n f j hf (ha.job ▸ hj)).advances ha hp
    · rcases h.placed n f j hf (ha.job ▸ hj) with hp | hr
      · exact ho.parked n hp
      · exact .inr (ho.ready.subset hr)
  cases hs with
  | @back k s₁ f f' o hf hd hr =>
    obtain ⟨ho, ha, hp, hserves, hplaced⟩ := hgone hf hd
    have hw : Orderly (s₁.without n) := (h.take n).onward (ho.without n)
    have hm : Manned { s₁.store n { f' with place := .here } with running := s₁.running.filter (· ≠ n) } :=
      hw.leave.toManned.put (fun j hj => (hserves j hj).back hr) hplaced fun hm => by simp at hm
    have hq : Orderly ({ s₁.store n { f' with place := .here } with running := s₁.running.filter (· ≠ n) }.without n) := by
      have he := without_store { s₁ with running := s₁.running.filter (· ≠ n) } n { f' with place := .here }
      exact he ▸ hw.leave
    have hfree := onward_freeWorker { s₁.store n { f' with place := .here } with running := s₁.running.filter (· ≠ n) }
    exact (hm.onward hfree).wake (hq.onward (hfree.without n))
  | @stays k s₁ f f' hf hd =>
    obtain ⟨ho, ha, hp, hserves, hplaced⟩ := hgone hf hd
    have hw : Orderly (s₁.without n) := (h.take n).onward (ho.without n)
    refine hw.put hserves hplaced (fun _ => ha.place.trans hp) fun hopen j hj hu => ?_
    have hu : s.Urgent j f := by
      rcases hu with ⟨hfd, hg⟩ | ⟨-, hp'⟩
      · refine .inl ⟨(ho.isFired hopen _).symm.trans hfd, ?_⟩
        rwa [ha.place] at hg
      · rw [ha.place, hp] at hp'
        cases hp'
    exact ho.ready.subset (h.prompt (ho.connection.incoming hopen).1 n f j hf (ha.job ▸ hj) hu)

/-- A step that uses up no turn keeps order. -/
theorem Orderly.aside {first : Conversation} (h : Orderly s) (hf : Follows first [] s) (hs : Aside s s') : Orderly s' := by
  cases hs with
  | onward ho => exact h.onward ho
  | worker hn hw => exact h.worked (fun f hfind => (hf.fiber hfind).1) hn hw
  | receive payload => exact h.handled hf.handlers (handled_receive s payload)
  | begin hr => exact h.spawn fun j hj => by cases hj

/-- One step keeps order. -/
theorem Orderly.next {first : Conversation} (h : Orderly s) (hf : Follows first [] s) (hs : Next s s') : Orderly s' := by
  cases hs with
  | aside hs => exact h.aside hf hs
  | pass ha => exact h.taken ha
  | @turn n f hn hfind =>
    have ht : Orderly ((s.taken (.fiber n)).without n) :=
      (h.take n).taken fun m hm => Actor.fiber.inj hm ▸ find?_without_self s n
    exact ht.driven hf.handlers (hf.fiber hfind).1 (fun j hj => h.serves n f j hfind hj)
      (fun hr => (h.crew n hr).2 f hfind) (hf.fiber hfind).2 (driven_driveFiber _ n f)

/-- A new session is in order. -/
theorem orderly_make (handlers : Registry (Handler α)) (catalogue : Catalogue) (workers : Nat) (own : α) :
    Orderly (make handlers catalogue workers own) := by
  refine ⟨⟨fun n f j hf => ?_, fun n f j hf => ?_, fun n hn => ?_⟩, fun _ n f j hf => ?_⟩
  · cases hf
  · cases hf
  · cases hn
  · cases hf

end Session

end Parley
