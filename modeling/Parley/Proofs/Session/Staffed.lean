import Parley.Proofs.Session.Staff

/-!
# Workers and turns of every session

The steps of a session keep the workers and the rows in order, what comes from outside does too, and so they are in order in every
session that can be reached (`Session.Reachable.staffed`).
-/

namespace Parley

variable {α : Type}

namespace Session

variable {handlers : Registry (Handler α)} {catalogue : Catalogue} {s s' : Session α} {aside : Option Nat} {k n : Nat}
  {f : Fiber α}

namespace Staffed

/-- The site may differ. -/
theorem onSite (h : Staffed aside k s) (site : Site α) : Staffed aside k { s with site } :=
  h.of_eq rfl rfl rfl rfl rfl rfl rfl

/-- The outcome of a job has nothing to do with workers. -/
theorem handBack (h : Staffed aside k s) (j : Job) (o : Outcome) : Staffed aside k (s.handBack j o).1 :=
  (h.onSite { s.site with connection := (s.site.connection.complete j o).1 }).rouse

/-- Nor has a direct handler. -/
theorem runDirect (h : Staffed aside k s) (j : Job) : Staffed aside k (s.runDirect j).2 := by
  unfold Session.runDirect
  split
  · rename_i run hf
    exact (h.onSite (run j.call s.site).2).rouse
  · exact h

/-- The outcome of a job is handed back. -/
theorem settled (h : Staffed none 0 s) {j : Job} {o : Outcome} (hs : Settled s j o s') : Staffed none 0 s' := by
  have hb := h.handBack j o
  cases hs with
  | last he =>
    rw [he] at hb
    exact hb
  | @done s₁ s₂ next o' he hd =>
    rw [he] at hb
    have hr := hb.runDirect next
    rw [hd] at hr
    exact hr.handBack next o'
  | begun he hm =>
    rw [he] at hb
    exact hb.spawn_fiberOf _ _

/-- A fiber that ends has no worker. -/
theorem ended (h : Staffed none 0 s) {job : Option Job} {o : Outcome} (he : Ended s o job s') : Staffed none 0 s' := by
  cases he with
  | alone => exact h
  | settled hs => exact h.settled hs

end Staffed

/-- A fiber that was set aside ends early. -/
theorem InHand.dismiss (h : InHand n f s) : Staffed none 0 (s.dismiss n f) := by
  unfold Session.dismiss
  split
  · rename_i hp
    have hg : s.giveBack f = s := by
      unfold Session.giveBack
      split
      · simp only [hp]
      · rfl
    rw [hg]
    have hn : f.place ≠ .queued := by simp [hp]
    refine Staffed.put ⟨?_, ⟨h.tidy.granted, h.tidy.deadline⟩, h.manned⟩ fun hq => absurd hq hn
    exact h.staffed
  · rename_i hp
    exact (h.staffed.giveBack hp).dropped

/-- A fiber that was set aside has its turn. -/
theorem InHand.driven (h : InHand n f s) (hd : Driven s n f s') : Staffed none 0 s' := by
  have hdrive : (s.drive turnBound n f).2.Staffs n (s.drive turnBound n f).1 := h.drive fun _ _ => by simp [turnBound]
  cases hd with
  | cancelled _ _ he => exact h.dismiss.ended he
  | waits _ hd =>
    rw [hd] at hdrive
    exact Staffed.park hdrive.1 hdrive.2
  | @ends s₁ _ o _ hd he =>
    rw [hd] at hdrive
    have hs : Staffed (some n) 0 s₁ := hdrive
    exact hs.dropped.ended he

/-- What a body does on a worker keeps the fibers as they are, and is in order by itself. -/
theorem Labors.staffs {f f' : Fiber α} (hl : Labors s f s' f') (h : Staffed aside k s) (ht : f.Tidy) (hp : f.place = .worker) :
    Staffed aside k s' ∧ s'.fibers = s.fibers ∧ s'.running = s.running ∧ f'.Tidy ∧ f'.place = .worker := by
  have notQueued {f : Fiber α} (hp : f.place = .worker) : f.place ≠ .queued := by simp [hp]
  induction hl with
  | rests => exact ⟨h, rfl, rfl, ht, hp⟩
  | waits =>
    refine ⟨h, rfl, rfl, tidy_timed ht (notQueued hp), ?_⟩
    rw [timed_eq]
    exact hp
  | @acts s s' f f' update next hr hl ih =>
    obtain ⟨hs, hf, hw, ht', hp'⟩ := ih (h.onSite (update s.site)).rouse (ht.goesOn (notQueued hp) (by simp [hr]) rfl rfl) hp
    exact ⟨hs, hf.trans (fibers_rouse _), hw.trans (onward_rouse _).running, ht', hp'⟩
  | answered hr hl ih | misses hr hl ih => exact ih h (ht.goesOn (notQueued hp) (by simp [hr]) rfl rfl) hp
  | passes hr hw hl ih =>
    have hs := h.pass? hw
    obtain ⟨gates, rfl⟩ := exists_of_pass? hw
    exact ih hs (Fiber.tidy_of_plain rfl rfl) hp

namespace Staffed

/-- A payload is handed to the connection, and the job that comes of it begins. -/
theorem handled (h : Staffed none 0 s) {payload : Bytes} (hs : Handled s payload s') : Staffed none 0 s' := by
  have hr (connection : Connection) : Staffed none 0 (s.withConnection connection).rouse :=
    (h.onSite { s.site with connection }).rouse
  cases hs with
  | answered he => exact hr _
  | @done connection j s₁ _ o he hd hs =>
    have hd' := (hr connection).runDirect j
    rw [hd] at hd'
    exact hd'.settled hs
  | @begun connection j s₁ _ he hm h₁ hd =>
    have hl : (s₁.fiberOf j).place ≠ .worker := by simp only [fiberOf]; split <;> simp
    exact ((h₁ ▸ hr connection).fresh hl rfl rfl).driven hd
  | @spawned connection j s₁ he hm h₁ => exact (h₁ ▸ hr connection).spawn_fiberOf _ j

/-- A payload engages no worker at once. -/
theorem receive (h : Staffed none 0 s) (payload : Bytes) : Staffed none 0 (s.receive payload).1 :=
  h.handled (handled_receive s payload)

/-- A fiber on a worker goes on. -/
theorem worked (h : Staffed none 0 s) (hp : ∀ f, s.fibers.find? n = some f → f.place = .worker) (hs : Worked s n s') :
    Staffed none 0 s' := by
  cases hs with
  | @back k s₁ f f' o hf hd hr =>
    obtain ⟨hs, hfw, -, ht, hp'⟩ := (labors_of_eq hd).staffs h (h.tidy n f nofun hf) (hp f hf)
    have hf₁ : s₁.fibers.find? n = some f := (congrArg (Table.find? · n) hfw).trans hf
    have hn : f'.place ≠ .queued := by simp [hp']
    have hback : Staffed none 1 (s₁.store n { f' with place := .here }) := by
      refine hs.replace hf₁ nofun ?_ (ht.goesOn hn (by simp [hr]) rfl rfl) nofun nofun
      rw [Fiber.load_of_worker (hp f hf), Fiber.load_of_here rfl]
    have hleft : Staffed none 1 { s₁.store n { f' with place := .here } with running := s₁.running.filter (· ≠ n) } := by
      refine ⟨hback.once, hback.waits, hback.parked, hback.ready, hback.numbered, nofun, hback.tidy, fun m g hm hg hgp => ?_,
        hback.handed, hback.workers⟩
      refine List.mem_filter.mpr ⟨hback.manned m g hm hg hgp, decide_eq_true fun he => ?_⟩
      rw [he, find?_store_self] at hg
      rw [← Option.some.inj hg] at hgp
      cases hgp
    refine hleft.freeWorker.wake ?_ nofun
    rw [(onward_freeWorker _).nextFiber]
    exact hs.numbered n f hf₁
  | @stays k s₁ f f' hf hd =>
    obtain ⟨hs, hfw, hw, ht, hp'⟩ := (labors_of_eq hd).staffs h (h.tidy n f nofun hf) (hp f hf)
    have hf₁ : s₁.fibers.find? n = some f := (congrArg (Table.find? · n) hfw).trans hf
    refine hs.replace hf₁ nofun ?_ ht (fun _ => hw ▸ h.manned n f nofun hf (hp f hf)) fun hq => ?_
    · rw [Fiber.load_of_worker (hp f hf), Fiber.load_of_worker hp']
    · rw [hp'] at hq
      cases hq

/-- Fibers that wait for a moment get turns, one after the other. -/
theorem foldl_grant {due : List Nat} (h : Staffed none 0 s)
    (hd : ∀ n ∈ due, ∀ f, s.fibers.find? n = some f → f.deadline ≠ none) :
    Staffed none 0 (due.foldl (fun s n => match s.fibers.find? n with | some f => s.grant n f | none => s) s) := by
  induction due generalizing s with
  | nil => exact h
  | cons n due ih =>
    rw [List.foldl_cons]
    cases hf : s.fibers.find? n with
    | none => exact ih h fun m hm => hd m (List.mem_cons_of_mem _ hm)
    | some f =>
      obtain ⟨hq, ms, next, hr⟩ := (h.tidy n f nofun hf).deadline (hd n List.mem_cons_self f hf)
      refine ih (h.grant hf nofun ?_ (.inr ⟨_, _, hr⟩)) fun m hm g hg => ?_
      · rw [Fiber.load_granted hq]
      · have hg : (s.grant n f).fibers.find? m = some g := hg
        rw [grant_eq] at hg
        rcases find?_of_store hg with ⟨rfl, rfl⟩ | hg
        · exact hd m List.mem_cons_self f hf
        · exact hd m (List.mem_cons_of_mem _ hm) g (find?_of_without hg)

/-- The fibers whose time has come get turns. -/
theorem stepTimers (h : Staffed none 0 s) (hs : s.stepTimers = some s') : Staffed none 0 s' := by
  simp only [Session.stepTimers] at hs
  split at hs
  · cases hs
  · obtain rfl := Option.some.inj hs
    refine h.foldl_grant fun n hn f hf hd => ?_
    have hc := (List.mem_filter.mp hn).2
    simp [hf, hd] at hc

theorem finish (h : Staffed none 0 s) (r : Reason) : Staffed none 0 (s.finish r) :=
  rouse (h.of_eq rfl rfl rfl rfl rfl rfl rfl)

theorem report (h : Staffed none 0 s) (kind : ReportKind) (text : String) : Staffed none 0 (s.report kind text) :=
  h.of_eq rfl rfl rfl rfl rfl rfl rfl

/-- The loop goes through a round. -/
theorem round (h : Staffed none 0 s) (hr : Round s s') : Staffed none 0 s' := by
  have hsource (source : Source) : Staffed none 0 { s with source } := h.of_eq rfl rfl rfl rfl rfl rfl rfl
  cases hr with
  | stopped | exited => exact h.finish _
  | idle => exact h
  | @serves payload source s₁ hc hn hr =>
    have hp := (hsource source).receive payload
    rwa [hr] at hp
  | @awaits payload source s₁ n hc hn hr =>
    have hp := (hsource source).receive payload
    rw [hr] at hp
    exact hp.of_eq rfl rfl rfl rfl rfl rfl rfl
  | closed => exact (hsource _).finish _
  | breaks => exact h.of_eq rfl rfl rfl rfl rfl rfl rfl
  | failed => exact ((hsource _).report _ _).finish _
  | reports => exact (hsource _).report _ _

/-- The loop takes payloads. -/
theorem takePayloads (h : Staffed none 0 s) (fuel : Nat) : Staffed none 0 (s.takePayloads fuel) := by
  have hrounds := rounds_takePayloads s fuel
  generalize s.takePayloads fuel = s' at hrounds ⊢
  induction hrounds with
  | refl => exact h
  | tail _ hr ih => exact ih.round hr

/-- The loop has its turn. -/
theorem proceed (h : Staffed none 0 s) : Staffed none 0 s.proceed := by
  unfold Session.proceed
  split
  · exact h.finish _
  · have hs : Staffed none 0 { s with intake := .reading } := h.of_eq rfl rfl rfl rfl rfl rfl rfl
    exact hs.takePayloads _

/-- The writer has its turn. -/
theorem write (h : Staffed none 0 s) : Staffed none 0 s.write := by
  unfold Session.write
  split
  · exact h
  · split
    · exact h
    · exact h.of_eq rfl rfl rfl rfl rfl rfl rfl

/-- The actor whose turn is next has it. -/
theorem turn (h : Staffed none 0 s) {a : Actor} (ha : a ∈ s.ready) : Staffed none 0 ((s.taken a).turn a) := by
  by_cases hn : ∃ n f, a = .fiber n ∧ s.fibers.find? n = some f
  · obtain ⟨n, f, rfl, hf⟩ := hn
    have hd := (h.taken ha hf).driven (driven_driveFiber _ n f)
    have hf : (s.taken (.fiber n)).fibers.find? n = some f := hf
    simp only [Session.turn, hf]
    split
    · exact hd.proceed
    · exact hd
  · have hp := h.pass fun n he => Option.eq_none_iff_forall_ne_some.mpr fun f hf => hn ⟨n, f, he, hf⟩
    cases a with
    | writer => exact hp.write
    | loop =>
      simp only [Session.turn]
      split
      · exact hp.takePayloads _
      · exact hp
    | fiber n =>
      have hf : (s.taken (.fiber n)).fibers.find? n = none :=
        Option.eq_none_iff_forall_ne_some.mpr fun f hf => hn ⟨n, f, rfl, hf⟩
      simp only [Session.turn, hf]
      exact hp

end Staffed

/-- Those on workers are on workers. -/
theorem Orderly.crewed (h : Orderly s) (hn : n ∈ s.running) : ∀ f, s.fibers.find? n = some f → f.place = .worker :=
  (h.crew n hn).2

/-- After any number of turns. -/
theorem Underway.staffed_run (hu : Underway handlers catalogue s) (h : Staffed none 0 s) (fuel : Nat) :
    Staffed none 0 (s.run fuel) := by
  induction fuel generalizing s with
  | zero => exact h
  | succ fuel ih =>
    unfold Session.run
    split
    · rename_i a rest hr
      have ha : a ∈ s.ready := by rw [hr]; exact List.mem_cons_self
      rw [taken_of_ready hr]
      exact ih (hu.later (later_turn ha)) (h.turn ha)
    · split
      · rename_i s' hs
        obtain ⟨n, hn, hw⟩ := List.exists_of_findSome?_eq_some hs
        exact ih (hu.next (.aside (.worker hn (worked_of_stepWorker hw)))) (h.worked (hu.orderly.crewed hn) (worked_of_stepWorker hw))
      · split
        · rename_i s' hs
          exact ih (hu.later (onward_stepTimers hs).later) (h.stepTimers hs)
        · exact h

/-- While time passes. -/
theorem Underway.staffed_passTime (hu : Underway handlers catalogue s) (h : Staffed none 0 s) (fuel moment : Nat) :
    Staffed none 0 (passTime fuel moment s) := by
  induction fuel generalizing s with
  | zero => exact h
  | succ fuel ih =>
    unfold Session.passTime
    split
    · rename_i d hd
      have hs : Staffed none 0 { s with clock := Nat.max s.clock d } := h.of_eq rfl rfl rfl rfl rfl rfl rfl
      have ho : Onward s { s with clock := Nat.max s.clock d } := .of_eq rfl rfl rfl rfl rfl rfl rfl
      have hu' := hu.later ho.later
      exact ih (hu'.later (later_run _ _)) (hu'.staffed_run hs _)
    · exact h.of_eq rfl rfl rfl rfl rfl rfl rfl

/-- No actor but a fiber is in a row of fibers. -/
theorem Staffed.nudge (h : Staffed none 0 s) : Staffed none 0 s.nudge := by
  unfold Session.nudge
  split
  · exact h.enqueue nofun
  · exact h

/-- The workers and the rows of every session that can be reached are in order. -/
theorem Reachable.staffed (h : Reachable handlers catalogue s) (hh : handlers.Lawful) : Staffed none 0 s := by
  induction h with
  | make workers own =>
    refine ⟨.nil, ?_, ?_, ?_, ?_, ?_, ?_, ?_, ?_, ?_⟩
    all_goals simp [Session.make, engaged]
  | outfit h framed sink ih => exact ih.of_eq rfl rfl rfl rfl rfl rfl rfl
  | @start s h source ih =>
    have hs : Staffed none 0 { s with intake := .reading, source } := ih.of_eq rfl rfl rfl rfl rfl rfl rfl
    exact hs.enqueue fun n hn => by cases hn
  | @feed s h bytes ih =>
    unfold Session.feed
    split
    · exact ih.receive bytes
    · exact Staffed.nudge (ih.of_eq rfl rfl rfl rfl rfl rfl rfl)
  | close h ih => exact Staffed.nudge (ih.of_eq rfl rfl rfl rfl rfl rfl rfl)
  | fail h f ih => exact Staffed.nudge (ih.of_eq rfl rfl rfl rfl rfl rfl rfl)
  | stop h ih => exact Staffed.rouse (ih.of_eq rfl rfl rfl rfl rfl rfl rfl)
  | @release s h name ih =>
    have hs : Staffed none 0 { s with latches := name :: s.latches } := ih.of_eq rfl rfl rfl rfl rfl rfl rfl
    exact (hs.addPermit name).rouse
  | act h f hf ih => exact Staffed.rouse (ih.of_eq rfl rfl rfl rfl rfl rfl rfl)
  | begin h r hr ih => exact ih.spawn (by simp) rfl rfl
  | takeQueue h ih => exact ih.of_eq rfl rfl rfl rfl rfl rfl rfl
  | dropWriter h ih => exact ih.of_eq rfl rfl rfl rfl rfl rfl rfl
  | sever h ih => exact ih.of_eq rfl rfl rfl rfl rfl rfl rfl
  | run h fuel ih => exact (h.underway hh).staffed_run ih fuel
  | passTime h fuel moment ih => exact (h.underway hh).staffed_passTime ih fuel moment

end Session

end Parley
