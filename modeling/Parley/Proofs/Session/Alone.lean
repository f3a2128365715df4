import Parley.Proofs.Session.Computing

/-!
# Calls that go on by themselves

What a session does for a call alone, when it gives no turn to anyone else: `Session.OwnSteps` are the turns of one call and what it
does on its worker. By steps of its own the call of a request comes to its end (`Session.Finishes`), if its handler only computes or
calls one that does; where this takes a worker, one has to be free that nobody else waits for.
-/

namespace Parley

namespace Session

variable {α : Type} {handlers : Registry (Handler α)} {catalogue : Catalogue} {s s' : Session α} {n : Nat} {f g : Fiber α} {j : Job}
  {id : MessageId} {o o₁ : Outcome} {outcome : Json → Outcome} {b : Handler α}

/-- A session goes on by steps of one call alone: its turns, and what it does on its worker. -/
inductive OwnSteps (n : Nat) : Session α → Session α → Prop
  | none (s : Session α) : OwnSteps n s s
  | turn {s s' : Session α} {f : Fiber α} (hn : .fiber n ∈ s.ready) (hf : s.fibers.find? n = some f)
    (h : OwnSteps n ((s.taken (.fiber n)).driveFiber n f) s') : OwnSteps n s s'
  | worker {s s₁ s' : Session α} (hn : n ∈ s.running) (hw : s.stepWorker n = some s₁) (h : OwnSteps n s₁ s') : OwnSteps n s s'

/-- A fiber's own steps are steps. -/
theorem OwnSteps.later (h : OwnSteps n s s') : Later s s' := by
  induction h with
  | none => exact .refl
  | turn hn hf _ ih => exact .head (.turn hn hf) ih
  | worker hn hw _ ih => exact .head (.aside (.worker hn (worked_of_stepWorker hw))) ih

/-! ## On a worker -/

/-- A body that only computes ends on its worker as soon as it goes on there. -/
theorem driveWorker_brief (hr : f.routine.Brief o) (s : Session α) :
    ∃ s₁, Looks s s₁ ∧ s.driveWorker turnBound f false = (s₁, { f with routine := .done o }, true) := by
  have hb : turnBound = 999998 + 2 := rfl
  rw [hb]
  cases hfr : f.routine with
  | done o' =>
    obtain rfl : o' = o := (hfr ▸ hr).eq_of_done
    refine ⟨s, .refl s, ?_⟩
    obtain ⟨job, call, guarded, place, routine, cs, deadline, granted⟩ := f
    obtain rfl : routine = .done o' := hfr
    rfl
  | act update next =>
    rw [hfr] at hr
    cases hr with
    | pass hu hn =>
      refine ⟨s.rouse, looks_rouse s, ?_⟩
      rw [driveWorker]
      simp only [hfr, hu, hn]
      rfl
  | reply => rw [hfr] at hr; cases hr
  | wait => rw [hfr] at hr; cases hr
  | invoke => rw [hfr] at hr; cases hr

/-- A body that only computes comes back from its worker, which is free again if nobody waits for it. -/
theorem stepWorker_brief (hf : s.fibers.find? n = some f) (hr : f.routine.Brief o) :
    ∃ s₁, Looks s s₁ ∧
      s.stepWorker n = some
        (({ s₁.store n { f with place := .here, routine := .done o } with
            running := s₁.running.filter (· ≠ n) }.freeWorker).wake n) := by
  obtain ⟨s₁, hs₁, hd⟩ := driveWorker_brief hr s
  refine ⟨s₁, hs₁, ?_⟩
  simp only [stepWorker, hf, hd]

/-- Nobody waits for a worker. -/
def NobodyWaits (s : Session α) : Prop := s.firstWaiting Fiber.awaitsWorker = none

theorem nobodyWaits_iff : s.NobodyWaits ↔
    ∀ m ∈ s.parked, ∀ g, s.fibers.find? m = some g → g.place = .queued → g.granted = true := by
  simp only [NobodyWaits, firstWaiting, List.findSome?_eq_none_iff]
  refine forall₂_congr fun m _ => ?_
  cases s.fibers.find? m with
  | none => simp
  | some g =>
    cases hg : g.granted <;> simp [Fiber.awaitsWorker, hg]

/-- If nobody waits for a worker and only one call has changed, which does not wait for one either, nobody waits for a worker. -/
theorem nobodyWaits_of_changed (h : s.NobodyWaits) (hp : ∀ m ∈ s'.parked, m ∈ s.parked ∨ m = n)
    (hf : s'.fibers = s.fibers.insert n f) (hn : f.place ≠ .queued) : s'.NobodyWaits := by
  refine nobodyWaits_iff.mpr fun m hm g hmg hgq => ?_
  rw [hf, Table.find?_insert] at hmg
  by_cases he : m = n
  · rw [if_pos he] at hmg
    exact absurd (Option.some.inj hmg ▸ hgq) hn
  · rw [if_neg he] at hmg
    exact nobodyWaits_iff.mp h m ((hp m hm).resolve_right he) g hmg hgq

/-- A call that waits for a worker goes to a free one at its turn. -/
theorem drive_queued_free (hp : f.place = .queued) (hg : f.granted = false) (hi : 0 < s.idle)
    (ht : s.isFired f.call.token = false) (fuel n : Nat) :
    s.drive (fuel + 1) n f =
      ({ s with running := s.running ++ [n], idle := s.idle - 1 }, .waits { f with place := .worker }) := by
  simp only [drive, node, seat, hp, ht, hg, hi, if_true, Bool.false_eq_true, if_false]

/-- A body that only computes leaves its worker at its first step there, and has a turn. A worker for which nobody waits is free. -/
theorem exists_stepWorker (hf : s.fibers.find? n = some f) (hr : f.routine.Brief o)
    (hw : s.NobodyWaits) :
    ∃ s', s.stepWorker n = some s' ∧ s'.site = s.site ∧ s'.idle = s.idle + 1 ∧
      s'.running = s.running.filter (· ≠ n) ∧ .fiber n ∈ s'.ready ∧
      s'.fibers = s.fibers.insert n { f with place := .here, routine := .done o } := by
  obtain ⟨s₁, hs₁, hstep⟩ := stepWorker_brief hf hr
  obtain ⟨hsite, hfibers, hidle, hrunning, hparked⟩ := hs₁
  obtain ⟨x, hx⟩ : ∃ x : Session α, x = { s₁.store n { f with place := .here, routine := .done o } with
      running := s₁.running.filter (· ≠ n) } := ⟨_, rfl⟩
  have hxf : x.fibers = s.fibers.insert n { f with place := .here, routine := .done o } := by
    rw [hx, ← hfibers]
    rfl
  have hnone : x.NobodyWaits := by
    refine nobodyWaits_of_changed hw (fun m hm => .inl (hparked m ?_)) hxf (by simp)
    rwa [hx] at hm
  unfold NobodyWaits at hnone
  have hfree : x.freeWorker = { x with idle := x.idle + 1 } := by simp only [freeWorker, hnone]
  refine ⟨_, hstep, ?_, ?_, ?_, mem_ready_enqueue _ _, ?_⟩
  all_goals rw [← hx, wake_eq, hfree]
  · rw [← hsite, hx]
    rfl
  · rw [← hidle, hx]
    rfl
  · rw [← hrunning, hx]
  · exact hxf

/-- By itself the call of a request that goes to a free worker at its turn computes there, comes back and finishes. -/
theorem Underway.finishes_offloaded (h : Underway handlers catalogue s) (hf : s.fibers.find? n = some f) (hj : f.job = some j)
    (hd : j.duty.id? = some id) (hr : .fiber n ∈ s.ready) (ht : s.isFired j.token = false) (hp : f.place ≠ .worker)
    (hi : 0 < s.idle) (hw : s.NobodyWaits)
    (hdrive : (s.taken (.fiber n)).drive turnBound n f =
      ({ s.taken (.fiber n) with running := s.running ++ [n], idle := s.idle - 1 }, .waits g))
    (hgp : g.place = .worker) (hgj : g.job = f.job) (hg : g.routine.Brief o₁)
    (he : ∀ t : Session α, ∃ t₁, Looks t t₁ ∧
      t.drive turnBound n { g with place := .here, routine := .done o₁ } = (t₁, .ends o)) :
    ∃ s', OwnSteps n s s' ∧ Finishes n j o s s' := by
  have hgo : (s.taken (.fiber n)).driveFiber n f =
      Session.park { s.taken (.fiber n) with running := s.running ++ [n], idle := s.idle - 1 } n g := by
    rw [driveFiber_of_live (s := s.taken (.fiber n)) (h.orderly.serves n f j hf hj) ht, hdrive]
  -- Three turns: it takes a worker (`s₁`), its body ends there (`s₂`), and back here the request is answered.
  obtain ⟨s₁, hs₁⟩ : ∃ s₁, s₁ = (s.taken (.fiber n)).driveFiber n f := ⟨_, rfl⟩
  have hu₁ : Underway handlers catalogue s₁ := hs₁ ▸ h.next (.turn hr hf)
  have hfibers₁ : s₁.fibers = s.fibers.insert n g := by rw [hs₁, hgo]; rfl
  have hrunning₁ : s₁.running = s.running ++ [n] := by rw [hs₁, hgo]; rfl
  have hg₁ : s₁.fibers.find? n = some g := by rw [hfibers₁, Table.find?_insert, if_pos rfl]
  have hw₁ : s₁.NobodyWaits := by
    refine nobodyWaits_of_changed hw (fun m hm => ?_) hfibers₁ (by simp [hgp])
    rw [hs₁, hgo] at hm
    exact (List.mem_append.mp hm).imp_right List.mem_singleton.mp
  obtain ⟨s₂, hstep, hsite₂, hidle₂, hrunning₂, hr₂, hfibers₂⟩ := exists_stepWorker (o := o₁) hg₁ hg hw₁
  have hn₁ : n ∈ s₁.running := by
    rw [hrunning₁]
    exact List.mem_append_right _ List.mem_cons_self
  have hu₂ : Underway handlers catalogue s₂ := hu₁.next (.aside (.worker hn₁ (worked_of_stepWorker hstep)))
  have hf₂ : s₂.fibers.find? n = some { g with place := .here, routine := .done o₁ } := by
    rw [hfibers₂, Table.find?_insert, if_pos rfl]
  have hsite : s₂.site = s.site := by
    rw [hsite₂, hs₁, hgo]
    rfl
  have hj₂ : g.job = some j := hgj.trans hj
  obtain ⟨t₁, hk, hend⟩ := he (s₂.taken (.fiber n))
  have hfin := finishes_of_ends (hu₂.orderly.serves n _ j hf₂ hj₂) hj₂ hd (by rwa [isFired, hsite]) hk hend
  have hnot : s.running.filter (· ≠ n) = s.running := by
    refine List.filter_eq_self.mpr fun m hm => decide_eq_true fun he => ?_
    exact hp ((h.orderly.crew m hm).2 f (he ▸ hf))
  refine ⟨(s₂.taken (.fiber n)).driveFiber n { g with place := .here, routine := .done o₁ }, ?_, ?_, ?_, ?_, ?_⟩
  · refine .turn hr hf ?_
    rw [← hs₁]
    exact .worker hn₁ hstep (.turn hr₂ hf₂ (.none _))
  · rw [hfin.site, hsite]
  · rw [hfin.fibers, hfibers₂, hfibers₁, Table.erase_insert, Table.erase_insert]
  · rw [hfin.idle, hidle₂, hs₁, hgo]
    simp only [Session.park, store]
    omega
  · rw [hfin.running, hrunning₂, hrunning₁, List.filter_append, hnot]
    simp

/-- By itself a call that only computes finishes, if a worker is free where it needs one. -/
theorem Underway.finishes_computing (h : Underway handlers catalogue s) (hf : s.fibers.find? n = some f) (hj : f.job = some j)
    (hd : j.duty.id? = some id) (hr : .fiber n ∈ s.ready) (ht : s.isFired j.token = false) (hc : f.Computes o [])
    (hp : f.place = .here ∨ f.place = .queued ∧ f.granted = false ∧ 0 < s.idle ∧ s.NobodyWaits) :
    ∃ s', OwnSteps n s s' ∧ Finishes n j o s s' := by
  have hserves := h.orderly.serves n f j hf hj
  rcases hp with hp | ⟨hp, hg, hi, hw⟩
  · obtain ⟨s₁, hk, hdrive⟩ := drive_ends hc hp (s.taken (.fiber n)) n
    exact ⟨_, .turn hr hf (.none _), finishes_of_ends hserves hj hd ht hk hdrive⟩
  · have hdrive := drive_queued_free (s := s.taken (.fiber n)) hp hg hi (hserves.token ▸ ht) 999999 n
    refine h.finishes_offloaded hf hj hd hr ht (by simp [hp]) hi hw hdrive rfl rfl hc.routine fun t => ⟨t, .refl t, ?_⟩
    exact drive_done (f := { f with place := .here, routine := .done o }) rfl rfl hc.callers t 999999 n

/-- By itself a call of a handler that calls one that only computes, and ends with what it makes of that, finishes, if a worker is
free where the other one needs one. -/
theorem Underway.finishes_relaying (h : Underway handlers catalogue s) (hf : s.fibers.find? n = some f) (hj : f.job = some j)
    (hd : j.duty.id? = some id) (hr : .fiber n ∈ s.ready) (ht : s.isFired j.token = false) (hp : f.place = .here)
    (hg : f.granted = false) {name : String} {params : Json} {next : Option Outcome → Routine α}
    (hrt : f.routine = .invoke name params next) (hcl : f.callers = []) (hb : handlers.find? .user name = some b)
    (hc : b.Computes outcome) (ho : next (some (outcome params)) = .done o)
    (hi : b.mode = .threaded → 0 < s.idle ∧ s.NobodyWaits) : ∃ s', OwnSteps n s s' ∧ Finishes n j o s s' := by
  have hserves := h.orderly.serves n f j hf hj
  have hb : (s.taken (.fiber n)).handlers.find? .user name = some b := by
    rw [← h.handlers] at hb
    exact hb
  by_cases hm : b.mode = .threaded
  · obtain ⟨g, hd₁, hgj, hgc, -, hgg, hgp, hgr⟩ := drive_invoke_threaded hp hrt hb hc hm 999999 n
    have hgt : (s.taken (.fiber n)).isFired g.call.token = false := by
      rw [hgc, hserves.token]
      exact ht
    have hd₂ := drive_queued_free (s := s.taken (.fiber n)) hgp (hgg.trans hg) (hi hm).1 hgt 999998 n
    refine h.finishes_offloaded hf hj hd hr ht (by simp [hp]) (hi hm).1 (hi hm).2 (hd₁.trans hd₂) rfl hgj hgr.routine
      fun t => ⟨t, .refl t, ?_⟩
    -- Back from the worker, the handler goes on with the outcome, and ends.
    have hb : turnBound = 999999 + 1 := rfl
    rw [hb, drive]
    simp only [node, hgr.callers, hcl, ho]
    exact drive_done rfl rfl rfl t 999998 n
  · obtain ⟨s₁, rest, hk, hle, hd₁⟩ := drive_invoke_here hp hrt hb hc hm 999997 n
    obtain ⟨r, rfl⟩ : ∃ r, rest = r + 1 := ⟨rest - 1, by omega⟩
    have hd₂ := drive_done (f := { f with routine := next (some (outcome params)) }) hp ho hcl s₁ r n
    exact ⟨_, .turn hr hf (.none _), finishes_of_ends hserves hj hd ht hk (hd₁.trans hd₂)⟩

end Session

end Parley
