import Parley.Proofs.Session.Calls

/-!
# What a step does to one call

A step has to do with one fiber at most. Every other keeps its call as it is, and whoever has a turn keeps it and its place
(`Session.Spares`). The fiber that has its turn, or is on a worker and goes on, either stays with its job or its job ends.
-/

namespace Parley

namespace Session

variable {α : Type} {s s' s'' : Session α} {n m : Nat}

/-- From one state to a later one no turn is lost, and the call of a number goes on as it is. -/
structure Spares (n : Nat) (s s' : Session α) : Prop where
  handlers : s'.handlers = s.handlers
  nextFiber : s.nextFiber ≤ s'.nextFiber
  ready : s.ready <+: s'.ready
  call : n < s.nextFiber → ∀ f, s.fibers.find? n = some f → ∃ f', s'.fibers.find? n = some f' ∧ f'.bare = f.bare

namespace Spares

theorem refl (n : Nat) (s : Session α) : Spares n s s := ⟨rfl, Nat.le_refl _, List.prefix_refl _, fun _ f hf => ⟨f, hf, rfl⟩⟩

theorem trans (h : Spares n s s') (h' : Spares n s' s'') : Spares n s s'' := by
  refine ⟨h'.handlers.trans h.handlers, Nat.le_trans h.nextFiber h'.nextFiber, h.ready.trans h'.ready, fun hn f hf => ?_⟩
  obtain ⟨f', hf', hb⟩ := h.call hn f hf
  obtain ⟨f'', hf'', hb'⟩ := h'.call (Nat.lt_of_lt_of_le hn h.nextFiber) f' hf'
  exact ⟨f'', hf'', hb'.trans hb⟩

/-- Where the fiber is the same and no turn is gone. -/
theorem of_find? (hf : n < s.nextFiber → s'.fibers.find? n = s.fibers.find? n) (hh : s'.handlers = s.handlers)
    (hn : s.nextFiber ≤ s'.nextFiber) (hr : s.ready <+: s'.ready) : Spares n s s' :=
  ⟨hh, hn, hr, fun hlt f h => ⟨f, (hf hlt).trans h, rfl⟩⟩

/-- Another fiber is put there. -/
theorem store (hm : m ≠ n) (s : Session α) (f : Fiber α) : Spares n s (s.store m f) :=
  of_find? (fun _ => find?_store_of_ne (Ne.symm hm) s f) rfl (Nat.le_refl _) (List.prefix_refl _)

/-- Another fiber is taken away. -/
theorem without (hm : m ≠ n) (s : Session α) : Spares n s (s.without m) :=
  of_find? (fun _ => find?_without_of_ne (Ne.symm hm) s) rfl (Nat.le_refl _) (List.prefix_refl _)

end Spares

/-- What goes on by itself spares every call. -/
theorem Onward.spares (h : Onward s s') (n : Nat) : Spares n s s' := by
  refine ⟨h.handlers, Nat.le_of_eq h.nextFiber.symm, h.ready, fun _ f hf => ?_⟩
  obtain ⟨f', hf', hb⟩ := mem_calls_iff.mp (h.calls.mem_iff.mpr (mem_calls_iff.mpr ⟨f, hf, rfl⟩))
  exact ⟨f', hf', hb⟩

/-- What becomes of the connection spares every call. -/
theorem spares_reconnect (n : Nat) (s : Session α) (connection : Connection) :
    Spares n s (s.withConnection connection).rouse := by
  have hs : Spares n s (s.withConnection connection) := .of_find? (fun _ => rfl) rfl (Nat.le_refl _) (List.prefix_refl _)
  exact hs.trans ((onward_rouse _).spares n)

/-- A call that begins gets a number of its own. -/
theorem spares_spawn (n : Nat) (s : Session α) (f : Fiber α) : Spares n s (s.spawn f) := by
  have hs : Spares n s { s.store s.nextFiber f with nextFiber := s.nextFiber + 1 } := by
    refine .of_find? (fun hn => ?_) rfl (Nat.le_succ _) (List.prefix_refl _)
    exact find?_store_of_ne (Nat.ne_of_lt hn) s f
  exact hs.trans ((onward_enqueue _ _).spares n)

/-- The outcome of a job that is in no fiber has nothing to do with the fibers. -/
theorem Settled.spares {j : Job} {o : Outcome} (hs : Settled s j o s') (n : Nat) (hh : s.handlers.Lawful) : Spares n s s' := by
  have hb : Spares n s (s.handBack j o).1 := spares_reconnect n s _
  cases hs with
  | last he =>
    rw [he] at hb
    exact hb
  | @done s₁ s₂ next o' he hd =>
    rw [he] at hb
    have hr := (runDirect_onward (hb.handlers ▸ hh) next).spares n
    rw [hd] at hr
    exact hb.trans (hr.trans (spares_reconnect n _ _))
  | @begun s₁ next he hm =>
    rw [he] at hb
    exact hb.trans (spares_spawn n s₁ _)

/-- Another fiber that ends spares a call. -/
theorem Ended.spares {job : Option Job} {o : Outcome} (he : Ended s o job s') (n : Nat) (hh : s.handlers.Lawful) :
    Spares n s s' := by
  cases he with
  | alone => exact .refl n s
  | settled hs => exact hs.spares n hh

/-- Another call ends early. -/
theorem spares_dismiss (hm : m ≠ n) (s : Session α) (f : Fiber α) : Spares n s (s.dismiss m f) := by
  have hg : Spares n s (s.giveBack f) := (onward_giveBack s f).spares n
  unfold dismiss
  split
  · exact hg.trans (.store hm _ _)
  · exact hg.trans (.without hm _)

/-- The turn of another fiber. -/
theorem Driven.spares {f : Fiber α} (hd : Driven s m f s') (hm : m ≠ n) (hh : s.handlers.Lawful) (hf : f.Lawful) :
    Spares n s s' := by
  cases hd with
  | cancelled _ _ he =>
    have hs := spares_dismiss hm s f
    exact hs.trans (he.spares n (hs.handlers ▸ hh))
  | @waits s₁ f' _ hd =>
    have hr := (drive_onward (s := s) hh turnBound m hf).onward.spares n
    rw [hd] at hr
    have hs : Spares n s s₁ := hr.trans (.of_find? (fun _ => rfl) rfl (Nat.le_refl _) (List.prefix_refl _))
    have hp : Spares n s (s₁.store m f') := hs.trans (.store hm _ _)
    exact hp.trans (.of_find? (fun _ => rfl) rfl (Nat.le_refl _) (List.prefix_refl _))
  | @ends s₁ _ o _ hd he =>
    have hr := (drive_onward (s := s) hh turnBound m hf).onward.spares n
    rw [hd] at hr
    have hs : Spares n s s₁ := hr.trans (.of_find? (fun _ => rfl) rfl (Nat.le_refl _) (List.prefix_refl _))
    have hw : Spares n s (s₁.without m) := hs.trans (.without hm _)
    exact hw.trans (he.spares n (hw.handlers ▸ hh))

/-- A payload has nothing to do with the calls in progress, whatever tokens it fires. -/
theorem Handled.spares {payload : Bytes} (hs : Handled s payload s') (hn : s.nextFiber ≠ n) (hh : s.handlers.Lawful) :
    Spares n s s' := by
  have hr (connection : Connection) : Spares n s (s.withConnection connection).rouse := spares_reconnect n s connection
  cases hs with
  | answered he => exact hr _
  | @done connection j s₁ _ o he hd hs =>
    have ho := runDirect_onward ((hr connection).handlers ▸ hh) j
    rw [hd] at ho
    have hs₁ : Spares n s s₁ := (hr connection).trans (ho.spares n)
    exact hs₁.trans (hs.spares n (hs₁.handlers ▸ hh))
  | @begun connection j s₁ _ he hm h₁ hd =>
    have hs₁ : Spares n s s₁ := h₁ ▸ hr connection
    have hl : s₁.handlers.Lawful := hs₁.handlers ▸ hh
    have hne : s₁.nextFiber ≠ n := by
      rw [← h₁, (onward_rouse _).nextFiber]
      exact hn
    have hq : Spares n s₁ { s₁ with nextFiber := s₁.nextFiber + 1 } :=
      .of_find? (fun _ => rfl) rfl (Nat.le_succ _) (List.prefix_refl _)
    exact hs₁.trans (hq.trans (hd.spares hne hl (lawful_fiberOf hl j)))
  | @spawned connection j s₁ he hm h₁ => exact (h₁ ▸ hr connection).trans (spares_spawn n s₁ _)

/-- Another fiber on a worker goes on. -/
theorem Worked.spares (hs : Worked s m s') (hm : m ≠ n) (hl : ∀ f, s.fibers.find? m = some f → f.Lawful) :
    Spares n s s' := by
  have hstore {k : Nat} {s₁ : Session α} {f f' f'' : Fiber α} {moved : Bool} (hf : s.fibers.find? m = some f)
      (hd : s.driveWorker k f false = (s₁, f', moved)) : Spares n s (s₁.store m f'') := by
    have ho := ((labors_of_eq hd).onward (hl f hf)).1
    exact (ho.spares n).trans (.store hm s₁ f'')
  cases hs with
  | @back k s₁ f f' o hf hd hr =>
    have hq : Spares n s { s₁.store m { f' with place := .here } with running := s₁.running.filter (· ≠ m) } :=
      (hstore hf hd).trans (.of_find? (fun _ => rfl) rfl (Nat.le_refl _) (List.prefix_refl _))
    exact hq.trans (((onward_freeWorker _).trans (onward_wake _ m)).spares n)
  | stays hf hd => exact hstore hf hd

/-- A step that uses up no turn spares a fiber, unless it is the one that goes on on its worker. -/
theorem Aside.spares {first : Conversation} (hs : Aside s s') (hf : Follows first [] s) (hn : n < s.nextFiber) :
    Spares n s s' ∨ n ∈ s.running ∧ Worked s n s' := by
  cases hs with
  | onward ho => exact .inl (ho.spares n)
  | worker hm hw =>
    rename_i m
    by_cases he : m = n
    · exact .inr ⟨he ▸ hm, he ▸ hw⟩
    · exact .inl (hw.spares he fun f h => (hf.fiber h).1)
  | receive payload => exact .inl ((handled_receive s payload).spares (Nat.ne_of_gt hn) hf.handlers)
  | begin hr => exact .inl (spares_spawn n s _)

/-- A step that uses up no turn leaves the handlers as they are, and whoever has a turn keeps it and its place. -/
theorem Aside.keeps {first : Conversation} (hs : Aside s s') (hf : Follows first [] s) :
    s'.handlers = s.handlers ∧ s.ready <+: s'.ready := by
  cases hs with
  | onward ho => exact ⟨ho.handlers, ho.ready⟩
  | worker hm hw =>
    rename_i m
    have hsp := hw.spares (Nat.ne_of_lt (Nat.lt_succ_self m)) fun f h => (hf.fiber h).1
    exact ⟨hsp.handlers, hsp.ready⟩
  | receive payload =>
    have hsp := (handled_receive s payload).spares (Nat.ne_of_lt (Nat.lt_succ_self s.nextFiber)) hf.handlers
    exact ⟨hsp.handlers, hsp.ready⟩
  | begin hr => exact ⟨(spares_spawn 0 s _).handlers, (spares_spawn 0 s _).ready⟩

/-- The turn of a fiber leaves the handlers as they are, and whoever else has a turn keeps it and its place. -/
theorem keeps_driveFiber (hh : s.handlers.Lawful) {f : Fiber α} (hf : f.Lawful) :
    (s.driveFiber n f).handlers = s.handlers ∧ s.ready <+: (s.driveFiber n f).ready := by
  have hsp := (driven_driveFiber s n f).spares (Nat.ne_of_lt (Nat.lt_succ_self n)) hh hf
  exact ⟨hsp.handlers, hsp.ready⟩

/-- One step leaves the handlers as they are. -/
theorem Next.handlers {first : Conversation} (hs : Next s s') (hf : Follows first [] s) : s'.handlers = s.handlers := by
  cases hs with
  | aside hs => exact (hs.keeps hf).1
  | pass ha => rfl
  | turn hn hfind => exact (keeps_driveFiber (s := s.taken _) hf.handlers (hf.fiber hfind).1).1

/-- While no turn is used up, whoever has one keeps it and its place. -/
theorem Alongside.ready {first : Conversation} (hs : Alongside s s') (hf : Follows first [] s) : s.ready <+: s'.ready := by
  induction hs with
  | refl => exact List.prefix_refl _
  | tail hl hs ih => exact ih.trans (hs.keeps (hf.later (Alongside.later hl))).2

/-- When an actor has its turn, the others keep theirs and their places. -/
theorem ready_turn {first : Conversation} (hf : Follows first [] s) {a : Actor} (ha : a ∈ s.ready) :
    (s.taken a).ready <+: ((s.taken a).turn a).ready := by
  by_cases hn : ∃ n f, a = .fiber n ∧ s.fibers.find? n = some f
  · obtain ⟨n, f, rfl, hfind⟩ := hn
    have hd := (keeps_driveFiber (n := n) (s := s.taken (.fiber n)) hf.handlers (hf.fiber hfind).1).2
    have hl : Follows first [] ((s.taken (.fiber n)).driveFiber n f) := hf.next (.turn ha hfind)
    exact hd.trans ((alongside_turn_fiber (s := s.taken (.fiber n)) hfind).ready hl)
  · have hn (n : Nat) (he : a = .fiber n) : s.fibers.find? n = none :=
      Option.eq_none_iff_forall_ne_some.mpr fun f hfind => hn ⟨n, f, he, hfind⟩
    exact (alongside_turn (s := s.taken a) hn).ready (hf.next (.pass hn))

/-! ## The fiber that a step has to do with -/

/-- A fiber on a worker goes on there or comes back, with the same job and for the same callers. -/
theorem Worked.call {f : Fiber α} (hs : Worked s n s') (hl : f.Lawful) (hp : f.place = .worker)
    (hf : s.fibers.find? n = some f) :
    ∃ f', s'.fibers.find? n = some f' ∧ f'.job = f.job ∧ f'.callers = f.callers ∧ f'.place ≠ .queued ∧
      f.routine.Leads f'.routine := by
  have hgone {k : Nat} {s₁ : Session α} {f₀ f' : Fiber α} {moved : Bool} (hf₀ : s.fibers.find? n = some f₀)
      (hd : s.driveWorker k f₀ false = (s₁, f', moved)) : f.Advances f' := by
    obtain rfl := Option.some.inj (hf.symm.trans hf₀)
    exact ((labors_of_eq hd).onward hl).2.2
  cases hs with
  | @back k s₁ f₀ f' o hf₀ hd hr =>
    have ha := hgone hf₀ hd
    have ho : Onward { s₁.store n { f' with place := .here } with running := s₁.running.filter (· ≠ n) } _ :=
      (onward_freeWorker _).trans (onward_wake _ n)
    obtain ⟨g, hg, hb⟩ := mem_calls_iff.mp (ho.calls.mem_iff.mpr (mem_calls_iff.mpr ⟨_, find?_store_self _ _ _, rfl⟩))
    have hq : g.place = .here := Fiber.place_of_bare hb
    have hr : g.routine = f'.routine := Fiber.routine_of_bare (f := { f' with place := .here }) hb
    refine ⟨g, hg, (Fiber.job_of_bare hb).trans ha.job, (Fiber.callers_of_bare hb).trans ha.callers, ?_, hr ▸ ha.routine⟩
    simp [hq]
  | @stays k s₁ f₀ f' hf₀ hd =>
    have ha := hgone hf₀ hd
    refine ⟨f', find?_store_self _ _ _, ha.job, ha.callers, ?_, ha.routine⟩
    simp [ha.place, hp]

end Session

end Parley
