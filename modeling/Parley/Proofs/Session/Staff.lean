import Parley.Proofs.Session.Replies

/-!
# Workers and turns

A session has as many workers as it was made with: each of them is free, or it is a call's, which is on it or is about to go
there. The rows are in order too: who waits has no turn, nobody has two, and who was given a worker has a turn to go to it. All of
this is `Session.Staffed`, to which the operations of a session keep, up to the turn of a fiber (`Session.InHand.drive`).

A fiber that has its turn is in nobody's row, and what the table says of it is out of date until the turn is over. It is set aside
meanwhile, and the worker that it has is counted apart.
-/

namespace Parley

variable {α : Type}

namespace Fiber

/-- The call has a worker: it is on it, or was given it and is about to go there. -/
def hasWorker (f : Fiber α) : Bool := f.place = .worker || f.place = .queued && f.granted

/-- How many workers the call has. -/
def load (f : Fiber α) : Nat := f.hasWorker.toNat

/-- What was given to a fiber is something that it waits for, and a moment that it waits for belongs to a wait for the time. -/
structure Tidy (f : Fiber α) : Prop where
  granted : f.granted = true → f.place = .queued ∨ ∃ w next, f.routine = .wait w next
  deadline : f.deadline ≠ none → f.place ≠ .queued ∧ ∃ ms next, f.routine = .wait (.time ms) next

variable {f : Fiber α}

/-- A fiber that was given nothing and waits for no moment. -/
theorem tidy_of_plain (hg : f.granted = false) (hd : f.deadline = none) : f.Tidy :=
  ⟨fun h => absurd (hg.symm.trans h) Bool.false_ne_true, fun h => absurd hd h⟩

/-- A fiber that is here and does not wait was given nothing. -/
theorem Tidy.plain (h : f.Tidy) (hp : f.place ≠ .queued) (hr : ∀ w next, f.routine ≠ .wait w next) :
    f.granted = false ∧ f.deadline = none := by
  constructor
  · refine Bool.eq_false_iff.mpr fun hg => ?_
    rcases h.granted hg with hq | ⟨w, next, hw⟩
    · exact hp hq
    · exact hr w next hw
  · refine Classical.byContradiction fun hd => ?_
    obtain ⟨-, ms, next, hw⟩ := h.deadline hd
    exact hr _ next hw

/-- The fiber may go on with another routine once it is given nothing more. -/
theorem Tidy.goesOn (h : f.Tidy) (hp : f.place ≠ .queued) (hr : ∀ w next, f.routine ≠ .wait w next) {f' : Fiber α}
    (hg : f'.granted = f.granted) (hd : f'.deadline = f.deadline) : f'.Tidy := by
  obtain ⟨hg', hd'⟩ := h.plain hp hr
  exact tidy_of_plain (hg.trans hg') (hd.trans hd')

/-- A call that is here has no worker. -/
theorem load_of_here (h : f.place = .here) : f.load = 0 := by simp [load, hasWorker, h]

/-- A call on a worker has one. -/
theorem load_of_worker (h : f.place = .worker) : f.load = 1 := by simp [load, hasWorker, h]

/-- Only to one who waits for a worker a worker is given. -/
theorem load_granted (h : f.place ≠ .queued) : load { f with granted := true } = f.load := by simp [load, hasWorker, h]

/-- A call that waits for a worker has one just if it was given one. -/
theorem load_of_queued (h : f.place = .queued) : f.load = f.granted.toNat := by simp [load, hasWorker, h]

end Fiber

namespace Session

variable {handlers : Registry (Handler α)} {catalogue : Catalogue} {s s' : Session α} {aside : Option Nat} {k k' n : Nat}
  {f f' : Fiber α}

/-- To give a turn is to change the rows. -/
theorem wake_eq (s : Session α) (n : Nat) : s.wake n = { s with ready := (s.wake n).ready, parked := (s.wake n).parked } := by
  unfold wake enqueue
  split <;> rfl

theorem grant_eq (s : Session α) (n : Nat) (f : Fiber α) :
    s.grant n f = { s.store n { f with granted := true } with ready := (s.grant n f).ready, parked := (s.grant n f).parked } :=
  wake_eq _ n

theorem foldl_wake_eq (ns : List Nat) (s : Session α) :
    ns.foldl wake s = { s with ready := (ns.foldl wake s).ready, parked := (ns.foldl wake s).parked } := by
  induction ns generalizing s with
  | nil => rfl
  | cons n ns ih =>
    rw [List.foldl_cons, ih (s.wake n), wake_eq]

theorem enqueue_eq (s : Session α) (a : Actor) : s.enqueue a = { s with ready := (s.enqueue a).ready } := by
  unfold enqueue
  split <;> rfl

/-- To look at those that wait is to change the rows. -/
theorem rouse_eq (s : Session α) : s.rouse = { s with ready := s.rouse.ready, parked := s.rouse.parked } := by
  unfold rouse
  extract_lets able s₁ s₂
  have h₁ : s₁ = { s with ready := s₁.ready, parked := s₁.parked } := foldl_wake_eq able s
  have h₂ : s₂ = { s with ready := s₂.ready, parked := s₂.parked } := by
    simp only [s₂]
    split
    · rw [enqueue_eq, h₁]
    · exact h₁
  split
  · rw [enqueue_eq, h₂]
  · exact h₂

theorem fibers_rouse (s : Session α) : s.rouse.fibers = s.fibers := by rw [rouse_eq]

theorem running_rouse (s : Session α) : s.rouse.running = s.running := by rw [rouse_eq]

theorem idle_rouse (s : Session α) : s.rouse.idle = s.idle := by rw [rouse_eq]

/-- How many workers the calls have that are not set aside. -/
def engaged (aside : Option Nat) (s : Session α) : Nat := s.fibers.entries.countP fun e => aside ≠ some e.1 && e.2.hasWorker

/-- The workers and the rows are in order, but for a fiber that is set aside; so many workers are counted apart. -/
structure Staffed (aside : Option Nat) (apart : Nat) (s : Session α) : Prop where
  /-- Nobody has two turns. -/
  once : s.ready.Nodup
  /-- Who waits has no turn. -/
  waits : ∀ n ∈ s.parked, .fiber n ∉ s.ready
  parked : ∀ n ∈ s.parked, n < s.nextFiber
  ready : ∀ n, .fiber n ∈ s.ready → n < s.nextFiber
  numbered : ∀ n f, s.fibers.find? n = some f → n < s.nextFiber
  /-- Who is set aside is in no row. -/
  away : ∀ n, aside = some n → n ∉ s.parked ∧ .fiber n ∉ s.ready ∧ n < s.nextFiber
  tidy : ∀ n f, aside ≠ some n → s.fibers.find? n = some f → f.Tidy
  /-- Who is on a worker is among those that are. -/
  manned : ∀ n f, aside ≠ some n → s.fibers.find? n = some f → f.place = .worker → n ∈ s.running
  /-- Who was given a worker has a turn. -/
  handed : ∀ n f, aside ≠ some n → s.fibers.find? n = some f → f.place = .queued → f.granted = true → .fiber n ∈ s.ready
  /-- No worker is lost, and none is two calls'. -/
  workers : s.idle + s.engaged aside + apart = s.workers

namespace Staffed

/-- What is neither a fiber nor a row nor a worker may differ. -/
theorem of_eq (h : Staffed aside k s) (hf : s'.fibers = s.fibers) (hn : s'.nextFiber = s.nextFiber) (hr : s'.ready = s.ready)
    (hp : s'.parked = s.parked) (hw : s'.running = s.running) (hi : s'.idle = s.idle) (hs : s'.workers = s.workers) :
    Staffed aside k s' := by
  obtain ⟨h₁, h₂, h₃, h₄, h₅, h₆, h₇, h₈, h₉, h₁₀⟩ := h
  refine ⟨hr ▸ h₁, ?_, ?_, ?_, ?_, ?_, ?_, ?_, ?_, ?_⟩
  all_goals simp only [engaged, hf, hn, hr, hp, hw, hi, hs] at *
  all_goals assumption

/-- An actor gets a turn, if it is no fiber that waits. -/
theorem enqueue (h : Staffed aside k s) {a : Actor}
    (ha : ∀ n, a = .fiber n → n < s.nextFiber ∧ n ∉ s.parked ∧ aside ≠ some n) : Staffed aside k (s.enqueue a) := by
  unfold Session.enqueue
  split
  · exact h
  · rename_i hc
    have hc : a ∉ s.ready := fun hm => hc (List.contains_iff_mem.mpr hm)
    have hmem {n : Nat} (hn : .fiber n ∈ s.ready ++ [a]) : .fiber n ∈ s.ready ∨ a = .fiber n := by
      rcases List.mem_append.mp hn with hn | hn
      · exact .inl hn
      · exact .inr (List.mem_singleton.mp hn).symm
    refine ⟨?_, fun n hp hn => ?_, h.parked, fun n hn => ?_, h.numbered, fun n hn => ?_, h.tidy, h.manned,
      fun n f hn hf hp hg => List.mem_append_left _ (h.handed n f hn hf hp hg), h.workers⟩
    · refine List.nodup_append.mpr ⟨h.once, by simp, fun b hb c hc' hbc => hc ?_⟩
      rw [← List.mem_singleton.mp hc', ← hbc]
      exact hb
    · rcases hmem hn with hn | rfl
      · exact h.waits n hp hn
      · exact (ha n rfl).2.1 hp
    · rcases hmem hn with hn | rfl
      · exact h.ready n hn
      · exact (ha n rfl).1
    · obtain ⟨hp, hr, hl⟩ := h.away n hn
      refine ⟨hp, fun hm => ?_, hl⟩
      rcases hmem hm with hm | rfl
      · exact hr hm
      · exact (ha n rfl).2.2 hn

/-- A fiber that waits gets a turn. -/
theorem wake (h : Staffed aside k s) (hn : n < s.nextFiber) (ha : aside ≠ some n) : Staffed aside k (s.wake n) := by
  have hp : Staffed aside k { s with parked := s.parked.filter (· ≠ n) } :=
    ⟨h.once, fun m hm => h.waits m (List.mem_filter.mp hm).1, fun m hm => h.parked m (List.mem_filter.mp hm).1, h.ready,
      h.numbered, fun m hm => ⟨fun hf => (h.away m hm).1 (List.mem_filter.mp hf).1, (h.away m hm).2⟩, h.tidy, h.manned,
      h.handed, h.workers⟩
  refine hp.enqueue fun m hm => ?_
  obtain rfl := Actor.fiber.inj hm
  exact ⟨hn, by simp, ha⟩

/-- Whoever is woken, workers are where they were. -/
theorem foldl_wake {ns : List Nat} (h : Staffed aside k s) (hn : ∀ n ∈ ns, n < s.nextFiber ∧ aside ≠ some n) :
    Staffed aside k (ns.foldl Session.wake s) := by
  induction ns generalizing s with
  | nil => exact h
  | cons n ns ih =>
    have hw := h.wake (hn n List.mem_cons_self).1 (hn n List.mem_cons_self).2
    refine ih hw fun m hm => ?_
    rw [(onward_wake s n).nextFiber]
    exact hn m (List.mem_cons_of_mem _ hm)

/-- Those that wait are looked at. -/
theorem rouse (h : Staffed aside k s) : Staffed aside k s.rouse := by
  unfold Session.rouse
  extract_lets able s₁ s₂
  have h₁ : Staffed aside k s₁ := h.foldl_wake fun n hn => by
    have hp := (List.mem_filter.mp hn).1
    exact ⟨h.parked n hp, fun ha => (h.away n ha).1 hp⟩
  have h₂ : Staffed aside k s₂ := by
    simp only [s₂]
    split
    · exact h₁.enqueue fun n hn => by cases hn
    · exact h₁
  split
  · exact h₂.enqueue fun n hn => by cases hn
  · exact h₂

end Staffed

/-! ## Fibers that come and go -/

/-- The workers of the calls without one. -/
theorem engaged_without (ha : aside ≠ some n) (hf : s.fibers.find? n = some f) :
    s.engaged aside = f.load + (s.without n).engaged aside := by
  have hp := (Table.entries_perm_erase hf).countP_eq fun e => aside ≠ some e.1 && e.2.hasWorker
  rw [engaged, hp, List.countP_cons, engaged, without, Nat.add_comm]
  cases hw : f.hasWorker <;> simp [Fiber.load, hw, ha]

/-- A fiber that is put back has its worker with it. -/
theorem engaged_store (ha : aside ≠ some n) : (s.store n f).engaged aside = (s.without n).engaged aside + f.load := by
  rw [engaged, store, Table.insert, List.countP_append, engaged, without]
  cases hw : f.hasWorker <;> simp [Fiber.load, hw, ha]

/-- What is set aside does not count. -/
theorem engaged_aside (s : Session α) (n : Nat) : s.engaged (some n) = (s.without n).engaged none := by
  simp only [engaged, without, Table.erase, List.countP_filter]
  refine List.countP_congr fun e _ => ?_
  by_cases he : e.1 = n <;> simp [he, Ne.symm]

namespace Staffed

/-- A fiber is put in the place of another one that has as many workers, if it is in order by itself. -/
theorem replace (h : Staffed aside k s) (hf : s.fibers.find? n = some f) (ha : aside ≠ some n) (hk : k' + f'.load = k + f.load)
    (ht : f'.Tidy) (hm : f'.place = .worker → n ∈ s.running) (hd : f'.place = .queued → f'.granted = true → .fiber n ∈ s.ready) :
    Staffed aside k' (s.store n f') := by
  have hold {m : Nat} {g : Fiber α} (hg : (s.store n f').fibers.find? m = some g) :
      m = n ∧ g = f' ∨ s.fibers.find? m = some g :=
    (find?_of_store hg).imp_right find?_of_without
  refine ⟨h.once, h.waits, h.parked, h.ready, fun m g hg => ?_, h.away, fun m g hm' hg => ?_, fun m g hm' hg hp => ?_,
    fun m g hm' hg hp hgr => ?_, ?_⟩
  · rcases hold hg with ⟨rfl, rfl⟩ | hg
    · exact h.numbered _ f hf
    · exact h.numbered m g hg
  · rcases hold hg with ⟨rfl, rfl⟩ | hg
    · exact ht
    · exact h.tidy m g hm' hg
  · rcases hold hg with ⟨rfl, rfl⟩ | hg
    · exact hm hp
    · exact h.manned m g hm' hg hp
  · rcases hold hg with ⟨rfl, rfl⟩ | hg
    · exact hd hp hgr
    · exact h.handed m g hm' hg hp hgr
  · have hw := h.workers
    rw [engaged_without ha hf] at hw
    rw [engaged_store ha]
    simp only [store] at hw ⊢
    omega

/-- A fiber that waits is given what it waits for, which may be a worker. -/
theorem grant (h : Staffed aside k s) (hf : s.fibers.find? n = some f) (ha : aside ≠ some n)
    (hk : k' + Fiber.load { f with granted := true } = k + f.load)
    (hw : f.place = .queued ∨ ∃ w next, f.routine = .wait w next) : Staffed aside k' (s.grant n f) := by
  -- The turn comes first: a fiber that has a worker must have one.
  have hn := h.numbered n f hf
  have ht := h.wake hn ha
  have hfw : (s.wake n).fibers = s.fibers := by rw [wake_eq]
  have hg : Staffed aside k' ((s.wake n).store n { f with granted := true }) :=
    ht.replace (hfw ▸ hf) ha hk ⟨fun _ => hw, (h.tidy n f ha hf).deadline⟩
      (fun hp => ht.manned n f ha (hfw ▸ hf) hp) fun _ _ => mem_ready_enqueue _ _
  have he : (s.wake n).store n { f with granted := true } = s.grant n f := by
    unfold Session.grant Session.wake Session.enqueue store
    split <;> rfl
  exact he ▸ hg

end Staffed

/-- The first fiber that waits for something waits for it, and was not given it. -/
theorem firstWaiting_eq_some {waits : Fiber α → Bool} (h : s.firstWaiting waits = some (n, f)) :
    n ∈ s.parked ∧ s.fibers.find? n = some f ∧ waits f = true ∧ f.granted = false := by
  obtain ⟨m, hm, he⟩ := List.exists_of_findSome?_eq_some h
  split at he
  · rename_i g hg
    split at he
    · rename_i hw
      obtain ⟨rfl, rfl⟩ := Prod.mk.inj (Option.some.inj he)
      simp only [Bool.and_eq_true, Bool.not_eq_true'] at hw
      exact ⟨hm, hg, hw⟩
    · cases he
  · cases he

namespace Staffed

/-- A worker that was counted apart is free, or somebody's. -/
theorem freeWorker (h : Staffed aside (k + 1) s) : Staffed aside k s.freeWorker := by
  unfold Session.freeWorker
  split
  · rename_i n f hw
    obtain ⟨hp, hf, hq, hg⟩ := firstWaiting_eq_some hw
    have hq : f.place = .queued := by simpa [Fiber.awaitsWorker] using hq
    refine h.grant hf (fun ha => (h.away n ha).1 hp) ?_ (.inl hq)
    rw [Fiber.load_of_queued hq, Fiber.load_of_queued (f := { f with granted := true }) hq, hg]
    rfl
  · refine ⟨h.once, h.waits, h.parked, h.ready, h.numbered, h.away, h.tidy, h.manned, h.handed, ?_⟩
    have hw := h.workers
    simp only [engaged] at hw ⊢
    omega

/-- A permit of a gate is no worker. -/
theorem addPermit (h : Staffed aside k s) (gate : String) : Staffed aside k (s.addPermit gate) := by
  unfold Session.addPermit
  split
  · rename_i n f hw
    obtain ⟨hp, hf, hq, hg⟩ := firstWaiting_eq_some hw
    obtain ⟨hpl, hr⟩ : f.place = .here ∧ ∃ w next, f.routine = .wait w next := by
      unfold Fiber.awaitsPermit at hq
      split at hq
      · rename_i hpl hr
        exact ⟨hpl, _, _, hr⟩
      · cases hq
    refine h.grant hf (fun ha => (h.away n ha).1 hp) ?_ (.inr hr)
    rw [Fiber.load_granted (by simp [hpl])]
  · exact h.of_eq rfl rfl rfl rfl rfl rfl rfl

/-- A fiber that is no more leaves nothing behind, unless it is on a worker. -/
theorem giveBack (h : Staffed aside f.load s) (hp : f.place ≠ .worker) : Staffed aside 0 (s.giveBack f) := by
  unfold Session.giveBack
  split
  · rename_i hg
    split
    · rename_i hq
      rw [Fiber.load_of_queued hq, hg] at h
      exact h.freeWorker
    · rename_i hh _
      rw [Fiber.load_of_here hh] at h
      exact h.addPermit _
    · rename_i hq _
      have hh : f.place = .here := by
        cases hpl : f.place with
        | here => rfl
        | queued => exact (hq hpl).elim
        | worker => exact absurd hpl hp
      rwa [Fiber.load_of_here hh] at h
  · rename_i hg
    have hl : f.load = 0 := by
      cases hpl : f.place with
      | here => exact Fiber.load_of_here hpl
      | queued => simp [Fiber.load_of_queued hpl, Bool.not_eq_true _ ▸ hg]
      | worker => exact absurd hpl hp
    rwa [hl] at h

/-- Nor is one that is taken. -/
theorem pass? (h : Staffed aside k s) {w : Wait} (hp : s.pass? f w = some s') : Staffed aside k s' := by
  obtain ⟨gates, rfl⟩ := exists_of_pass? hp
  exact h.of_eq rfl rfl rfl rfl rfl rfl rfl

end Staffed

/-! ## The fiber that has its turn -/

/-- A fiber has its turn: all but it is in order, and so is what is in hand. -/
structure InHand (n : Nat) (f : Fiber α) (s : Session α) : Prop where
  staffed : Staffed (some n) f.load s
  tidy : f.Tidy
  manned : f.place = .worker → n ∈ s.running

namespace Staffed

/-- What goes on here needs no worker. -/
theorem inHand_here (h : Staffed (some n) 0 s) (hp : f.place = .here) (ht : f.Tidy) : InHand n f s := by
  refine ⟨?_, ht, ?_⟩
  · rwa [Fiber.load_of_here hp]
  · intro hw
    rw [hp] at hw
    cases hw

/-- A free worker is taken. -/
theorem hire (h : Staffed aside k s) (hi : 0 < s.idle) : Staffed aside (k + 1) { s with idle := s.idle - 1 } := by
  refine ⟨h.once, h.waits, h.parked, h.ready, h.numbered, h.away, h.tidy, h.manned, h.handed, ?_⟩
  have hw := h.workers
  simp only [engaged] at hw ⊢
  omega

/-- A fiber goes to the worker that it has. -/
theorem toWork (h : Staffed (some n) 1 s) (hp : f.place = .worker) (ht : f.Tidy) :
    InHand n f { s with running := s.running ++ [n] } := by
  refine ⟨⟨h.once, h.waits, h.parked, h.ready, h.numbered, h.away, h.tidy, ?_, h.handed, ?_⟩, ht, ?_⟩
  · intro m g hne hg hm
    exact List.mem_append_left _ (h.manned m g hne hg hm)
  · rw [Fiber.load_of_worker hp]
    exact h.workers
  · intro _
    exact List.mem_append_right _ (List.mem_singleton_self n)

/-- A fiber uses up its turn and is set aside. -/
theorem taken (h : Staffed none 0 s) (hn : .fiber n ∈ s.ready) (hf : s.fibers.find? n = some f) :
    InHand n f (s.taken (.fiber n)) := by
  have hr (m : Nat) (hm : .fiber m ∈ (s.taken (.fiber n)).ready) : .fiber m ∈ s.ready := List.mem_of_mem_erase hm
  refine ⟨⟨h.once.erase _, fun m hp hm => h.waits m hp (hr m hm), h.parked, fun m hm => h.ready m (hr m hm), h.numbered,
    fun m hm => ?_, fun m g _ => h.tidy m g nofun, fun m g _ => h.manned m g nofun, fun m g hm hg hp hgr => ?_, ?_⟩,
    h.tidy n f nofun hf, h.manned n f nofun hf⟩
  · obtain rfl := Option.some.inj hm
    exact ⟨fun hp => h.waits n hp hn, h.once.not_mem_erase, h.ready n hn⟩
  · have hne : Actor.fiber m ≠ .fiber n := fun he => hm (by rw [Actor.fiber.inj he])
    exact (List.mem_erase_of_ne hne).mpr (h.handed m g nofun hg hp hgr)
  · have hw := h.workers
    rw [engaged_without (by simp) hf, ← engaged_aside] at hw
    have he : (s.taken (.fiber n)).engaged (some n) = s.engaged (some n) := rfl
    rw [he]
    simp only [Session.taken]
    omega

/-- An actor that is no fiber, or none any more, uses up its turn. -/
theorem pass (h : Staffed none 0 s) {a : Actor} (ha : ∀ n, a = .fiber n → s.fibers.find? n = none) :
    Staffed none 0 (s.taken a) := by
  have hr (m : Nat) (hm : .fiber m ∈ (s.taken a).ready) : .fiber m ∈ s.ready := List.mem_of_mem_erase hm
  refine ⟨h.once.erase _, fun m hp hm => h.waits m hp (hr m hm), h.parked, fun m hm => h.ready m (hr m hm), h.numbered,
    nofun, h.tidy, h.manned, fun m g hm hg hp hgr => ?_, h.workers⟩
  have hg : s.fibers.find? m = some g := hg
  have hne : Actor.fiber m ≠ a := fun he => by
    rw [ha m he.symm] at hg
    cases hg
  exact (List.mem_erase_of_ne hne).mpr (h.handed m g hm hg hp hgr)

/-- A fiber that was set aside is gone. -/
theorem dropped (h : Staffed (some n) 0 s) : Staffed none 0 (s.without n) := by
  have hne {m : Nat} {g : Fiber α} (hg : (s.without n).fibers.find? m = some g) : some n ≠ some m := fun he => by
    rw [← Option.some.inj he, find?_without_self] at hg
    cases hg
  refine ⟨h.once, h.waits, h.parked, h.ready, fun m g hg => h.numbered m g (find?_of_without hg), nofun,
    fun m g _ hg => h.tidy m g (hne hg) (find?_of_without hg), fun m g _ hg => h.manned m g (hne hg) (find?_of_without hg),
    fun m g _ hg => h.handed m g (hne hg) (find?_of_without hg), ?_⟩
  have hw := h.workers
  rwa [engaged_aside] at hw

/-- A fiber that was set aside comes back. -/
theorem put (h : InHand n f s) (hd : f.place = .queued → f.granted = false) : Staffed none 0 (s.store n f) := by
  obtain ⟨h, ht, hm⟩ := h
  have hold {m : Nat} {g : Fiber α} (hg : (s.store n f).fibers.find? m = some g) :
      m = n ∧ g = f ∨ some n ≠ some m ∧ s.fibers.find? m = some g := by
    by_cases he : m = n
    · rw [he, find?_store_self] at hg
      exact .inl ⟨he, (Option.some.inj hg).symm⟩
    · rw [find?_store_of_ne he] at hg
      exact .inr ⟨fun hs => he (Option.some.inj hs).symm, hg⟩
  refine ⟨h.once, h.waits, h.parked, h.ready, fun m g hg => ?_, nofun, fun m g _ hg => ?_, fun m g _ hg hp => ?_,
    fun m g _ hg hp hgr => ?_, ?_⟩
  · rcases hold hg with ⟨rfl, rfl⟩ | ⟨-, hg⟩
    · exact (h.away _ rfl).2.2
    · exact h.numbered m g hg
  · rcases hold hg with ⟨rfl, rfl⟩ | ⟨hne, hg⟩
    · exact ht
    · exact h.tidy m g hne hg
  · rcases hold hg with ⟨rfl, rfl⟩ | ⟨hne, hg⟩
    · exact hm hp
    · exact h.manned m g hne hg hp
  · rcases hold hg with ⟨rfl, rfl⟩ | ⟨hne, hg⟩
    · rw [hd hp] at hgr
      cases hgr
    · exact h.handed m g hne hg hp hgr
  · have hw := h.workers
    rw [engaged_aside] at hw
    rw [engaged_store (by simp)]
    simp only [store] at hw ⊢
    omega

/-- A fiber that was set aside waits. -/
theorem park (h : InHand n f s) (hd : f.place = .queued → f.granted = false) : Staffed none 0 (s.park n f) := by
  have hp := put h hd
  obtain ⟨-, hr, hn⟩ := h.staffed.away n rfl
  refine ⟨hp.once, fun m hm => ?_, fun m hm => ?_, hp.ready, hp.numbered, nofun, hp.tidy, hp.manned, hp.handed, hp.workers⟩
  · rcases List.mem_append.mp hm with hm | hm
    · exact hp.waits m hm
    · exact List.mem_singleton.mp hm ▸ hr
  · rcases List.mem_append.mp hm with hm | hm
    · exact hp.parked m hm
    · exact List.mem_singleton.mp hm ▸ hn

/-- The number of the next fiber is used up, for a fiber that has nothing yet. -/
theorem fresh (h : Staffed none 0 s) (hl : f.place ≠ .worker) (hg : f.granted = false) (hd : f.deadline = none) :
    InHand s.nextFiber f { s with nextFiber := s.nextFiber + 1 } := by
  have hfree : s.fibers.find? s.nextFiber = none :=
    Option.eq_none_iff_forall_ne_some.mpr fun f hf => Nat.lt_irrefl _ (h.numbered _ f hf)
  have hload : f.load = 0 := by
    cases hp : f.place with
    | here => exact Fiber.load_of_here hp
    | queued => simp [Fiber.load_of_queued hp, hg]
    | worker => exact absurd hp hl
  refine ⟨⟨h.once, h.waits, fun m hm => Nat.lt_succ_of_lt (h.parked m hm), fun m hm => Nat.lt_succ_of_lt (h.ready m hm),
    fun m g hg => Nat.lt_succ_of_lt (h.numbered m g hg), fun m hm => ?_, fun m g _ => h.tidy m g nofun,
    fun m g _ => h.manned m g nofun, fun m g _ => h.handed m g nofun, ?_⟩, Fiber.tidy_of_plain hg hd, fun hp => absurd hp hl⟩
  · obtain rfl := Option.some.inj hm
    exact ⟨fun hp => Nat.lt_irrefl _ (h.parked _ hp), fun hr => Nat.lt_irrefl _ (h.ready _ hr), Nat.lt_succ_self _⟩
  · have hw := h.workers
    rw [hload, engaged_aside]
    have he : ({ s with nextFiber := s.nextFiber + 1 }.without s.nextFiber).engaged none = s.engaged none := by
      simp only [engaged, without, Table.erase_of_find?_eq_none hfree]
    rw [he]
    exact hw

/-- A call begins. -/
theorem spawn (h : Staffed none 0 s) (hl : f.place ≠ .worker) (hg : f.granted = false) (hd : f.deadline = none) :
    Staffed none 0 (s.spawn f) := by
  have hp := put (h.fresh hl hg hd) fun _ => hg
  refine hp.enqueue (a := .fiber s.nextFiber) fun m hm => ?_
  obtain rfl := Actor.fiber.inj hm
  exact ⟨Nat.lt_succ_self _, fun hm => Nat.lt_irrefl _ (h.parked _ hm), nofun⟩

/-- The fiber of a job has nothing yet. -/
theorem spawn_fiberOf (h : Staffed none 0 s) (s' : Session α) (j : Job) : Staffed none 0 (s.spawn (s'.fiberOf j)) :=
  h.spawn (by simp only [fiberOf]; split <;> simp) rfl rfl

end Staffed

/-- A fiber that begins to wait is in order by itself. -/
theorem tidy_timed (ht : f.Tidy) (hn : f.place ≠ .queued) : (s.timed f).Tidy := by
  unfold Session.timed
  split
  · rename_i hr
    exact ⟨ht.granted, fun _ => ⟨hn, _, _, hr⟩⟩
  · exact ht

/-- What is in order when a turn is over. -/
def Pause.Staffs (n : Nat) (s : Session α) : Pause α → Prop
  | .waits f => InHand n f s ∧ (f.place = .queued → f.granted = false)
  | .ends _ => Staffed (some n) 0 s

/-- What is in order behind a node. -/
def Progress.Staffs (n : Nat) (s : Session α) : Progress α → Prop
  | .goesOn f => InHand n f s ∧ (f.place = .queued → f.granted = false)
  | .pauses p => p.Staffs n s

/-- A node keeps order. -/
theorem Node.staffs {p : Progress α} (hn : Node s n f s' p) (h : InHand n f s) : p.Staffs n s' := by
  obtain ⟨hs, ht, hm⟩ := h
  -- What goes on here has no worker, and was given nothing more than it waits for.
  have here {s' : Session α} {f' : Fiber α} (hs : Staffed (some n) 0 s') (hp : f'.place = .here) (ht : f'.Tidy) :
      InHand n f' s' ∧ (f'.place = .queued → f'.granted = false) :=
    ⟨hs.inHand_here hp ht, fun hq => by cases hp.symm.trans hq⟩
  have queued (hp : f.place = .queued) : f.deadline = none := Classical.byContradiction fun hd => (ht.deadline hd).1 hp
  have notQueued (hp : f.place = .here) : f.place ≠ .queued := by simp [hp]
  have unloaded (hp : f.place = .here) : Staffed (some n) 0 s := by rwa [Fiber.load_of_here hp] at hs
  cases hn with
  | onWorker hp => exact ⟨⟨hs, ht, hm⟩, fun hq => by cases hp.symm.trans hq⟩
  | refused hp => exact here (hs.giveBack (by simp [hp])) rfl (Fiber.tidy_of_plain rfl (queued hp))
  | dismissed hp => exact hs.giveBack (by simp [hp])
  | seated hp hu hg =>
    have hload : f.load = 1 := by simp [Fiber.load_of_queued hp, hg]
    rw [hload] at hs
    exact ⟨hs.toWork rfl (Fiber.tidy_of_plain rfl (queued hp)), fun hq => by cases hq⟩
  | hired hp hu hg hi =>
    have hload : f.load = 0 := by simp [Fiber.load_of_queued hp, hg]
    rw [hload] at hs
    exact ⟨(hs.hire hi).toWork rfl (Fiber.tidy_of_plain hg (queued hp)), fun hq => by cases hq⟩
  | queues hp hu hg => exact ⟨⟨hs, ht, hm⟩, fun _ => hg⟩
  | returns hp hr => exact here (unloaded hp) hp (ht.goesOn (notQueued hp) (by simp [hr]) rfl rfl)
  | ends hp => exact unloaded hp
  | acts hp hr =>
    exact here (Staffed.rouse ((unloaded hp).of_eq rfl rfl rfl rfl rfl rfl rfl)) hp (ht.goesOn (notQueued hp) (by simp [hr]) rfl rfl)
  | answered hp hr => exact here (unloaded hp) hp (ht.goesOn (notQueued hp) (by simp [hr]) rfl rfl)
  | unanswered hp => exact here (unloaded hp) hp ht
  | passes hp hr hw => exact here ((unloaded hp).pass? hw) hp (Fiber.tidy_of_plain rfl rfl)
  | waits hp =>
    have hp' : (s.timed f).place = .here := by
      rw [timed_eq]
      exact hp
    exact here (unloaded hp) hp' (tidy_timed ht (notQueued hp))
  | misses hp hr | invokes hp hr =>
    obtain ⟨hg, hd⟩ := ht.plain (notQueued hp) (by simp [hr])
    exact here (unloaded hp) hp (Fiber.tidy_of_plain hg hd)
  | @offloads name params next body hp hr =>
    obtain ⟨hg, hd⟩ := ht.plain (notQueued hp) (by simp [hr])
    refine ⟨⟨?_, Fiber.tidy_of_plain hg hd, nofun⟩, fun _ => hg⟩
    rw [Fiber.load_of_queued rfl]
    simp only [hg]
    exact unloaded hp

/-- The turn of a fiber keeps order. -/
theorem InHand.drive (h : InHand n f s) {fuel : Nat} (hq : f.place = .queued → f.granted = true → fuel ≠ 0) :
    (s.drive fuel n f).2.Staffs n (s.drive fuel n f).1 := by
  induction fuel generalizing s f with
  | zero => exact ⟨h, fun hp => Bool.eq_false_iff.mpr fun hg => hq hp hg rfl⟩
  | succ fuel ih =>
    have hnode := (node_cases s n f).staffs h
    rw [drive_succ]
    generalize (s.node n f).1 = s', (s.node n f).2 = p at hnode
    cases p with
    | pauses p => exact hnode
    | goesOn f' => exact ih hnode.1 fun hp hg => absurd hg (by simp [hnode.2 hp])

end Session

end Parley
