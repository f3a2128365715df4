import Parley.Proofs.Session.Replies

/-!
# Sessions on several threads

`Session.Next` gives a fiber a whole turn before anything else happens. In a service the fibers have threads of their own: while a
routine goes from node to node, others do, too, payloads come, and tokens fire. `Threads` is a session of which some fibers are in
the middle of a turn, and `Threads.Step` is what can happen next. The token of a call that ends with it is looked at when a turn
begins, and that of a body that waits for a worker before it gets one. Behind that a token makes no difference until the turn is
over. What is true between two turns of a session stays true in the middle of them (`Threads.Sound`).
-/

namespace Parley

variable {α : Type}

namespace Session

/-! ## The parts of a turn -/

/-- The turn of a fiber is over, and it waits. Whatever has happened meanwhile may have left it nothing to wait for. -/
def rest (s : Session α) (n : Nat) (f : Fiber α) : Session α := ((s.taken (.fiber n)).park n f).rouse

/-- The turn of a fiber is over, and its job ends with what the routine has come to. -/
def conclude (s : Session α) (n : Nat) (f : Fiber α) (o : Outcome) : Session α :=
  match f.job with
  | some j => ((s.taken (.fiber n)).without n).settle j o
  | none => (s.taken (.fiber n)).without n

variable {handlers : Registry (Handler α)} {s s' : Session α} {n : Nat} {f f' : Fiber α} {j : Job} {o : Outcome}

/-- It is the end of a fiber. -/
theorem ended_conclude (s : Session α) (n : Nat) (f : Fiber α) (o : Outcome) :
    Ended ((s.taken (.fiber n)).without n) o f.job (s.conclude n f o) := by
  unfold conclude
  cases f.job with
  | none => exact .alone
  | some j => exact .settled (settled_settle _ j o)

/-- A body that is to have a worker gets one, or goes on waiting. -/
theorem keeps_seat (hf : f.Lawful) (hp : f.place = .queued) (s : Session α) (n : Nat) :
    Keeps s n f (s.seat n f).1 (.pauses (.waits (s.seat n f).2)) := by
  have nested {f' : Fiber α} (hj : f'.job = f.job) (hc : f'.call = f.call) (hg : f'.guarded = f.guarded)
      (hcs : f'.callers = f.callers) : f.Continues f' :=
    ⟨hj, hc, hg, fun h _ => hcs ▸ h (by simp [hp])⟩
  unfold seat
  split
  · exact ⟨.of_eq rfl rfl rfl rfl rfl rfl rfl, ⟨⟨hf.routine, hf.callers⟩, nested rfl rfl rfl rfl⟩, .inr ⟨_, rfl, rfl, rfl⟩⟩
  · split
    · exact ⟨.of_eq rfl rfl rfl rfl rfl rfl rfl, ⟨⟨hf.routine, hf.callers⟩, nested rfl rfl rfl rfl⟩, .inr ⟨_, rfl, rfl, rfl⟩⟩
    · exact ⟨.refl s, ⟨hf, .refl f⟩, .inl rfl⟩

/-- So it is still at work on its job. -/
theorem serves_seat (hs : f.Serves handlers j) (hp : f.place = .queued) (s : Session α) (n : Nat) :
    (s.seat n f).2.Serves handlers j := by
  have seated (granted : Bool) : Fiber.Serves handlers j { f with place := .worker, granted } := by
    refine ⟨hs.mode, hs.call, hs.guarded, fun hm _ => hs.nested hm (by simp [hp]), fun hm => ?_⟩
    have ht := hs.threaded hm
    exact ⟨ht.callers, ht.leads, nofun, nofun⟩
  unfold seat
  split
  · exact seated _
  · split
    · exact seated _
    · exact hs

/-- A fiber that goes on, or waits, is at work on the job. -/
def Progress.Serves (handlers : Registry (Handler α)) (j : Job) : Progress α → Prop
  | .goesOn f | .pauses (.waits f) => f.Serves handlers j
  | .pauses (.ends _) => True

/-- Behind a node a fiber is still at work on its job. A body that is to run on a worker passes no node before it is there. -/
theorem Node.serves {p : Progress α} (h : Node s n f s' p) (hk : p.Keeps f) (hs : f.Serves handlers j) : p.Serves handlers j := by
  cases hm : j.mode with
  | direct => exact absurd hm hs.mode
  | coroutine =>
    cases p with
    | goesOn f' => exact hs.continues hk.2 hm
    | pauses p =>
      cases p with
      | waits f' => exact hs.continues hk.2 hm
      | ends o => trivial
  | threaded =>
    obtain ⟨hc, hl, hq, hh⟩ := hs.threaded hm
    have waiting {f' : Fiber α} (hr : f'.routine = f.routine) (hcs : f'.callers = f.callers) (hw : f'.place = .worker)
        (hcall : f'.call = f.call) (hg : f'.guarded = f.guarded) : f'.Serves handlers j := by
      refine ⟨hs.mode, hcall.trans hs.call, hg.trans hs.guarded, fun hm' => ?_, fun _ => ⟨hcs.trans hc, hr ▸ hl, ?_, ?_⟩⟩
      · rw [hm] at hm'
        cases hm'
      · simp [hw]
      · simp [hw]
    -- Where it is here, it has ended.
    have hasEnded {r : Routine α} (hp : f.place = .here) (hr : f.routine = r) : ∃ o, r = .done o := hr ▸ hh hp
    cases h with
    | onWorker | queues => exact hs
    | refused _ _ hcs | returns _ _ hcs =>
      rw [hc] at hcs
      cases hcs
    | dismissed | ends => trivial
    | seated hp => exact waiting rfl rfl rfl rfl rfl
    | hired hp => exact waiting rfl rfl rfl rfl rfl
    | acts hp hr | answered hp hr | unanswered hp hr | passes hp hr | waits hp hr | misses hp hr | offloads hp hr | invokes hp hr =>
      obtain ⟨o, ho⟩ := hasEnded hp hr
      cases ho

/-- A fiber that goes on behind a node is on no worker. -/
theorem Node.place_of_goesOn (h : Node s n f s' (.goesOn f')) : f'.place ≠ .worker := by
  cases h <;> simp [*]

namespace Follows

variable {first : Conversation}

/-- A fiber that has passed a node is put back with its job. -/
theorem passed (h : Follows first [] s) (hf : s.fibers.find? n = some f) (ho : Onward s { s' with running := s.running })
    (hl : f'.Lawful) (hc : f.Continues f') : Follows first [] (s'.store n f') := by
  have hw := (h.take hf).onward (ho.without n)
  rw [← hc.job] at hw
  have hw : Follows first (f'.job.toList ++ []) (s'.without n) := hw.congr rfl rfl rfl rfl
  exact hw.put hl (ho.nextFiber ▸ (h.fiber hf).2)

/-- A fiber whose turn is over is put back with its job. -/
theorem rest (h : Follows first [] s) (hf : s.fibers.find? n = some f) (hk : Keeps s n f s' (.pauses (.waits f'))) :
    Follows first [] (s'.rest n f') := by
  have hp : Follows first [] (s'.store n f') := h.passed hf hk.onward hk.progress.1 hk.progress.2
  have hp : Follows first [] ((s'.taken (.fiber n)).park n f') := hp.congr rfl rfl rfl rfl
  exact hp.onward (onward_rouse _)

/-- The job of a routine that has ended ends. -/
theorem conclude (h : Follows first [] s) (hf : s.fibers.find? n = some f) (hk : Keeps s n f s' (.pauses (.ends o))) :
    Follows first [] (s'.conclude n f o) := by
  have hw : Follows first (f.job.toList ++ []) ((s'.taken (.fiber n)).without n) :=
    ((h.take hf).onward (hk.onward.without n)).congr rfl rfl rfl rfl
  exact hw.ended (ended_conclude s' n f o)

end Follows

namespace Orderly

/-- A fiber that has passed a node goes on having its turn. -/
theorem passed (h : Orderly s) (hf : s.fibers.find? n = some f) (hp : f.place ≠ .worker) (hr : .fiber n ∈ s.ready)
    (ho : Onward s s') (hs : ∀ j, f'.job = some j → f'.Serves s.handlers j) : Orderly (s'.store n f') := by
  have hr' : .fiber n ∈ s'.ready := ho.ready.subset hr
  refine ((h.take n).onward (ho.without n)).put ?_ (fun _ _ => .inr hr') (fun hw => ?_) fun _ _ _ _ => hr'
  · rw [ho.handlers]
    exact hs
  · rw [ho.running] at hw
    exact absurd ((h.crew n hw).2 f hf) hp

/-- A fiber that was set aside has used up its turn. -/
theorem spent {p : Pause α} (h : Orderly s) (hn : n < s.nextFiber) (hk : Keeps s n f s' (.pauses p)) :
    Orderly ((s'.taken (.fiber n)).without n) := by
  have hd : Drives s n f (s', p) := hk
  have hq : Orderly (s'.without n) := (h.take n).drives hn hd
  exact hq.taken fun m hm => Actor.fiber.inj hm ▸ find?_without_self s' n

/-- A fiber whose turn is over is in the row of those who wait, or has its next turn. -/
theorem rest (h : Orderly s) (hf : s.fibers.find? n = some f) (hp : f.place ≠ .worker) (hn : n < s.nextFiber)
    (hk : Keeps s n f s' (.pauses (.waits f'))) (hs : ∀ j, f'.job = some j → f'.Serves s.handlers j) :
    Orderly (s'.rest n f') := by
  have ho : Onward ((s'.taken (.fiber n)).without n)
      ({ s'.taken (.fiber n) with parked := s'.parked ++ [n] }.without n) :=
    ⟨.refl _, .refl _, rfl, rfl, List.prefix_refl _, fun _ hm => .inl (List.mem_append_left _ hm), rfl⟩
  have hq := ((h.spent hn hk).onward ho).toManned.put (f := f') ?_ ?_ ?_
  · have hm : Manned ((s'.taken (.fiber n)).park n f') := hq
    exact hm.rouse
  · have hh : (s'.taken (.fiber n)).handlers = s.handlers := hk.onward.handlers
    rw [hh]
    exact hs
  · exact fun _ _ => .inl (List.mem_append_right _ List.mem_cons_self)
  · intro hw
    rcases hk.running with hr | ⟨f₁, he, hw₁, -⟩
    · exact absurd ((h.crew n (hr ▸ hw)).2 f hf) hp
    · obtain rfl : f' = f₁ := by simpa using he
      exact hw₁

/-- A routine that has ended leaves order behind. -/
theorem conclude (h : Orderly s) (hh : s.handlers.Lawful) (hn : n < s.nextFiber)
    (hk : Keeps s n f s' (.pauses (.ends o))) : Orderly (s'.conclude n f o) := by
  have hl : s'.handlers = s.handlers := hk.onward.handlers
  exact (h.spent hn hk).ended (hl ▸ hh) (ended_conclude s' n f o)

end Orderly

end Session

open Session

/-! ## Steps -/

/-- How far a fiber is in its turn. -/
inductive Phase where
  /-- It is between two turns. -/
  | rests
  /-- Its turn has begun. -/
  | polled
  /-- Its turn has begun, and the token was looked at of a body that waits for a worker and is about to get one. -/
  | seating
  deriving DecidableEq, Repr

/-- A session in the middle of any number of turns. -/
structure Threads (α : Type) where
  session : Session α
  phase : Nat → Phase

namespace Threads

/-- Between all turns. -/
def atRest (s : Session α) : Threads α := ⟨s, fun _ => .rests⟩

/-- A fiber has moved on in its turn. -/
def moved (x : Threads α) (n : Nat) (p : Phase) (s : Session α) : Threads α :=
  ⟨s, fun m => if m = n then p else x.phase m⟩

/-- What a fiber can do next, how far it is then, and what becomes of the session. -/
inductive Move (x : Threads α) (n : Nat) (f : Fiber α) : Phase → Session α → Prop
  /-- It has a whole turn, and nothing else happens meanwhile. -/
  | turn (hp : x.phase n = .rests) (hr : .fiber n ∈ x.session.ready) :
    Move x n f .rests ((x.session.taken (.fiber n)).driveFiber n f)
  /-- Its turn begins. A call that ends with its token begins none when it has fired. -/
  | begins (hp : x.phase n = .rests) (hr : .fiber n ∈ x.session.ready) (hw : f.place ≠ .worker)
    (ht : f.guarded = true → x.session.isFired f.call.token = false) : Move x n f .polled x.session
  /-- It passes a node. -/
  | passes {s : Session α} {f' : Fiber α} (hp : x.phase n = .polled) (h : x.session.node n f = (s, .goesOn f')) :
    Move x n f .polled (s.store n f')
  /-- It has to wait, and its turn is over. -/
  | waits {s : Session α} {f' : Fiber α} (hp : x.phase n = .polled) (h : x.session.node n f = (s, .pauses (.waits f'))) :
    Move x n f .rests (s.rest n f')
  /-- Its routine ends. -/
  | ends {s : Session α} {o : Outcome} (hp : x.phase n = .polled) (h : x.session.node n f = (s, .pauses (.ends o))) :
    Move x n f .rests (s.conclude n f o)
  /-- It waits for a worker, and its token has not fired. -/
  | looks (hp : x.phase n = .polled) (hq : f.place = .queued) (ht : x.session.isFired f.call.token = false) :
    Move x n f .seating x.session
  /-- Whether or not its token has fired since, it gets a worker if there is one. -/
  | seats (hp : x.phase n = .seating) : Move x n f .rests ((x.session.seat n f).1.rest n (x.session.seat n f).2)

/-- What can happen next. -/
inductive Step (x : Threads α) : Threads α → Prop
  /-- Something that uses up no turn. -/
  | aside {s : Session α} (h : Aside x.session s) : Step x { x with session := s }
  /-- The loop or the writer has used up its turn, or a fiber that is gone. -/
  | pass {a : Actor} (ha : ∀ n, a = .fiber n → x.session.fibers.find? n = none) :
    Step x { x with session := x.session.taken a }
  /-- A fiber goes on. -/
  | move {n : Nat} {f : Fiber α} {p : Phase} {s : Session α} (hf : x.session.fibers.find? n = some f) (h : Move x n f p s) :
    Step x (x.moved n p s)

/-- Any number of things happen. -/
abbrev Steps (x y : Threads α) : Prop := Relation.ReflTransGen Step x y

variable {handlers : Registry (Handler α)} {catalogue : Catalogue} {x y : Threads α} {n m : Nat} {f f' g : Fiber α}
  {p : Phase} {s s' : Session α} {t : Token}

@[simp] theorem phase_moved (x : Threads α) (n : Nat) (p : Phase) (s : Session α) : (x.moved n p s).phase n = p := if_pos rfl

/-- The others are as far as they were. -/
theorem phase_moved_of_ne (hm : m ≠ n) (x : Threads α) (p : Phase) (s : Session α) : (x.moved n p s).phase m = x.phase m :=
  if_neg hm

/-- Between all turns, each step of a session is one of these. -/
theorem step_of_next (h : Next s s') : Step (atRest s) (atRest s') := by
  have rests (n : Nat) (s' : Session α) : (atRest s).moved n .rests s' = atRest s' := by
    simp [moved, atRest]
  cases h with
  | aside h => exact .aside h
  | pass ha => exact .pass ha
  | @turn n f hn hf =>
    have hs : Step (atRest s) ((atRest s).moved n .rests ((s.taken (.fiber n)).driveFiber n f)) := .move hf (.turn rfl hn)
    rwa [rests] at hs

/-- A fiber in the middle of its turn comes to its next node. -/
def go (x : Threads α) (n : Nat) : Threads α :=
  match x.session.fibers.find? n with
  | none => x
  | some f =>
    match x.session.node n f with
    | (s, .goesOn f') => x.moved n .polled (s.store n f')
    | (s, .pauses (.waits f')) => x.moved n .rests (s.rest n f')
    | (s, .pauses (.ends o)) => x.moved n .rests (s.conclude n f o)

/-- To come to the next node is a step. -/
theorem step_go (hp : x.phase n = .polled) (hf : (x.session.fibers.find? n).isSome = true) : Step x (x.go n) := by
  obtain ⟨f, hf⟩ := Option.isSome_iff_exists.mp hf
  simp only [go, hf]
  split
  · exact .move hf (.passes hp ‹_›)
  · exact .move hf (.waits hp ‹_›)
  · exact .move hf (.ends hp ‹_›)

/-- A fiber that is about to get a worker gets it, if there is one. -/
def sit (x : Threads α) (n : Nat) : Threads α :=
  match x.session.fibers.find? n with
  | none => x
  | some f => x.moved n .rests ((x.session.seat n f).1.rest n (x.session.seat n f).2)

/-- To get a worker is a step. -/
theorem step_sit (hp : x.phase n = .seating) (hf : (x.session.fibers.find? n).isSome = true) : Step x (x.sit n) := by
  obtain ⟨f, hf⟩ := Option.isSome_iff_exists.mp hf
  simp only [sit, hf]
  exact .move hf (.seats hp)

/-- Where all others are between two turns, it is then, too. -/
theorem sit_eq (hf : (x.session.fibers.find? n).isSome = true) (hp : ∀ m, m ≠ n → x.phase m = .rests) :
    x.sit n = atRest (x.sit n).session := by
  obtain ⟨f, hf⟩ := Option.isSome_iff_exists.mp hf
  simp only [sit, hf, moved, atRest, mk.injEq, true_and]
  funext m
  split
  · rfl
  · rename_i hm
    exact hp m hm

/-- So whatever a session comes to, several threads do. -/
theorem steps_of_later (h : Later s s') : Steps (atRest s) (atRest s') := by
  induction h with
  | refl => exact .refl
  | tail _ hn ih => exact ih.tail (step_of_next hn)

/-! ## What stays true in the middle of turns -/

/-- A fiber in the middle of its turn has it until it is over, and is on no worker. -/
structure InTurn (x : Threads α) (n : Nat) (f : Fiber α) : Prop where
  ready : .fiber n ∈ x.session.ready
  place : f.place ≠ .worker
  seating : x.phase n = .seating → f.place = .queued

/-- A session on several threads keeps to its conversation and keeps order, and a turn that has begun is not over before its end. -/
structure Sound (handlers : Registry (Handler α)) (catalogue : Catalogue) (x : Threads α) : Prop where
  underway : Underway handlers catalogue x.session
  turns : ∀ n, x.phase n ≠ .rests → ∃ f, x.session.fibers.find? n = some f ∧ x.InTurn n f

/-- A fiber in the middle of its turn is as such a fiber should be. -/
theorem Sound.inTurn (h : Sound handlers catalogue x) (hf : x.session.fibers.find? n = some f) (hp : x.phase n ≠ .rests) :
    x.InTurn n f := by
  obtain ⟨g, hg, ht⟩ := h.turns n hp
  obtain rfl := Option.some.inj (hf.symm.trans hg)
  exact ht

/-- From one state to a later one a call goes on as it is, and keeps its turn if it has one. -/
structure Lets (n : Nat) (s s' : Session α) : Prop where
  call : ∀ f, s.fibers.find? n = some f → ∃ f', s'.fibers.find? n = some f' ∧ f'.bare = f.bare
  turn : .fiber n ∈ s.ready → .fiber n ∈ s'.ready

namespace Lets

theorem refl (n : Nat) (s : Session α) : Lets n s s := ⟨fun f hf => ⟨f, hf, rfl⟩, id⟩

theorem trans {s'' : Session α} (h : Lets n s s') (h' : Lets n s' s'') : Lets n s s'' := by
  refine ⟨fun f hf => ?_, h'.turn ∘ h.turn⟩
  obtain ⟨f', hf', hb⟩ := h.call f hf
  obtain ⟨f'', hf'', hb'⟩ := h'.call f' hf'
  exact ⟨f'', hf'', hb'.trans hb⟩

/-- What spares a call lets it go on. -/
theorem of_spares (h : Spares n s s') (hn : n < s.nextFiber) : Lets n s s' := ⟨h.call hn, (h.ready.subset ·)⟩

/-- Another actor has used up its turn. -/
theorem taken {a : Actor} (ha : a ≠ .fiber n) (s : Session α) : Lets n s (s.taken a) :=
  ⟨fun f hf => ⟨f, hf, rfl⟩, (List.mem_erase_of_ne ha.symm).mpr⟩

/-- The node of another lets it go on. -/
theorem keeps {q : Progress α} (hk : Keeps s m g s' q) (hn : n < s.nextFiber) : Lets n s s' :=
  have hs := hk.onward.spares n
  ⟨hs.call hn, (hs.ready.subset ·)⟩

/-- Another turn is over. -/
theorem rest (hm : m ≠ n) (hn : n < s.nextFiber) (f : Fiber α) : Lets n s (s.rest m f) := by
  have ht : Lets n s (s.taken (.fiber m)) := taken (fun he => hm (Actor.fiber.inj he)) s
  have hp : Lets n (s.taken (.fiber m)) ((s.taken (.fiber m)).park m f) :=
    ⟨fun g hg => ⟨g, (find?_store_of_ne hm.symm _ f).trans hg, rfl⟩, id⟩
  exact (ht.trans hp).trans (of_spares ((onward_rouse _).spares n) hn)

/-- So does the end of another. -/
theorem conclude (hm : m ≠ n) (hh : s.handlers.Lawful) (hn : n < s.nextFiber) (f : Fiber α) (o : Outcome) :
    Lets n s (s.conclude m f o) := by
  have ht : Lets n s (s.taken (.fiber m)) := taken (fun he => hm (Actor.fiber.inj he)) s
  have hw : Spares n (s.taken (.fiber m)) (s.conclude m f o) :=
    (Spares.without hm _).trans ((ended_conclude s m f o).spares n hh)
  exact ht.trans (of_spares hw hn)

end Lets

/-- Where a fiber moves on, every other goes on with its call. -/
theorem Move.lets (h : Move x m g p s) (hm : m ≠ n) (hh : x.session.handlers.Lawful) (hg : g.Lawful)
    (hn : n < x.session.nextFiber) (hq : x.phase m = .seating → g.place = .queued) : Lets n x.session s := by
  have passed {s' : Session α} {q : Progress α} (hnode : x.session.node m g = (s', q)) : Keeps x.session m g s' q :=
    (node_of_eq hnode).keeps hh hg
  have later {s' : Session α} {q : Progress α} (hk : Keeps x.session m g s' q) : n < s'.nextFiber :=
    hk.onward.nextFiber ▸ hn
  cases h with
  | turn =>
    have ht : Lets n x.session (x.session.taken (.fiber m)) := .taken (fun he => hm (Actor.fiber.inj he)) _
    exact ht.trans (.of_spares ((driven_driveFiber _ m g).spares hm hh hg) hn)
  | begins | looks => exact .refl n _
  | @passes s' g' _ hnode =>
    have hl := Lets.keeps (passed hnode) hn
    exact hl.trans (.of_spares (.store hm s' g') (later (passed hnode)))
  | waits _ hnode => exact (Lets.keeps (passed hnode) hn).trans (.rest hm (later (passed hnode)) _)
  | @ends s' o _ hnode =>
    have hh' : s'.handlers = x.session.handlers := (passed hnode).onward.handlers
    exact (Lets.keeps (passed hnode) hn).trans (.conclude hm (hh' ▸ hh) (later (passed hnode)) _ _)
  | seats hp =>
    have hk := keeps_seat hg (hq hp) x.session m
    exact (Lets.keeps hk hn).trans (.rest hm (later hk) _)

/-- In one step a call goes on as it is and keeps its turn, or has gone on on its worker, or it is the one that moves on. -/
theorem Sound.call_of_step (h : Sound handlers catalogue x) (hs : Step x y) (hf : x.session.fibers.find? n = some f) :
    (y.phase n = x.phase n ∧ (.fiber n ∈ x.session.ready → .fiber n ∈ y.session.ready) ∧
      ∃ f', y.session.fibers.find? n = some f' ∧ f.Stays f') ∨ ∃ p s, Move x n f p s ∧ y = x.moved n p s := by
  have hfollows := h.underway.follows
  obtain ⟨hl, hn⟩ := hfollows.fiber hf
  have kept {y : Threads α} (hp : y.phase n = x.phase n) (hle : Lets n x.session y.session) :
      y.phase n = x.phase n ∧ (.fiber n ∈ x.session.ready → .fiber n ∈ y.session.ready) ∧
        ∃ f', y.session.fibers.find? n = some f' ∧ f.Stays f' := by
    obtain ⟨f', hf', hb⟩ := hle.call f hf
    exact ⟨hp, hle.turn, f', hf', .of_bare hb⟩
  cases hs with
  | aside hs =>
    refine .inl ?_
    rcases hs.spares hfollows hn with hsp | ⟨hr, hw⟩
    · exact kept rfl (.of_spares hsp hn)
    · have hp := (h.underway.orderly.crew n hr).2 f hf
      obtain ⟨f', hf', hj, hc, hq, hr⟩ := hw.call hl hp hf
      exact ⟨rfl, ((hs.keeps hfollows).2.subset ·), f', hf', hj, hc, hr, fun _ => hq, fun hne => absurd hp hne⟩
  | pass ha =>
    refine .inl (kept rfl (.taken (fun he => ?_) _))
    rw [ha n he] at hf
    cases hf
  | @move m g p s hg hm =>
    by_cases he : m = n
    · subst he
      obtain rfl := Option.some.inj (hf.symm.trans hg)
      exact .inr ⟨p, s, hm, rfl⟩
    · have hq (hp : x.phase m = .seating) : g.place = .queued := (h.inTurn hg (by simp [hp])).seating hp
      exact .inl (kept (phase_moved_of_ne (Ne.symm he) x p s) (hm.lets he hfollows.handlers (hfollows.fiber hg).1 hn hq))

/-- A fiber that moves on keeps to the conversation. -/
theorem Move.follows {first : Conversation} (hm : Move x n f p s) (hf : x.session.fibers.find? n = some f)
    (hq : x.phase n = .seating → f.place = .queued) (h : Follows first [] x.session) : Follows first [] s := by
  have passed {s' : Session α} {q : Progress α} (hnode : x.session.node n f = (s', q)) : Keeps x.session n f s' q :=
    (node_of_eq hnode).keeps h.handlers (h.fiber hf).1
  cases hm with
  | turn _ hr => exact h.next (.turn hr hf)
  | begins | looks => exact h
  | passes _ hnode =>
    have hk := passed hnode
    exact h.passed hf hk.onward hk.progress.1 hk.progress.2
  | waits _ hnode => exact h.rest hf (passed hnode)
  | ends _ hnode => exact h.conclude hf (passed hnode)
  | seats hp => exact h.rest hf (keeps_seat (h.fiber hf).1 (hq hp) x.session n)

/-- And keeps order. -/
theorem Move.orderly {first : Conversation} (hm : Move x n f p s) (hf : x.session.fibers.find? n = some f)
    (ht : x.phase n ≠ .rests → x.InTurn n f) (h : Follows first [] x.session) (ho : Orderly x.session) : Orderly s := by
  obtain ⟨hl, hn⟩ := h.fiber hf
  have passed {s' : Session α} {q : Progress α} (hnode : x.session.node n f = (s', q)) : Keeps x.session n f s' q :=
    (node_of_eq hnode).keeps h.handlers hl
  have serves {s' : Session α} {q : Progress α} (hnode : x.session.node n f = (s', q)) (j : Job) (hj : f.job = some j) :
      q.Serves x.session.handlers j :=
    (node_of_eq hnode).serves (passed hnode).progress (ho.serves n f j hf hj)
  cases hm with
  | turn _ hr => exact ho.next h (.turn hr hf)
  | begins | looks => exact ho
  | passes hp hnode =>
    have ht := ht (by simp [hp])
    obtain ⟨honward, -, hc⟩ := (passed hnode).goesOn
    exact ho.passed hf ht.place ht.ready honward fun j hj => serves hnode j (hc.job ▸ hj)
  | waits hp hnode =>
    have hk := passed hnode
    exact ho.rest hf (ht (by simp [hp])).place hn hk fun j hj => serves hnode j (hk.progress.2.job ▸ hj)
  | ends _ hnode => exact ho.conclude h.handlers hn (passed hnode)
  | seats hp =>
    have ht := ht (by simp [hp])
    have hk := keeps_seat hl (ht.seating hp) x.session n
    exact ho.rest hf ht.place hn hk fun j hj => serves_seat (ho.serves n f j hf (hk.progress.2.job ▸ hj)) (ht.seating hp) _ n

/-- The handlers are the same. -/
theorem Move.handlers_eq (hm : Move x n f p s) (hl : f.Lawful) (hh : x.session.handlers.Lawful)
    (hq : x.phase n = .seating → f.place = .queued) : s.handlers = x.session.handlers := by
  have passed {s' : Session α} {q : Progress α} (hnode : x.session.node n f = (s', q)) : s'.handlers = x.session.handlers :=
    ((node_of_eq hnode).keeps hh hl).onward.handlers
  cases hm with
  | turn => exact (keeps_driveFiber (s := x.session.taken _) hh hl).1
  | begins | looks => rfl
  | passes _ hnode =>
    have hh' := passed hnode
    exact hh'
  | waits _ hnode =>
    have hh' := passed hnode
    exact (onward_rouse _).handlers.trans hh'
  | @ends s' o _ hnode =>
    have hh' := passed hnode
    exact ((ended_conclude s' n f o).spares n (hh' ▸ hh)).handlers.trans hh'
  | seats hp =>
    have hk := (keeps_seat hl (hq hp) x.session n).onward.handlers
    exact (onward_rouse _).handlers.trans hk

/-- A fiber that is in the middle of its turn behind a move has it. -/
theorem Move.inTurn (hm : Move x n f p s) (hf : x.session.fibers.find? n = some f) (hl : f.Lawful)
    (hh : x.session.handlers.Lawful) (ht : x.phase n ≠ .rests → x.InTurn n f) (hp : p ≠ .rests) :
    ∃ f', s.fibers.find? n = some f' ∧ (x.moved n p s).InTurn n f' := by
  cases hm with
  | turn | waits | ends | seats => exact absurd rfl hp
  | begins _ hr hw => exact ⟨f, hf, hr, hw, by simp⟩
  | @passes s' f' hx hnode =>
    have hr : .fiber n ∈ s'.ready := ((node_of_eq hnode).keeps hh hl).onward.ready.subset (ht (by simp [hx])).ready
    exact ⟨f', find?_store_self _ _ _, hr, (node_of_eq hnode).place_of_goesOn, by simp⟩
  | looks hx hq => exact ⟨f, hf, (ht (by simp [hx])).ready, (ht (by simp [hx])).place, fun _ => hq⟩

namespace Sound

/-- Who is about to get a worker waits for one. -/
theorem queued (h : Sound handlers catalogue x) (hf : x.session.fibers.find? n = some f) (hp : x.phase n = .seating) :
    f.place = .queued :=
  (h.inTurn hf (by simp [hp])).seating hp

/-- One step keeps to the conversation. -/
theorem follows_step {first : Conversation} (h : Sound handlers catalogue x) (hs : Step x y)
    (hfirst : Follows first [] x.session) : Follows first [] y.session := by
  cases hs with
  | aside hs => exact hfirst.aside hs
  | pass => exact hfirst.congr rfl rfl rfl rfl
  | move hf hm => exact hm.follows hf (h.queued hf) hfirst

/-- What is true between two turns is true in the middle of them, whatever happens next. -/
theorem step (h : Sound handlers catalogue x) (hs : Step x y) : Sound handlers catalogue y := by
  have hfollows := h.underway.follows
  have horderly : Orderly y.session ∧ y.session.handlers = x.session.handlers := by
    cases hs with
    | aside hs => exact ⟨h.underway.orderly.aside hfollows hs, (hs.keeps hfollows).1⟩
    | pass ha => exact ⟨h.underway.orderly.taken ha, rfl⟩
    | move hf hm =>
      exact ⟨hm.orderly hf (h.inTurn hf) hfollows h.underway.orderly,
        hm.handlers_eq (hfollows.fiber hf).1 hfollows.handlers (h.queued hf)⟩
  refine ⟨⟨h.follows_step hs hfollows, horderly.1, horderly.2.trans h.underway.handlers⟩, fun n hp => ?_⟩
  cases hf : x.session.fibers.find? n with
  | some f =>
    rcases h.call_of_step hs hf with ⟨hphase, hready, f', hf', hst⟩ | ⟨p, s, hm, rfl⟩
    · have ht := h.inTurn hf (hphase ▸ hp)
      have hplace : f'.place = f.place := Fiber.place_of_bare (hst.elsewhere ht.place)
      exact ⟨f', hf', hready ht.ready, hplace ▸ ht.place, fun hq => hplace ▸ ht.seating (hphase ▸ hq)⟩
    · rw [phase_moved] at hp
      exact hm.inTurn hf (hfollows.fiber hf).1 hfollows.handlers (h.inTurn hf) hp
  | none =>
    -- Where there is no fiber no turn has begun, and none begins.
    have hrests : x.phase n = .rests := Classical.not_not.mp fun hne => by
      obtain ⟨f, hf', -⟩ := h.turns n hne
      rw [hf] at hf'
      cases hf'
    refine absurd ?_ hp
    cases hs with
    | aside | pass => exact hrests
    | @move m g p s hg hm =>
      have hne : n ≠ m := fun he => by
        rw [← he, hf] at hg
        cases hg
      rw [phase_moved_of_ne hne, hrests]

/-- So it is behind any number of steps. -/
theorem steps (h : Sound handlers catalogue x) (hs : Steps x y) : Sound handlers catalogue y := by
  induction hs with
  | refl => exact h
  | tail _ hs ih => exact ih.step hs

/-- Whatever happens, the session keeps to the conversation that begins where it is. -/
theorem follows_steps {first : Conversation} (h : Sound handlers catalogue x) (hs : Steps x y)
    (hfirst : Follows first [] x.session) : Follows first [] y.session := by
  induction hs with
  | refl => exact hfirst
  | tail hl hs ih => exact (h.steps hl).follows_step hs ih

/-- A connection that is not released was not released before. -/
theorem open_of_steps (h : Sound handlers catalogue x) (hs : Steps x y)
    (ho : y.session.site.connection.outgoing.closed = false) : x.session.site.connection.outgoing.closed = false := by
  obtain ⟨ms, hc, -⟩ := h.follows_steps hs h.underway.here
  cases hcl : x.session.site.connection.outgoing.closed with
  | false => rfl
  | true =>
    rw [hc, Conversation.closed_run hcl ms] at ho
    cases ho

/-- A token that has fired stays fired. -/
theorem isFired_of_steps (h : Sound handlers catalogue x) (hs : Steps x y) (ht : x.session.isFired t = true) :
    y.session.isFired t = true := by
  obtain ⟨ms, hc, -⟩ := h.follows_steps hs h.underway.here
  rw [isFired, hc]
  exact Conversation.isFired_run (v := ⟨x.session.site.connection, x.session.jobs⟩) ht ms

end Sound

/-- The states that a session with these handlers can come to. -/
def Reachable (handlers : Registry (Handler α)) (catalogue : Catalogue) (x : Threads α) : Prop :=
  ∃ s, Session.Reachable handlers catalogue s ∧ Steps (atRest s) x

/-- So it is wherever a session on several threads can come to. -/
theorem Reachable.sound (h : Reachable handlers catalogue x) (hh : handlers.Lawful) : Sound handlers catalogue x := by
  obtain ⟨s, hs, hl⟩ := h
  have hrest : Sound handlers catalogue (atRest s) := ⟨hs.underway hh, fun n hp => absurd rfl hp⟩
  exact hrest.steps hl

end Threads

end Parley
