import Parley.Session.Event

/-!
# What a session is made of

Two things recur wherever a session goes on. Turns, workers and permits are handed on; whatever holds of each way to hand one on
(`Session.HandsOn`) holds of a look at all that wait, and of what is given back. And a routine that has its turn passes nodes, of which
`Session.Node` says all that one can do (`Session.node_cases`), as `Session.Labors` does of a body on its worker
(`Session.labors_driveWorker`).
-/

namespace Parley

variable {α : Type}

namespace Session

/-! ## Handing on -/

/-- The first fiber that waits is a fiber of the session. -/
theorem find?_of_firstWaiting {s : Session α} {waits : Fiber α → Bool} {n : Nat} {f : Fiber α}
    (h : s.firstWaiting waits = some (n, f)) : s.fibers.find? n = some f := by
  obtain ⟨m, -, hm⟩ := List.exists_of_findSome?_eq_some h
  split at hm
  · rename_i f' hf
    split at hm
    · obtain ⟨rfl, rfl⟩ := Prod.mk.inj (Option.some.inj hm)
      exact hf
    · cases hm
  · cases hm

/-- To pass a wait is to take a permit at most. -/
theorem exists_of_pass? {s s' : Session α} {f : Fiber α} {w : Wait} (h : s.pass? f w = some s') :
    ∃ gates, s' = { s with gates } := by
  cases w with
  | permit gate =>
    simp only [pass?] at h
    split at h
    · exact ⟨s.gates, (Option.some.inj h).symm⟩
    · split at h
      · exact ⟨_, (Option.some.inj h).symm⟩
      · cases h
  | forever => cases h
  | _ =>
    obtain ⟨-, rfl⟩ : _ ∧ s = s' := by simpa [pass?] using h
    exact ⟨s.gates, rfl⟩

/-- A relation of a session to what becomes of it when turns, workers and permits are handed on. -/
structure HandsOn (R : Session α → Session α → Prop) : Prop where
  refl (s : Session α) : R s s
  trans {s s' s'' : Session α} (h : R s s') (h' : R s' s'') : R s s''
  enqueue (s : Session α) (a : Actor) : R s (s.enqueue a)
  wake (s : Session α) (n : Nat) : R s (s.wake n)
  grant {s : Session α} {n : Nat} {f : Fiber α} (hf : s.fibers.find? n = some f) : R s (s.grant n f)
  /-- Nobody waits for what is handed on, or it is taken. -/
  stock (s : Session α) (idle : Nat) (gates : Table String Nat) : R s { s with idle, gates }

namespace HandsOn

variable {R : Session α → Session α → Prop} (h : HandsOn R)

include h

/-- It holds of a row of steps if it holds of each. -/
theorem foldl {β : Type} {step : Session α → β → Session α} (hs : ∀ s b, R s (step s b)) (bs : List β) (s : Session α) :
    R s (bs.foldl step s) := by
  induction bs generalizing s with
  | nil => exact h.refl s
  | cons b bs ih => exact h.trans (hs s b) (ih _)

/-- Those that wait are looked at. -/
theorem rouse (s : Session α) : R s s.rouse := by
  unfold Session.rouse
  extract_lets able s₁ s₂
  have h₁ : R s s₁ := h.foldl h.wake able s
  have h₂ : R s₁ s₂ := by
    simp only [s₂]
    split
    · exact h.enqueue s₁ _
    · exact h.refl s₁
  split
  · exact h.trans h₁ (h.trans h₂ (h.enqueue s₂ _))
  · exact h.trans h₁ h₂

/-- A worker is free again. -/
theorem freeWorker (s : Session α) : R s s.freeWorker := by
  unfold Session.freeWorker
  split
  · rename_i n f hw
    exact h.grant (find?_of_firstWaiting hw)
  · exact h.stock s _ s.gates

/-- A gate has one more permit. -/
theorem addPermit (s : Session α) (gate : String) : R s (s.addPermit gate) := by
  unfold Session.addPermit
  split
  · rename_i n f hw
    exact h.grant (find?_of_firstWaiting hw)
  · exact h.stock s s.idle _

/-- A fiber gives back what it was given. -/
theorem giveBack (s : Session α) (f : Fiber α) : R s (s.giveBack f) := by
  unfold Session.giveBack
  split
  · split
    · exact h.freeWorker s
    · exact h.addPermit s _
    · exact h.refl s
  · exact h.refl s

/-- A wait is passed. -/
theorem pass? {s s' : Session α} {f : Fiber α} {w : Wait} (hp : s.pass? f w = some s') : R s s' := by
  obtain ⟨gates, rfl⟩ := exists_of_pass? hp
  exact h.stock s s.idle gates

/-- Those whose time has come get turns. -/
theorem stepTimers {s s' : Session α} (ht : s.stepTimers = some s') : R s s' := by
  simp only [Session.stepTimers] at ht
  split at ht
  · cases ht
  · obtain rfl := Option.some.inj ht
    refine h.foldl (fun s n => ?_) _ s
    split
    · rename_i hf
      exact h.grant hf
    · exact h.refl s

end HandsOn

/-! ## Nodes -/

/-- All that a fiber can do at a node of its turn. -/
inductive Node (s : Session α) (n : Nat) (f : Fiber α) : Session α → Progress α → Prop
  | onWorker (hp : f.place = .worker) : Node s n f s (.pauses (.waits f))
  | refused {next : Option Outcome → Routine α} {callers : List (Option Outcome → Routine α)} (hp : f.place = .queued)
      (ht : s.isFired f.call.token = true) (hc : f.callers = next :: callers) :
      Node s n f (s.giveBack f)
        (.goesOn { f with place := .here, routine := next (some (.error .cancelled)), callers, granted := false })
  | dismissed (hp : f.place = .queued) (ht : s.isFired f.call.token = true) (hc : f.callers = []) :
      Node s n f (s.giveBack f) (.pauses (.ends (.error .cancelled)))
  | seated (hp : f.place = .queued) (ht : s.isFired f.call.token = false) (hg : f.granted = true) :
      Node s n f { s with running := s.running ++ [n] } (.pauses (.waits { f with place := .worker, granted := false }))
  | hired (hp : f.place = .queued) (ht : s.isFired f.call.token = false) (hg : f.granted = false) (hi : 0 < s.idle) :
      Node s n f { s with running := s.running ++ [n], idle := s.idle - 1 } (.pauses (.waits { f with place := .worker }))
  | queues (hp : f.place = .queued) (ht : s.isFired f.call.token = false) (hg : f.granted = false) (hi : s.idle = 0) :
      Node s n f s (.pauses (.waits f))
  | returns {o : Outcome} {next : Option Outcome → Routine α} {callers : List (Option Outcome → Routine α)} (hp : f.place = .here)
      (hr : f.routine = .done o) (hc : f.callers = next :: callers) :
      Node s n f s (.goesOn { f with routine := next (some o), callers })
  | ends {o : Outcome} (hp : f.place = .here) (hr : f.routine = .done o) (hc : f.callers = []) :
      Node s n f s (.pauses (.ends o))
  | acts {update : Site α → Site α} {next : Site α → Routine α} (hp : f.place = .here) (hr : f.routine = .act update next) :
      Node s n f { s with site := update s.site }.rouse (.goesOn { f with routine := next s.site })
  | answered {handle : Nat} {next : PeerReply → Routine α} {r : PeerReply} (hp : f.place = .here)
      (hr : f.routine = .reply handle next) (ha : s.answer? handle = some r) : Node s n f s (.goesOn { f with routine := next r })
  | unanswered {handle : Nat} {next : PeerReply → Routine α} (hp : f.place = .here) (hr : f.routine = .reply handle next)
      (ha : s.answer? handle = none) : Node s n f s (.pauses (.waits f))
  | passes {s' : Session α} {w : Wait} {next : Routine α} (hp : f.place = .here) (hr : f.routine = .wait w next)
      (hw : s.pass? f w = some s') : Node s n f s' (.goesOn { f with routine := next, granted := false, deadline := none })
  | waits {w : Wait} {next : Routine α} (hp : f.place = .here) (hr : f.routine = .wait w next) (hw : s.pass? f w = none) :
      Node s n f s (.pauses (.waits (s.timed f)))
  | misses {name : String} {params : Json} {next : Option Outcome → Routine α} (hp : f.place = .here)
      (hr : f.routine = .invoke name params next) (hh : s.handlers.find? .user name = none) :
      Node s n f s (.goesOn { f with routine := next none })
  | offloads {name : String} {params : Json} {next : Option Outcome → Routine α} {body : Call → Routine α}
      (hp : f.place = .here) (hr : f.routine = .invoke name params next)
      (hh : s.handlers.find? .user name = some (.threaded body)) :
      Node s n f s
        (.goesOn { f with routine := body { f.call with params }, callers := next :: f.callers, place := .queued })
  | invokes {name : String} {params : Json} {next : Option Outcome → Routine α} {h : Handler α} (hp : f.place = .here)
      (hr : f.routine = .invoke name params next) (hh : s.handlers.find? .user name = some h) (hm : h.mode ≠ .threaded) :
      Node s n f s (.goesOn { f with routine := h.routine { f.call with params }, callers := next :: f.callers })

/-- A node does nothing else. -/
theorem node_cases (s : Session α) (n : Nat) (f : Fiber α) : Node s n f (s.node n f).1 (s.node n f).2 := by
  unfold node
  split
  · rename_i hp
    exact .onWorker hp
  · rename_i hp
    cases ht : s.isFired f.call.token with
    | true =>
      simp only [if_true]
      split
      · rename_i hc
        exact .refused hp ht hc
      · rename_i hc
        exact .dismissed hp ht hc
    | false =>
      simp only [Bool.false_eq_true, if_false, seat]
      split
      · rename_i hg
        exact .seated hp ht hg
      · rename_i hg
        split
        · rename_i hi
          exact .hired hp ht (Bool.not_eq_true _ ▸ hg) hi
        · rename_i hi
          exact .queues hp ht (Bool.not_eq_true _ ▸ hg) (Nat.eq_zero_of_not_pos hi)
  · rename_i hp
    split
    · rename_i o hr
      split
      · rename_i hc
        exact .returns hp hr hc
      · rename_i hc
        exact .ends hp hr hc
    · rename_i hr
      exact .acts hp hr
    · rename_i handle next hr
      split
      · rename_i ha
        exact .answered hp hr ha
      · rename_i ha
        exact .unanswered hp hr ha
    · rename_i w next hr
      split
      · rename_i hw
        exact .passes hp hr hw
      · rename_i hw
        exact .waits hp hr hw
    · rename_i name params next hr
      simp only
      split
      · rename_i hh
        exact .misses hp hr hh
      · rename_i body hh
        exact .offloads hp hr hh
      · rename_i h hn hh
        -- The pattern for threaded handlers comes first, so this handler is none.
        refine .invokes hp hr hh fun hm => ?_
        cases h with
        | threaded body => exact hn body rfl
        | direct | coroutine => cases hm

/-- What a node is known to come to is one of the things it can do. -/
theorem node_of_eq {s s' : Session α} {n : Nat} {f : Fiber α} {p : Progress α} (h : s.node n f = (s', p)) : Node s n f s' p := by
  have hn := node_cases s n f
  rwa [h] at hn

/-- What a turn comes to, by its first node. -/
theorem drive_succ (s : Session α) (fuel n : Nat) (f : Fiber α) :
    s.drive (fuel + 1) n f =
      match (s.node n f).2 with
      | .goesOn f' => (s.node n f).1.drive fuel n f'
      | .pauses p => ((s.node n f).1, p) := by
  rw [drive]
  split
  · rename_i h
    simp only [h]
  · rename_i h
    simp only [h]

/-! ## On workers -/

/-- A fiber goes on on its worker, from one state of the fiber and the session to another. -/
inductive Labors : Session α → Fiber α → Session α → Fiber α → Prop
  | rests (s : Session α) (f : Fiber α) : Labors s f s f
  | waits {s : Session α} {f : Fiber α} {w : Wait} {next : Routine α} (hr : f.routine = .wait w next) : Labors s f s (s.timed f)
  | acts {s s' : Session α} {f f' : Fiber α} {update : Site α → Site α} {next : Site α → Routine α}
      (hr : f.routine = .act update next)
      (h : Labors { s with site := update s.site }.rouse { f with routine := next s.site } s' f') : Labors s f s' f'
  | answered {s s' : Session α} {f f' : Fiber α} {handle : Nat} {next : PeerReply → Routine α} {r : PeerReply}
      (hr : f.routine = .reply handle next) (h : Labors s { f with routine := next r } s' f') : Labors s f s' f'
  | passes {s s₁ s' : Session α} {f f' : Fiber α} {w : Wait} {next : Routine α} (hr : f.routine = .wait w next)
      (hw : s.pass? f w = some s₁) (h : Labors s₁ { f with routine := next, granted := false, deadline := none } s' f') :
      Labors s f s' f'
  | misses {s s' : Session α} {f f' : Fiber α} {name : String} {params : Json} {next : Option Outcome → Routine α}
      (hr : f.routine = .invoke name params next) (h : Labors s { f with routine := next none } s' f') : Labors s f s' f'

/-- On its worker a fiber does nothing else. -/
theorem labors_driveWorker (s : Session α) (fuel : Nat) (f : Fiber α) (moved : Bool) :
    Labors s f (s.driveWorker fuel f moved).1 (s.driveWorker fuel f moved).2.1 := by
  induction fuel generalizing s f moved with
  | zero => exact .rests s f
  | succ fuel ih =>
    unfold driveWorker
    split
    · exact .rests s f
    · rename_i hr
      exact .acts hr (ih _ _ _)
    · rename_i hr
      split
      · exact .answered hr (ih _ _ _)
      · exact .rests s f
    · rename_i hr
      split
      · rename_i hw
        exact .passes hr hw (ih _ _ _)
      · exact .waits hr
    · rename_i hr
      exact .misses hr (ih _ _ _)

/-- What a fiber on its worker is known to come to is what it does there. -/
theorem labors_of_eq {s s' : Session α} {f f' : Fiber α} {fuel : Nat} {moved moved' : Bool}
    (h : s.driveWorker fuel f moved = (s', f', moved')) : Labors s f s' f' := by
  have hl := labors_driveWorker s fuel f moved
  rwa [h] at hl

end Session

end Parley
