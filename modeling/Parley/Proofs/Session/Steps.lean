import Parley.Proofs.Session.Cases
import Parley.Proofs.Session.Onward

/-!
# The steps of a session

A session is made of few kinds of steps: a fiber has its turn, a fiber on a worker goes on, a payload comes, a routine begins, and
what no call has a part in. `Session.Next` has them all and leaves open which comes when, so that what holds along all rows of
steps (`Session.Later`) holds in whatever order turns are given. All that a session does is such a row: `later_run` and
`later_passTime` say so of what it does by itself, and `Session.SpansRun` of any rows that have room for it. The steps that use up
no turn are a kind of their own (`Session.Aside`), for whoever has a turn keeps it meanwhile.
-/

namespace Parley

namespace Session

variable {α : Type}

/-- The session when an actor has used up its turn. -/
def taken (s : Session α) (a : Actor) : Session α := { s with ready := s.ready.erase a }

/-- A session does one thing that uses up no turn. -/
inductive Aside : Session α → Session α → Prop
  /-- Something that no call has a part in. -/
  | onward {s s' : Session α} (h : Onward s s') : Aside s s'
  /-- A fiber on a worker goes on, as far as it is let. -/
  | worker {s s' : Session α} {n : Nat} (hn : n ∈ s.running) (h : Worked s n s') : Aside s s'
  /-- A payload comes. -/
  | receive (s : Session α) (payload : Bytes) : Aside s (s.receive payload).1
  /-- A routine begins on its own. -/
  | begin (s : Session α) {r : Routine α} (hr : r.Lawful) : Aside s (s.begin r)

/-- A session does one thing, whichever is next. -/
inductive Next : Session α → Session α → Prop
  | aside {s s' : Session α} (h : Aside s s') : Next s s'
  /-- The turn of the loop or the writer is used up, or that of a fiber that is gone. -/
  | pass {s : Session α} {a : Actor} (ha : ∀ n, a = .fiber n → s.fibers.find? n = none) : Next s (s.taken a)
  /-- A fiber has its turn. -/
  | turn {s : Session α} {n : Nat} {f : Fiber α} (hn : .fiber n ∈ s.ready) (hf : s.fibers.find? n = some f) :
    Next s ((s.taken (.fiber n)).driveFiber n f)

/-- A session comes to a state by steps that use up no turn. -/
abbrev Alongside (s s' : Session α) : Prop := Relation.ReflTransGen Aside s s'

/-- A session comes to a state by steps. -/
abbrev Later (s s' : Session α) : Prop := Relation.ReflTransGen Next s s'

theorem Onward.alongside {s s' : Session α} (h : Onward s s') : Alongside s s' := .single (.onward h)

theorem Alongside.later {s s' : Session α} (h : Alongside s s') : Later s s' :=
  Relation.ReflTransGen.mono (fun _ _ => Next.aside) _ _ h

theorem Onward.later {s s' : Session α} (h : Onward s s') : Later s s' := h.alongside.later

/-! ## What no call has a part in -/

/-- The session may end. -/
theorem onward_finish (s : Session α) (r : Reason) : Onward s (s.finish r) := by
  have hs : Onward s { s.withConnection s.site.connection.teardown with intake := .ended r } :=
    .of_actsTo (Connection.actsTo_teardown _) rfl rfl rfl rfl rfl rfl
  exact hs.trans (onward_rouse _)

/-- Something may be reported. -/
theorem onward_report (s : Session α) (kind : ReportKind) (text : String) : Onward s (s.report kind text) :=
  .of_actsTo (Connection.actsTo_report _ kind text) rfl rfl rfl rfl rfl rfl

/-- The writer may write. -/
theorem onward_write (s : Session α) : Onward s s.write := by
  unfold write
  split
  · exact .refl s
  · split
    · exact .refl s
    · refine .of_actsTo ?_ rfl rfl rfl rfl rfl rfl
      simp only [withConnection]
      split
      · exact Connection.actsTo_dropWriter _
      · exact Connection.actsTo_takeAll _

/-- Those whose time has come may get turns. -/
theorem onward_stepTimers {s s' : Session α} (h : s.stepTimers = some s') : Onward s s' := handsOn_onward.stepTimers h

/-! ## What a session does by itself -/

/-- Between two states of a session there are rows of things that happen. They span what the loop does: they have room for what no
call has a part in and leaves alone what the program keeps, and for payloads that come. -/
structure SpansLoop (R : Session α → Session α → Prop) : Prop where
  refl (s : Session α) : R s s
  trans {s s' s'' : Session α} (h : R s s') (h' : R s' s'') : R s s''
  onward {s s' : Session α} (h : Onward s s') (ho : s'.site.own = s.site.own) : R s s'
  receive (s : Session α) (payload : Bytes) : R s (s.receive payload).1

/-- They span all that a session does by itself: the fibers have their turns, too, and go on on their workers. -/
structure SpansRun (R : Session α → Session α → Prop) : Prop extends SpansLoop R where
  worker {s s' : Session α} {n : Nat} (hn : n ∈ s.running) (h : s.stepWorker n = some s') : R s s'
  pass {s : Session α} {a : Actor} (ha : ∀ n, a = .fiber n → s.fibers.find? n = none) : R s (s.taken a)
  turn {s : Session α} {n : Nat} {f : Fiber α} (hn : .fiber n ∈ s.ready) (hf : s.fibers.find? n = some f) :
    R s ((s.taken (.fiber n)).driveFiber n f)

namespace SpansLoop

variable {R : Session α → Session α → Prop}

theorem finish (h : SpansLoop R) (s : Session α) (r : Reason) : R s (s.finish r) := by
  refine h.onward (onward_finish s r) ?_
  rw [Session.finish, site_rouse]
  rfl

/-- The loop goes through a round. -/
theorem round (h : SpansLoop R) {s s' : Session α} (hr : Round s s') : R s s' := by
  have hsource (source : Source) : R s { s with source } := h.onward (.of_eq rfl rfl rfl rfl rfl rfl rfl) rfl
  have report (s : Session α) (kind : ReportKind) (text : String) : R s (s.report kind text) :=
    h.onward (onward_report s kind text) rfl
  cases hr with
  | stopped | exited => exact h.finish s _
  | idle => exact h.refl s
  | @serves payload source s₁ hc hn hr =>
    have hp := h.trans (hsource source) (h.receive _ payload)
    rwa [hr] at hp
  | @awaits payload source s₁ n hc hn hr =>
    have hp := h.trans (hsource source) (h.receive _ payload)
    rw [hr] at hp
    exact h.trans hp (h.onward (.of_eq rfl rfl rfl rfl rfl rfl rfl) rfl)
  | closed => exact h.trans (hsource _) (h.finish _ _)
  | breaks => exact h.onward (.of_eq rfl rfl rfl rfl rfl rfl rfl) rfl
  | failed => exact h.trans (hsource _) (h.trans (report _ _ _) (h.finish _ _))
  | reports => exact h.trans (hsource _) (report _ _ _)

/-- The loop takes payloads. -/
theorem takePayloads (h : SpansLoop R) (s : Session α) (fuel : Nat) : R s (s.takePayloads fuel) := by
  have hrounds := rounds_takePayloads s fuel
  generalize s.takePayloads fuel = s' at hrounds ⊢
  induction hrounds with
  | refl => exact h.refl s
  | tail _ hr ih => exact h.trans ih (h.round hr)

/-- The loop goes on behind what it waited for. -/
theorem proceed (h : SpansLoop R) (s : Session α) : R s s.proceed := by
  unfold Session.proceed
  split
  · exact h.finish s _
  · have hs : R s { s with intake := .reading } := h.onward (.of_eq rfl rfl rfl rfl rfl rfl rfl) rfl
    exact h.trans hs (h.takePayloads _ _)

/-- What comes behind the turn of a fiber: the loop goes on if it waited for it. -/
theorem turn_fiber (h : SpansLoop R) {s : Session α} {n : Nat} {f : Fiber α} (hf : s.fibers.find? n = some f) :
    R (s.driveFiber n f) (s.turn (.fiber n)) := by
  simp only [Session.turn, hf]
  split
  · exact h.proceed _
  · exact h.refl _

/-- When an actor has used up its turn and is no fiber, what it does uses up no other. -/
theorem turn (h : SpansLoop R) {s : Session α} {a : Actor} (ha : ∀ n, a = .fiber n → s.fibers.find? n = none) :
    R s (s.turn a) := by
  cases a with
  | writer =>
    refine h.onward (onward_write s) ?_
    simp only [Session.turn, write]
    split
    · rfl
    · split <;> rfl
  | loop =>
    simp only [Session.turn]
    split
    · exact h.takePayloads _ _
    · exact h.refl s
  | fiber n =>
    simp only [Session.turn, ha n rfl]
    exact h.refl s

end SpansLoop

/-- The turn of the actor that is first in the row. -/
theorem taken_of_ready {s : Session α} {a : Actor} {rest : List Actor} (h : s.ready = a :: rest) :
    { s with ready := rest } = s.taken a := by
  rw [taken, h, List.erase_cons_head]

namespace SpansRun

variable {R : Session α → Session α → Prop}

/-- The actor whose turn is next has it. -/
theorem turn_taken (h : SpansRun R) {s : Session α} {a : Actor} (ha : a ∈ s.ready) : R s ((s.taken a).turn a) := by
  by_cases hn : ∃ n f, a = .fiber n ∧ s.fibers.find? n = some f
  · obtain ⟨n, f, rfl, hf⟩ := hn
    exact h.trans (h.turn ha hf) (h.turn_fiber (s := s.taken (.fiber n)) hf)
  · have hn (n : Nat) (he : a = .fiber n) : s.fibers.find? n = none :=
      Option.eq_none_iff_forall_ne_some.mpr fun f hf => hn ⟨n, f, he, hf⟩
    exact h.trans (h.pass hn) (h.toSpansLoop.turn (s := s.taken a) hn)

theorem stepTimers (h : SpansRun R) {s s' : Session α} (hs : s.stepTimers = some s') : R s s' :=
  h.onward (onward_stepTimers hs) (congrArg Site.own (handsOn_site.stepTimers hs))

/-- After any number of turns. -/
theorem run (h : SpansRun R) (s : Session α) (fuel : Nat) : R s (s.run fuel) := by
  induction fuel generalizing s with
  | zero => exact h.refl s
  | succ fuel ih =>
    unfold Session.run
    split
    · rename_i a rest hr
      rw [taken_of_ready hr]
      exact h.trans (h.turn_taken (by rw [hr]; exact List.mem_cons_self)) (ih _)
    · split
      · rename_i s' hs
        obtain ⟨n, hn, hw⟩ := List.exists_of_findSome?_eq_some hs
        exact h.trans (h.worker hn hw) (ih s')
      · split
        · rename_i s' hs
          exact h.trans (h.stepTimers hs) (ih s')
        · exact h.refl s

/-- While time passes the session goes on at each deadline. -/
theorem passTime (h : SpansRun R) (s : Session α) (fuel moment : Nat) : R s (passTime fuel moment s) := by
  have clock (t : Nat) (s : Session α) : R s { s with clock := t } := h.onward (.of_eq rfl rfl rfl rfl rfl rfl rfl) rfl
  induction fuel generalizing s with
  | zero => exact h.refl s
  | succ fuel ih =>
    unfold Session.passTime
    split
    · exact h.trans (clock _ s) (h.trans (h.run _ _) (ih _))
    · exact clock _ s

end SpansRun

/-- What the loop does uses up no turn but its own. -/
theorem spansLoop_alongside : SpansLoop (Alongside (α := α)) :=
  ⟨fun _ => .refl, .trans, fun h _ => h.alongside, fun s payload => .single (.receive s payload)⟩

/-- What a session does by itself are steps. -/
theorem spansRun_later : SpansRun (Later (α := α)) :=
  ⟨⟨fun _ => .refl, .trans, fun h _ => h.later, fun s payload => .single (.aside (.receive s payload))⟩,
    fun hn h => .single (.aside (.worker hn (worked_of_stepWorker h))), fun ha => .single (.pass ha), fun hn hf => .single (.turn hn hf)⟩

/-- A fiber's turn, and what the loop does behind it. -/
theorem alongside_turn_fiber {s : Session α} {n : Nat} {f : Fiber α} (hf : s.fibers.find? n = some f) :
    Alongside (s.driveFiber n f) (s.turn (.fiber n)) := spansLoop_alongside.turn_fiber hf

/-- A turn of somebody else. -/
theorem alongside_turn {s : Session α} {a : Actor} (ha : ∀ n, a = .fiber n → s.fibers.find? n = none) :
    Alongside s (s.turn a) := spansLoop_alongside.turn ha

/-- Whoever has a turn takes some steps with it. -/
theorem later_turn {s : Session α} {a : Actor} (h : a ∈ s.ready) : Later s ((s.taken a).turn a) := spansRun_later.turn_taken h

/-- A run is a row of steps. -/
theorem later_run (s : Session α) (fuel : Nat) : Later s (s.run fuel) := spansRun_later.run s fuel

/-- Time passes by steps. -/
theorem later_passTime (s : Session α) (fuel moment : Nat) : Later s (passTime fuel moment s) :=
  spansRun_later.passTime s fuel moment

end Session

end Parley
