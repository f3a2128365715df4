import Parley.Demo.Server
import Parley.Handler.Typed
import Parley.Proofs.Handler.Lawful
import Parley.Proofs.Session.Onward

/-!
# One function in all modes

Params that do not fit, a result that cannot be written, a failure and a panic are dealt with by each mode in its own way, and
come to the same (`TypedFunction.outcome`). A handler that is made of a function does nothing but compute: its routine ends at once, or
passes one node at which it leaves the site as it is (`Routine.Brief`).
-/

namespace Parley

variable {ρ α : Type}

namespace TypedFunction

variable (F : TypedFunction ρ)

/-- The outcome of a call with some params: they are refused, or the function breaks off, fails or returns, and what it returns is
written if it can be. -/
def outcome (params : Json) : Outcome :=
  match F.shape.read params with
  | .error m => .error (.invalidParams m.message)
  | .ok v =>
    match F.body v with
    | .panics p => .error (.panicked p.message)
    | .returns (.error f) => .error f
    | .returns (.ok r) =>
      match F.write r with
      | .error e => .error (.serialization e)
      | .ok result => .ok result

/-- Where the panic of a blocking call is caught. -/
theorem caught_blocking (c : Call) : (F.blocking c).caught = F.outcome c.params := by
  unfold blocking outcome Call.read
  cases F.shape.read c.params with
  | error m => rfl
  | ok v =>
    simp only
    cases F.body v with
    | panics p => rfl
    | returns r =>
      cases r with
      | error f => rfl
      | ok r =>
        simp only [Attempt.map, Attempt.caught, ending]
        cases F.write r <;> rfl

/-- A worker passes on what a blocking call comes to. -/
theorem ofThread_joined (a : Attempt Outcome) : Outcome.ofThread a.joined = a.caught := by
  cases a <;> rfl

/-- It makes no difference whether an asynchronous call breaks off before there is a future or when the future is run. -/
theorem awaited_future (early : Bool) (c : Call) : awaited (F.future early c) = F.outcome c.params := by
  rw [← caught_blocking]
  unfold future blocking
  cases c.read F.shape with
  | error f => rfl
  | ok v =>
    simp only
    cases early <;> cases F.body v <;> rfl

end TypedFunction

/-! ## Routines that only compute -/

/-- A routine does no more than to come to an outcome. -/
inductive Routine.Brief (o : Outcome) : Routine α → Prop
  | done : Brief o (.done o)
  | pass {update : Site α → Site α} {next : Site α → Routine α} (hu : ∀ s, update s = s) (hn : ∀ s, next s = .done o) :
    Brief o (.act update next)

namespace Routine.Brief

variable {o o' : Outcome} {r r' : Routine α}

/-- It comes to one outcome only. -/
theorem eq_of_done (h : (Routine.done o' : Routine α).Brief o) : o' = o := by
  cases h
  rfl

/-- However far it has gone, it only computes. -/
theorem leads (h : r.Brief o) (hl : r.Leads r') : r'.Brief o := by
  cases hl with
  | refl => exact h
  | act hl =>
    cases h with
    | pass hu hn =>
      rw [hn] at hl
      cases hl
      exact .done
  | reply => cases h
  | wait => cases h
  | invoke => cases h

theorem lawful (h : r.Brief o) : r.Lawful := by
  cases h with
  | done => exact lawful_done o
  | pass hu hn =>
    refine ⟨fun s => ?_, fun s => ?_⟩
    · rw [hu]
      exact .refl _
    · rw [hn]
      exact lawful_done o

end Routine.Brief

/-- A handler does no more than to compute an outcome from the params. -/
structure Handler.Computes (outcome : Json → Outcome) (b : Handler α) : Prop where
  direct : ∀ run, b = .direct run → ∀ c s, run c s = (outcome c.params, s)
  routine : ∀ c, (b.routine c).Brief (outcome c.params)
  /-- A coroutine computes when it is made. -/
  coroutine : b.mode = .coroutine → ∀ c, b.routine c = .done (outcome c.params)

namespace Handler.Computes

variable {outcome : Json → Outcome} {b : Handler α}

theorem lawful (h : b.Computes outcome) : b.Lawful := by
  cases b with
  | direct run =>
    intro c s
    rw [h.direct run rfl c s]
    exact .refl _
  | coroutine body => exact fun c => (h.routine c).lawful
  | threaded body => exact fun c => (h.routine c).lawful

end Handler.Computes

namespace TypedFunction

variable (F : TypedFunction ρ)

/-- A direct call leaves the site as it is. -/
theorem computes_direct : (F.direct (α := α)).Computes F.outcome := by
  have hrun (c : Call) (s : Site α) : ((F.blocking c).caught, s) = (F.outcome c.params, s) := by rw [F.caught_blocking]
  refine ⟨?_, fun c => .pass (fun s => rfl) fun s => congrArg (fun r => Routine.done (Prod.fst r)) (hrun c s), nofun⟩
  rintro run ⟨⟩
  exact hrun

/-- A function can be made into a handler in each way, and whatever the way it only computes. -/
theorem exists_register (k : Registration) :
    ∃ b : Handler α, F.register k = .ok b ∧ b.mode = k.mode ∧ b.Computes F.outcome := by
  cases k with
  | direct => exact ⟨_, rfl, rfl, F.computes_direct⟩
  | coroutine early =>
    refine ⟨_, rfl, rfl, nofun, fun c => ?_, fun _ c => ?_⟩
    · simp only [coroutine, Handler.routine, F.awaited_future]
      exact .done
    · simp only [coroutine, Handler.routine, F.awaited_future]
  | threaded =>
    refine ⟨_, rfl, rfl, nofun, fun c => ?_, nofun⟩
    simp only [threaded, Handler.routine, ofThread_joined, F.caught_blocking]
    exact .done
  | offloaded =>
    -- The routine of the direct handler runs where the one of a threaded handler does.
    exact ⟨_, rfl, rfl, nofun, F.computes_direct.routine, nofun⟩

/-- So it is of every handler that was made of it. -/
theorem register_computes {k : Registration} {b : Handler α} (h : F.register k = .ok b) :
    b.mode = k.mode ∧ b.Computes F.outcome := by
  obtain ⟨b', h', hb⟩ := F.exists_register (α := α) k
  obtain rfl := Except.ok.inj (h.symm.trans h')
  exact hb

end TypedFunction

namespace Demo

/-- Addition as the demo server has it, as a function. -/
def addition : TypedFunction Int where
  shape := Shape.struct "AddParams" [Shape.req "a" Shape.i64, Shape.req "b" Shape.i64]
  body params :=
    let sum := params.intField "a" + params.intField "b"
    if -Nat.pow 2 63 ≤ sum ∧ sum < Nat.pow 2 63 then .returns (.ok sum) else .panics (.literal "attempt to add with overflow")
  write sum := .ok (Json.object [("sum", .int sum)])

end Demo

end Parley
