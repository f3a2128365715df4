import Parley.Ledger.Failure

/-!
# Fibonacci numbers

The numbers that a word of 128 bits can hold, computed term by term. A call that is cancelled meanwhile is given up, which is
looked at before each step.
-/

namespace Parley.Demo

/-- The largest number that a term can be. -/
def maxTerm : Nat := Nat.pow 2 128 - 1

/-- Goes so many steps on from the term of a number and the one behind it. Before a step, `cancelled` says of the number of the
term whether the call is found cancelled there. A step fails if the term two further on is too large. -/
def termsOn (cancelled : Nat → Bool) : Nat → Nat → Nat → Nat → Except Failure Nat
  | 0, _, a, _ => .ok a
  | n + 1, i, a, b =>
    if cancelled i then .error .cancelled
    else if maxTerm < a + b then .error (.failed "overflow")
    else termsOn cancelled n (i + 1) b (a + b)

/-- The `n`-th Fibonacci number, for a call that is found cancelled where `cancelled` says so. -/
def fibonacciTerm (cancelled : Nat → Bool) (n : Nat) : Except Failure Nat := termsOn cancelled n 0 0 1

end Parley.Demo
