import Parley.Session.Event

/-!
# Loops

A session whose output comes back to it as input: it receives its own requests, answers them, and receives those answers as
replies.
-/

namespace Parley.Session

variable {α : Type}

/-- Goes on until all wait, what is written beyond the frames already taken coming back; `fuel` bounds the times it does. -/
def loopBackWith : Nat → Session α → Nat → Session α × Nat
  | 0, s, taken => (s, taken)
  | fuel + 1, s, taken =>
    let s := s.settleAll
    match s.written.drop taken with
    | [] => (s, taken)
    | frames => loopBackWith fuel (s.feed frames.flatten) (taken + frames.length)

/-- The bound on the times that output comes back before the next event from outside. -/
def loopBound : Nat := 1000000

/-- Goes on until all wait, with the number of frames that have come back before and after. -/
def loopBack (s : Session α) (taken : Nat) : Session α × Nat := s.loopBackWith loopBound taken

end Parley.Session
