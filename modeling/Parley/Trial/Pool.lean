import Parley.Worker.Pool

/-!
# Jobs one after the other

A pool that somebody uses alone: each job is done before the next one is wanted.
-/

namespace Parley.Pool

/-- Has a job done, given how its work comes out and whether it was cancelled before. -/
def run (p : Pool) (work : Outcome) (cancelled : Bool) : Outcome × Pool :=
  let n := p.errands.length
  let p := p.follow [.submit cancelled, .grant n, .poll n, .finish n (.ok work), .poll n]
  ((p.outcome? n).getD (.error .cancelled), p)

end Parley.Pool
