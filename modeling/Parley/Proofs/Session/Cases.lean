import Mathlib.Logic.Relation
import Parley.Session.Run

/-!
# What a step can do

Everything that handing back an outcome, a turn of a fiber, a payload, a worker and a round of the loop can come to, case by case.
`settled_settle`, `driven_driveFiber`, `handled_receive`, `worked_of_stepWorker` and `rounds_takePayloads` say that nothing else
happens, so that a fact about all steps is proved by cases, without opening the steps themselves.
-/

namespace Parley

namespace Session

variable {α : Type}

/-- The session with a fiber set aside. -/
def without (s : Session α) (n : Nat) : Session α := { s with fibers := s.fibers.erase n }

theorem find?_store_self (s : Session α) (n : Nat) (f : Fiber α) : (s.store n f).fibers.find? n = some f := by
  rw [store, Table.find?_insert, if_pos rfl]

theorem find?_store_of_ne {n m : Nat} (h : m ≠ n) (s : Session α) (f : Fiber α) :
    (s.store n f).fibers.find? m = s.fibers.find? m := by
  rw [store, Table.find?_insert, if_neg h]

theorem find?_without_self (s : Session α) (n : Nat) : (s.without n).fibers.find? n = none := by
  rw [without, Table.find?_erase, if_pos rfl]

theorem find?_without_of_ne {n m : Nat} (h : m ≠ n) (s : Session α) : (s.without n).fibers.find? m = s.fibers.find? m := by
  rw [without, Table.find?_erase, if_neg h]

/-- A fiber that is there while another is set aside is a fiber of the session. -/
theorem find?_of_without {s : Session α} {n m : Nat} {f : Fiber α} (h : (s.without n).fibers.find? m = some f) :
    s.fibers.find? m = some f := by
  by_cases hm : m = n
  · rw [hm, find?_without_self] at h
    cases h
  · rwa [find?_without_of_ne hm] at h

/-- A fiber of a session is the one that was put there, or was there before. -/
theorem find?_of_store {s : Session α} {n m : Nat} {f g : Fiber α} (h : (s.store n f).fibers.find? m = some g) :
    m = n ∧ g = f ∨ (s.without n).fibers.find? m = some g := by
  by_cases hm : m = n
  · rw [hm, find?_store_self] at h
    exact .inl ⟨hm, (Option.some.inj h).symm⟩
  · rw [find?_store_of_ne hm] at h
    exact .inr ((find?_without_of_ne hm s).trans h)

/-- What comes of the outcome of a job. -/
inductive Settled (s : Session α) (j : Job) (o : Outcome) : Session α → Prop where
  /-- No job follows. -/
  | last {s₁ : Session α} (h : s.handBack j o = (s₁, none)) : Settled s j o s₁
  /-- The job that follows is done at once. -/
  | done {s₁ s₂ : Session α} {next : Job} {o' : Outcome} (h : s.handBack j o = (s₁, some next))
      (hd : s₁.runDirect next = (o', s₂)) : Settled s j o (s₂.handBack next o').1
  /-- The job that follows begins. -/
  | begun {s₁ : Session α} {next : Job} (h : s.handBack j o = (s₁, some next)) (hm : next.mode ≠ .direct) :
      Settled s j o (s₁.spawn (s₁.fiberOf next))

/-- Nothing else comes of the outcome of a job. -/
theorem settled_settle (s : Session α) (j : Job) (o : Outcome) : Settled s j o (s.settle j o) := by
  unfold settle
  cases h : s.handBack j o with
  | mk s₁ job =>
    cases job with
    | none => exact .last h
    | some next =>
      simp only
      split
      · exact .done h rfl
      · rename_i hm
        exact .begun h hm

/-- What comes of the end of a call, for the job of its fiber if it has one. -/
inductive Ended (s : Session α) (o : Outcome) : Option Job → Session α → Prop where
  | alone : Ended s o none s
  | settled {j : Job} {s' : Session α} (h : Settled s j o s') : Ended s o (some j) s'

/-- The session behind a call that ends early: what it was given is given back, and a worker stays at work for nobody. -/
def dismiss (s : Session α) (n : Nat) (f : Fiber α) : Session α :=
  if f.place = .worker then (s.giveBack f).store n { f with job := none, guarded := false, callers := [] }
  else (s.giveBack f).without n

/-- What the turn of a fiber comes to. -/
inductive Driven (s : Session α) (n : Nat) (f : Fiber α) : Session α → Prop where
  /-- The token has fired, and the call ends early. -/
  | cancelled {s' : Session α} (hg : f.guarded = true) (hf : s.isFired f.call.token = true)
      (he : Ended (s.dismiss n f) (.error .cancelled) f.job s') : Driven s n f s'
  /-- The call waits. -/
  | waits {s₁ : Session α} {f' : Fiber α} (hg : f.guarded = true → s.isFired f.call.token = false)
      (hd : s.drive turnBound n f = (s₁, .waits f')) : Driven s n f (s₁.park n f')
  /-- The call ends. -/
  | ends {s₁ s' : Session α} {o : Outcome} (hg : f.guarded = true → s.isFired f.call.token = false)
      (hd : s.drive turnBound n f = (s₁, .ends o)) (he : Ended (s₁.without n) o f.job s') : Driven s n f s'

/-- Nothing else comes of a turn. -/
theorem driven_driveFiber (s : Session α) (n : Nat) (f : Fiber α) : Driven s n f (s.driveFiber n f) := by
  unfold driveFiber
  split
  · rename_i h
    obtain ⟨hg, hf⟩ := Bool.and_eq_true_iff.mp h
    refine .cancelled hg hf ?_
    cases f.job with
    | none => exact .alone
    | some j => exact .settled (settled_settle _ j _)
  · rename_i h
    have hg (hg : f.guarded = true) : s.isFired f.call.token = false := by simpa [hg] using h
    split
    · rename_i s₁ f' hd
      exact .waits hg hd
    · rename_i s₁ o hd
      refine .ends hg hd ?_
      cases f.job with
      | none => exact .alone
      | some j => exact .settled (settled_settle _ j o)

/-- What comes of a payload. -/
inductive Handled (s : Session α) (payload : Bytes) : Session α → Prop where
  /-- No job begins. -/
  | answered {connection : Connection} (h : s.site.connection.receive payload = (connection, none)) :
      Handled s payload (s.withConnection connection).rouse
  /-- A job is done at once. -/
  | done {connection : Connection} {j : Job} {s₁ s' : Session α} {o : Outcome}
      (h : s.site.connection.receive payload = (connection, some j))
      (hd : (s.withConnection connection).rouse.runDirect j = (o, s₁)) (hs : Settled s₁ j o s') : Handled s payload s'
  /-- A job begins, and its fiber has its first turn at once. -/
  | begun {connection : Connection} {j : Job} {s₁ s' : Session α}
      (h : s.site.connection.receive payload = (connection, some j)) (hm : j.mode ≠ .direct)
      (h₁ : (s.withConnection connection).rouse = s₁)
      (hd : Driven { s₁ with nextFiber := s₁.nextFiber + 1 } s₁.nextFiber (s₁.fiberOf j) s') : Handled s payload s'
  /-- A job begins. -/
  | spawned {connection : Connection} {j : Job} {s₁ : Session α}
      (h : s.site.connection.receive payload = (connection, some j)) (hm : j.mode ≠ .direct)
      (h₁ : (s.withConnection connection).rouse = s₁) : Handled s payload (s₁.spawn (s₁.fiberOf j))

/-- Nothing else comes of a payload. -/
theorem handled_receive (s : Session α) (payload : Bytes) : Handled s payload (s.receive payload).1 := by
  unfold receive
  cases h : s.site.connection.receive payload with
  | mk connection job =>
    cases job with
    | none => exact .answered h
    | some j =>
      simp only
      split
      · exact .done h rfl (settled_settle _ j _)
      · rename_i hm
        split
        · exact .begun h hm rfl (driven_driveFiber _ _ _)
        · exact .spawned h hm rfl

/-- What a fiber on a worker comes to when it goes on, whether it passes one node or many. -/
inductive Worked (s : Session α) (n : Nat) : Session α → Prop where
  /-- The body has ended: the fiber leaves the worker and has a turn. -/
  | back {fuel : Nat} {s₁ : Session α} {f f' : Fiber α} {o : Outcome} (hf : s.fibers.find? n = some f)
      (hd : s.driveWorker fuel f false = (s₁, f', true)) (hr : f'.routine = .done o) :
      Worked s n
        (({ s₁.store n { f' with place := .here } with running := s₁.running.filter (· ≠ n) }.freeWorker).wake n)
  /-- The body waits, or others go on first. -/
  | stays {fuel : Nat} {s₁ : Session α} {f f' : Fiber α} (hf : s.fibers.find? n = some f)
      (hd : s.driveWorker fuel f false = (s₁, f', true)) : Worked s n (s₁.store n f')

/-- A step of a worker is a row of nodes. -/
theorem worked_of_stepWorker {s s' : Session α} {n : Nat} (h : s.stepWorker n = some s') : Worked s n s' := by
  simp only [stepWorker] at h
  split at h
  · cases h
  · rename_i f hf
    split at h
    · cases h
    · rename_i s₁ f' hd
      split at h
      · rename_i o hr
        obtain rfl := Option.some.inj h
        exact .back hf hd hr
      · obtain rfl := Option.some.inj h
        exact .stays hf hd

/-- All that the loop can do at one time. -/
inductive Round (s : Session α) : Session α → Prop where
  | stopped (hs : s.stopping = true) : Round s (s.finish .stopped)
  | exited {code : Int} (hc : s.site.connection.exitCode = some code) : Round s (s.finish (.exit code))
  /-- Nothing has arrived. -/
  | idle (hs : s.stopping = false) (hc : s.site.connection.exitCode = none) (hn : s.source.next = none) : Round s s
  | serves {payload : Bytes} {source : Source} {s₁ : Session α} (hc : s.site.connection.exitCode = none)
      (hn : s.source.next = some (.payload payload, source)) (hr : receive { s with source } payload = (s₁, none)) : Round s s₁
  /-- The loop waits until the call that began is done. -/
  | awaits {payload : Bytes} {source : Source} {s₁ : Session α} {n : Nat} (hc : s.site.connection.exitCode = none)
      (hn : s.source.next = some (.payload payload, source)) (hr : receive { s with source } payload = (s₁, some n)) :
      Round s { s₁ with intake := .busy n }
  | closed {source : Source} (hc : s.site.connection.exitCode = none) (hn : s.source.next = some (.ended, source)) :
      Round s (Session.finish { s with source } .peerClosed)
  | breaks {source : Source} {f : Frame.FrameFault} (hn : s.source.next = some (.fault f, source)) (hb : f.breaksOff = true) :
      Round s { s with source, intake := .broken }
  | failed {source : Source} {f : Frame.FrameFault} (hc : s.site.connection.exitCode = none)
      (hn : s.source.next = some (.fault f, source)) (hb : f.breaksOff = false) (hf : f.isFatal = true) :
      Round s ((Session.report { s with source } .transport f.message).finish (.transportError f.message))
  | reports {source : Source} {f : Frame.FrameFault} (hs : s.stopping = false) (hc : s.site.connection.exitCode = none)
      (hn : s.source.next = some (.fault f, source)) (hb : f.breaksOff = false) (hf : f.isFatal = false) :
      Round s (Session.report { s with source } .decode f.message)

/-- What the loop does in a turn is a row of rounds. -/
theorem rounds_takePayloads (s : Session α) (fuel : Nat) : Relation.ReflTransGen Round s (s.takePayloads fuel) := by
  induction fuel generalizing s with
  | zero => exact .refl
  | succ fuel ih =>
    unfold takePayloads
    split
    · rename_i hs
      exact .single (.stopped hs)
    rename_i hs
    rw [Bool.not_eq_true] at hs
    split
    · rename_i hc
      exact .single (.exited hc)
    rename_i hc
    split
    · exact .refl
    rename_i r source hn
    cases r with
    | payload payload =>
      simp only
      cases hr : receive { s with source } payload with
      | mk s₁ waitsFor =>
        cases waitsFor with
        | some n => exact .single (.awaits hc hn hr)
        | none =>
          have hstep : Round s s₁ := .serves hc hn hr
          simp only
          split
          · rename_i hx
            exact .head hstep (.single (.exited hx))
          · exact .head hstep (ih s₁)
    | ended => exact .single (.closed hc hn)
    | fault f =>
      simp only
      split
      · rename_i hb
        exact .single (.breaks hn hb)
      rename_i hb
      rw [Bool.not_eq_true] at hb
      split
      · rename_i hf
        exact .single (.failed hc hn hb hf)
      · rename_i hf
        exact .head (.reports hs hc hn hb (Bool.not_eq_true _ ▸ hf)) (ih _)

end Session

end Parley
