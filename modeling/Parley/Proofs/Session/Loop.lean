import Parley.Proofs.Session.Reachable

/-!
# The loop of a session

How the loop that takes payloads goes through a session. `Session.round` is what it does at one time: it ends, or takes the next of
what has arrived, or finds nothing. Everything else that a session does leaves it alone (`Session.Unread`): nothing is read, and
when an `exit` was processed meanwhile the loop has a turn. `Session.Tick` puts the two together and leaves open which comes when,
so that what holds along all rows of ticks holds however the turns of the loop fall among those of the handlers, and whenever the
peer sends something. What a session does by itself is such a row (`ticks_run`, `ticks_passTime`).
-/

namespace Parley

/-- What has arrived at a source, when more of it has arrived than before. -/
inductive Source.Grows : Source → Source → Prop
  | refl (src : Source) : Grows src src
  | push {src src' : Source} (h : Grows src src') (bytes : Bytes) : Grows src (src'.push bytes)
  | close {src src' : Source} (h : Grows src src') : Grows src src'.close
  | fail {src src' : Source} (h : Grows src src') (f : Frame.FrameFault) : Grows src (src'.fail f)

/-- A source that has grown may grow again. -/
theorem Source.Grows.trans {src src' src'' : Source} (h : Grows src src') (h' : Grows src' src'') : Grows src src'' := by
  induction h' with
  | refl => exact h
  | push _ bytes ih => exact ih.push bytes
  | close _ ih => exact ih.close
  | fail _ f ih => exact ih.fail f

namespace Session

variable {α : Type} {s s' s'' : Session α}

/-- A loop that is to end has a turn: an `exit` was processed, or the session is to stop. -/
def Prompt (s : Session α) : Prop :=
  s.intake = .reading → s.stopping ∨ s.site.connection.exitCode.isSome → .loop ∈ s.ready

/-- From one state to another nothing is read, and no loop that is to end loses its turn. -/
structure Unread (s s' : Session α) : Prop where
  intake : s'.intake = s.intake
  source : s'.source = s.source
  stopping : s'.stopping = s.stopping
  prompt : s.Prompt → s'.Prompt

namespace Unread

theorem refl (s : Session α) : Unread s s := ⟨rfl, rfl, rfl, id⟩

theorem trans (h : Unread s s') (h' : Unread s' s'') : Unread s s'' :=
  ⟨h'.intake.trans h.intake, h'.source.trans h.source, h'.stopping.trans h.stopping, h'.prompt ∘ h.prompt⟩

/-- Where the code is the same and the loop keeps its turn. -/
theorem of_eq (hi : s'.intake = s.intake) (hs : s'.source = s.source) (ht : s'.stopping = s.stopping)
    (hc : s'.site.connection.exitCode = s.site.connection.exitCode) (hr : .loop ∈ s.ready → .loop ∈ s'.ready) :
    Unread s s' := by
  refine ⟨hi, hs, ht, fun hp hi' he => hr (hp (hi ▸ hi') ?_)⟩
  rwa [ht, hc] at he

end Unread

/-! ## What leaves the loop alone -/

theorem unread_store (s : Session α) (n : Nat) (f : Fiber α) : Unread s (s.store n f) := .of_eq rfl rfl rfl rfl id

theorem unread_without (s : Session α) (n : Nat) : Unread s (s.without n) := .of_eq rfl rfl rfl rfl id

/-- Who gets a turn reads nothing. -/
theorem unread_enqueue (s : Session α) (a : Actor) : Unread s (s.enqueue a) := by
  unfold enqueue
  split
  · exact .refl s
  · exact .of_eq rfl rfl rfl rfl (List.mem_append_left _)

/-- Nor does who is woken. -/
theorem unread_wake (s : Session α) (n : Nat) : Unread s (s.wake n) := by
  have hp : Unread s { s with parked := s.parked.filter (· ≠ n) } := .of_eq rfl rfl rfl rfl id
  exact hp.trans (unread_enqueue _ _)

theorem unread_grant (s : Session α) (n : Nat) (f : Fiber α) : Unread s (s.grant n f) :=
  (unread_store s n _).trans (unread_wake _ n)

/-- To hand something on reads nothing. -/
theorem handsOn_unread : HandsOn (Unread (α := α)) :=
  ⟨.refl, .trans, unread_enqueue, unread_wake, fun _ => unread_grant _ _ _, fun _ _ _ => .of_eq rfl rfl rfl rfl id⟩

/-- When the fibers that wait were looked at, a loop that is to end has a turn. -/
theorem prompt_rouse (s : Session α) : s.rouse.Prompt := by
  unfold rouse
  extract_lets able s₁ s₂
  split
  · exact fun _ _ => mem_ready_enqueue _ _
  · rename_i h
    exact fun hi he => absurd ⟨hi, he⟩ h

theorem unread_rouse (s : Session α) : Unread s s.rouse := handsOn_unread.rouse s

/-- Whatever becomes of the site, the loop is told when the fibers that wait are looked at. -/
theorem unread_site (s : Session α) (site : Site α) : Unread s { s with site }.rouse := by
  have hr := unread_rouse { s with site }
  exact ⟨hr.intake, hr.source, hr.stopping, fun _ => prompt_rouse _⟩

/-- A node reads nothing, whatever the routine does. -/
theorem Node.unread {n : Nat} {f : Fiber α} {p : Progress α} (h : Node s n f s' p) : Unread s s' := by
  cases h with
  | refused | dismissed => exact handsOn_unread.giveBack s f
  | seated | hired => exact .of_eq rfl rfl rfl rfl id
  | acts => exact unread_site s _
  | passes hp hr hw => exact handsOn_unread.pass? hw
  | onWorker | queues | returns | ends | answered | unanswered | waits | misses | offloads | invokes => exact .refl s

/-- A routine that has its turn reads nothing. -/
theorem unread_drive (s : Session α) (fuel n : Nat) (f : Fiber α) : Unread s (s.drive fuel n f).1 := by
  induction fuel generalizing s f with
  | zero => exact .refl s
  | succ fuel ih =>
    have hnode := (node_cases s n f).unread
    rw [drive_succ]
    cases (s.node n f).2 with
    | goesOn f' => exact hnode.trans (ih _ _)
    | pauses p => exact hnode

/-- A routine on a worker reads nothing. -/
theorem Labors.unread {f f' : Fiber α} (h : Labors s f s' f') : Unread s s' := by
  induction h with
  | rests | waits => exact .refl _
  | acts hr h ih => exact (unread_site _ _).trans ih
  | answered hr h ih | misses hr h ih => exact ih
  | passes hr hw h ih => exact (handsOn_unread.pass? hw).trans ih

/-- A call that begins reads nothing. -/
theorem unread_spawn (s : Session α) (f : Fiber α) : Unread s (s.spawn f) := by
  have hs : Unread s { s.store s.nextFiber f with nextFiber := s.nextFiber + 1 } := .of_eq rfl rfl rfl rfl id
  exact hs.trans (unread_enqueue _ _)

/-- A direct handler reads nothing. -/
theorem unread_runDirect (s : Session α) (j : Job) : Unread s (s.runDirect j).2 := by
  unfold runDirect
  split
  · exact unread_site s _
  · exact .refl s

/-- The outcome of a job reads nothing. -/
theorem unread_handBack (s : Session α) (j : Job) (o : Outcome) : Unread s (s.handBack j o).1 := unread_site s _

/-- A job that ends reads nothing. -/
theorem Settled.unread {j : Job} {o : Outcome} (h : Settled s j o s') : Unread s s' := by
  have hb := unread_handBack s j o
  cases h with
  | last he =>
    rw [he] at hb
    exact hb
  | @done s₁ s₂ next o' he hd =>
    rw [he] at hb
    have hr := unread_runDirect s₁ next
    rw [hd] at hr
    exact hb.trans (hr.trans (unread_handBack s₂ next o'))
  | begun he hm =>
    rw [he] at hb
    exact hb.trans (unread_spawn _ _)

/-- Nor does a fiber that ends. -/
theorem Ended.unread {job : Option Job} {o : Outcome} (h : Ended s o job s') : Unread s s' := by
  cases h with
  | alone => exact .refl s
  | settled h => exact h.unread

/-- Or one that is dismissed. -/
theorem unread_dismiss (s : Session α) (n : Nat) (f : Fiber α) : Unread s (s.dismiss n f) := by
  unfold dismiss
  split
  · exact (handsOn_unread.giveBack s f).trans (unread_store _ _ _)
  · exact (handsOn_unread.giveBack s f).trans (unread_without _ _)

/-- The turn of a fiber reads nothing. -/
theorem Driven.unread {n : Nat} {f : Fiber α} (h : Driven s n f s') : Unread s s' := by
  have hd := unread_drive s turnBound n f
  cases h with
  | cancelled _ _ he => exact (unread_dismiss s n f).trans he.unread
  | @waits s₁ f' _ he =>
    rw [he] at hd
    have hp : Unread s₁ (s₁.park n f') := .of_eq rfl rfl rfl rfl id
    exact hd.trans hp
  | @ends s₁ _ o _ he hs =>
    rw [he] at hd
    exact hd.trans ((unread_without s₁ n).trans hs.unread)

/-- When the connection has taken a payload, what comes of it reads no other. -/
theorem Handled.unread {payload : Bytes} (h : Handled s payload s') :
    ∃ connection, Unread (s.withConnection connection).rouse s' := by
  cases h with
  | @answered connection => exact ⟨connection, .refl _⟩
  | @done connection j s₁ _ o he hd hs =>
    have hr := unread_runDirect (s.withConnection connection).rouse j
    rw [hd] at hr
    exact ⟨connection, hr.trans hs.unread⟩
  | @begun connection j s₁ _ he hm h₁ hd =>
    have hn : Unread s₁ { s₁ with nextFiber := s₁.nextFiber + 1 } := .of_eq rfl rfl rfl rfl id
    exact ⟨connection, h₁ ▸ hn.trans hd.unread⟩
  | @spawned connection j s₁ he hm h₁ => exact ⟨connection, h₁ ▸ unread_spawn s₁ _⟩

/-- A fiber that goes on on a worker reads nothing. -/
theorem Worked.unread {n : Nat} (h : Worked s n s') : Unread s s' := by
  cases h with
  | @back k s₁ f f' o hf hd hr =>
    have hl : Unread s₁ { s₁.store n { f' with place := .here } with running := s₁.running.filter (· ≠ n) } :=
      .of_eq rfl rfl rfl rfl id
    exact (labors_of_eq hd).unread.trans (hl.trans ((handsOn_unread.freeWorker _).trans (unread_wake _ n)))
  | @stays k s₁ f f' hf hd =>
    exact (labors_of_eq hd).unread.trans (unread_store s₁ n f')

/-- The writer reads nothing. -/
theorem unread_write (s : Session α) : Unread s s.write := by
  unfold write
  split
  · exact .refl s
  · split
    · exact .refl s
    · refine .of_eq rfl rfl rfl ?_ id
      simp only [withConnection]
      split <;> rfl

/-! ## Rounds -/

/-- What the loop does at one time: it ends, or takes the next of what has arrived, or finds nothing. -/
def round (s : Session α) : Session α :=
  if s.stopping then s.finish .stopped
  else
    match s.site.connection.exitCode with
    | some code => s.finish (.exit code)
    | none =>
      match s.source.next with
      | none => s
      | some (r, source) =>
        let s := { s with source }
        match r with
        | .payload payload =>
          match s.receive payload with
          | (s, some n) => { s with intake := .busy n }
          | (s, none) => s
        | .ended => s.finish .peerClosed
        | .fault f =>
          if f.breaksOff then { s with intake := .broken }
          else if f.isFatal then (s.report .transport f.message).finish (.transportError f.message)
          else s.report .decode f.message

/-- A round is what the loop can do at one time. -/
theorem round_cases (s : Session α) : Round s s.round := by
  unfold round
  split
  · rename_i hs
    exact .stopped hs
  rename_i hs
  rw [Bool.not_eq_true] at hs
  split
  · rename_i hc
    exact .exited hc
  rename_i hc
  split
  · rename_i hn
    exact .idle hs hc hn
  rename_i r source hn
  cases r with
  | payload payload =>
    simp only
    cases hr : receive { s with source } payload with
    | mk s₁ waitsFor =>
      cases waitsFor with
      | some n => exact .awaits hc hn hr
      | none => exact .serves hc hn hr
  | ended => exact .closed hc hn
  | fault f =>
    simp only
    split
    · rename_i hb
      exact .breaks hn hb
    rename_i hb
    rw [Bool.not_eq_true] at hb
    split
    · rename_i hf
      exact .failed hc hn hb hf
    · rename_i hf
      exact .reports hs hc hn hb (Bool.not_eq_true _ ▸ hf)

/-- The loop goes on when what it waited for is done. -/
def resume (s : Session α) : Session α :=
  match s.site.connection.exitCode with
  | some code => s.finish (.exit code)
  | none => { s with intake := .reading }.round

/-- The loop goes through one round. -/
def Reads (s s' : Session α) : Prop := s.intake = .reading ∧ s' = s.round

@[simp] theorem intake_finish (s : Session α) (r : Reason) : (s.finish r).intake = .ended r := (unread_rouse _).intake

/-- What comes of a payload leaves the loop where it is. -/
theorem unread_receive (s : Session α) (payload : Bytes) : Unread s (s.receive payload).1 := by
  obtain ⟨connection, h⟩ := (handled_receive s payload).unread
  exact (unread_site s _).trans h

/-- When a payload was taken, a loop that is to end has a turn. -/
theorem prompt_receive (s : Session α) (payload : Bytes) : (s.receive payload).1.Prompt := by
  obtain ⟨connection, h⟩ := (handled_receive s payload).unread
  exact h.prompt (prompt_rouse _)

/-- Where the loop has ended, it is not to end. -/
theorem prompt_of_intake (h : s.intake ≠ .reading) : s.Prompt := fun hi => absurd hi h

/-- After a round a loop that is to end has a turn. -/
theorem prompt_round (s : Session α) : s.round.Prompt := by
  have goesOn {s' : Session α} (hs : s.stopping = false) (hc : s.site.connection.exitCode = none)
      (ht : s'.stopping = s.stopping) (he : s'.site.connection.exitCode = s.site.connection.exitCode) : s'.Prompt := by
    intro _ h
    rw [ht, he, hs, hc] at h
    simp at h
  have hround := round_cases s
  generalize s.round = s' at hround ⊢
  cases hround with
  | stopped | exited | awaits | closed | breaks | failed => exact prompt_of_intake (by simp)
  | idle hs hc | reports hs hc => exact goesOn hs hc rfl rfl
  | @serves payload source s₁ hc hn hr =>
    have hp := prompt_receive { s with source } payload
    rwa [hr] at hp

/-- What the loop does in one turn it does round by round. -/
theorem reads_takePayloads (fuel : Nat) (hi : s.intake = .reading) :
    Relation.ReflTransGen Reads s.round (s.takePayloads (fuel + 1)) := by
  -- One unfolding serves both cases of the induction: `ih` stands for all that comes behind the first round.
  have rest (fuel : Nat) (ih : ∀ s : Session α, s.intake = .reading →
      Relation.ReflTransGen Reads s (s.takePayloads fuel)) (s : Session α) (hi : s.intake = .reading) :
      Relation.ReflTransGen Reads s.round (s.takePayloads (fuel + 1)) := by
    unfold takePayloads round
    by_cases hs : s.stopping
    · rw [if_pos hs, if_pos hs]
    rw [if_neg hs, if_neg hs]
    cases hc : s.site.connection.exitCode with
    | some code => exact .refl
    | none =>
      cases hn : s.source.next with
      | none => exact .refl
      | some e =>
        obtain ⟨r, source⟩ := e
        cases r with
        | payload payload =>
          have hu := unread_receive { s with source } payload
          simp only
          cases hr : receive { s with source } payload with
          | mk s₁ waitsFor =>
            rw [hr] at hu
            have hi₁ : s₁.intake = .reading := hu.intake.trans hi
            cases waitsFor with
            | some n => exact .refl
            | none =>
              simp only
              cases hx : s₁.site.connection.exitCode with
              | some code =>
                have ht : s₁.stopping = s.stopping := hu.stopping
                -- The turn notices the `exit` at once, and round by round it is the next one that does.
                refine .single ⟨hi₁, ?_⟩
                rw [round, if_neg (ht ▸ hs)]
                simp only [hx]
              | none => exact ih s₁ hi₁
        | ended => exact .refl
        | fault f =>
          simp only
          by_cases hb : f.breaksOff
          · rw [if_pos hb, if_pos hb]
          rw [if_neg hb, if_neg hb]
          by_cases hf : f.isFatal
          · rw [if_pos hf, if_pos hf]
          · rw [if_neg hf, if_neg hf]
            exact ih _ hi
  induction fuel generalizing s with
  | zero => exact rest 0 (fun _ _ => .refl) s hi
  | succ fuel ih => exact rest (fuel + 1) (fun s hi => .head ⟨hi, rfl⟩ (ih hi)) s hi

/-- What the loop does in a round uses up no turn. -/
theorem alongside_round (s : Session α) : Alongside s s.round := spansLoop_alongside.round (round_cases s)

/-- The loop that goes on uses up no turn. -/
theorem alongside_resume (s : Session α) : Alongside s s.resume := by
  unfold resume
  split
  · exact (onward_finish s _).alongside
  · have hs : Onward s { s with intake := .reading } := .of_eq rfl rfl rfl rfl rfl rfl rfl
    exact hs.alongside.trans (alongside_round _)

/-! ## Ticks -/

/-- A turn that the loop has no use for is no loss to it. -/
theorem unread_taken {a : Actor} (h : s.intake = .reading → a ≠ .loop) : Unread s (s.taken a) := by
  refine ⟨rfl, rfl, rfl, fun hp hi he => ?_⟩
  exact (List.mem_erase_of_ne (h hi).symm).mpr (hp hi he)

/-- Something happens in a session that the loop has no part in. -/
inductive Apart (s : Session α) : Session α → Prop
  /-- Something that no call has a part in either. -/
  | onward {s' : Session α} (h : Onward s s') (hu : Unread s s') : Apart s s'
  /-- A turn is used up for nothing. -/
  | pass {a : Actor} (ha : ∀ n, a = .fiber n → s.fibers.find? n = none) (hl : s.intake = .reading → a ≠ .loop) :
    Apart s (s.taken a)
  /-- A fiber has its turn. -/
  | turn {n : Nat} {f : Fiber α} (hn : .fiber n ∈ s.ready) (hf : s.fibers.find? n = some f) :
    Apart s ((s.taken (.fiber n)).driveFiber n f)
  /-- A fiber on a worker goes on. -/
  | worker {s' : Session α} {n : Nat} (hn : n ∈ s.running) (h : s.stepWorker n = some s') : Apart s s'
  /-- A routine begins on its own. -/
  | begin {r : Routine α} (hr : r.Lawful) : Apart s (s.begin r)

/-- What happens apart from the loop is a step. -/
theorem Apart.next (h : Apart s s') : Next s s' := by
  cases h with
  | onward h => exact .aside (.onward h)
  | pass ha => exact .pass ha
  | turn hn hf => exact .turn hn hf
  | worker hn h => exact .aside (.worker hn (worked_of_stepWorker h))
  | begin hr => exact .aside (.begin s hr)

/-- And reads nothing. -/
theorem Apart.unread (h : Apart s s') : Unread s s' := by
  cases h with
  | onward _ hu => exact hu
  | pass _ hl => exact unread_taken hl
  | @turn n f hn hf =>
    have ht : Unread s (s.taken (.fiber n)) := unread_taken fun _ => by simp
    exact ht.trans (driven_driveFiber _ n f).unread
  | worker _ h => exact (worked_of_stepWorker h).unread
  | begin => exact unread_spawn s _

/-- Something happens in a session, whichever is next. -/
inductive Tick (s : Session α) : Session α → Prop
  /-- The loop goes on with what has arrived. -/
  | read (h : s.intake = .reading) : Tick s s.round
  /-- The loop has its turn. -/
  | turn (h : s.intake = .reading) : Tick s (s.taken .loop).round
  /-- The loop goes on when the fiber that it waited for is gone. -/
  | resume {n : Nat} (h : s.intake = .busy n) (hn : s.fibers.find? n = none) : Tick s s.resume
  /-- The loop has no part in it. -/
  | apart {s' : Session α} (h : Apart s s') : Tick s s'
  /-- More arrives. -/
  | arrive {source : Source} (h : s.source.Grows source) : Tick s { s with source }.nudge
  /-- The session is told to stop. -/
  | stop : Tick s s.stop

/-- A session comes to a state by ticks. -/
abbrev Ticks (s s' : Session α) : Prop := Relation.ReflTransGen Tick s s'

/-- A tick is a row of steps. -/
theorem Tick.later (h : Tick s s') : Later s s' := by
  cases h with
  | read => exact (alongside_round s).later
  | turn => exact .head (.pass (fun n hn => by cases hn)) (alongside_round _).later
  | resume => exact (alongside_resume s).later
  | apart h => exact .single h.next
  | arrive => exact (onward_source s _).later
  | stop =>
    have hs : Onward s { s with stopping := true } := .of_eq rfl rfl rfl rfl rfl rfl rfl
    exact (hs.trans (onward_rouse _)).later

/-- And so is a row of ticks. -/
theorem Ticks.later (h : Ticks s s') : Later s s' := by
  induction h with
  | refl => exact .refl
  | tail _ h ih => exact ih.trans h.later

/-- A loop that is to end never loses its turn. -/
theorem Tick.prompt (h : Tick s s') (hp : s.Prompt) : s'.Prompt := by
  cases h with
  | read => exact prompt_round _
  | turn => exact prompt_round _
  | resume =>
    unfold Session.resume
    split
    · exact prompt_of_intake (by simp)
    · exact prompt_round _
  | apart h => exact h.unread.prompt hp
  | @arrive source h =>
    have hs : Session.Prompt { s with source } := hp
    unfold nudge
    split
    · exact (unread_enqueue _ _).prompt hs
    · exact hs
  | stop => exact prompt_rouse _

/-- A prompt loop stays so. -/
theorem Ticks.prompt (h : Ticks s s') (hp : s.Prompt) : s'.Prompt := by
  induction h with
  | refl => exact hp
  | tail _ h ih => exact h.prompt ih

/-! ## How the loop ends, and what it waits for -/

/-- What the loop finds when it ends, by the reason that it ends for. -/
inductive EndsFor (s : Session α) : Reason → Prop
  /-- An `exit` was processed. -/
  | exit {code : Int} (h : s.site.connection.exitCode = some code) : EndsFor s (.exit code)
  /-- The session is to stop. -/
  | stopped (h : s.stopping = true) : EndsFor s .stopped
  /-- The source has ended. -/
  | closed {source : Source} (hc : s.site.connection.exitCode = none) (h : s.source.next = some (.ended, source)) :
    EndsFor s .peerClosed
  /-- The source has failed. -/
  | failed {source : Source} {f : Frame.FrameFault} (hc : s.site.connection.exitCode = none)
      (h : s.source.next = some (.fault f, source)) (hb : f.breaksOff = false) (hf : f.isFatal = true) :
      EndsFor s (.transportError f.message)

/-- A loop that has not ended ends in a round for a reason that it finds there. -/
theorem endsFor_of_round {r : Reason} (hi : s.intake ≠ .ended r) (h : s.round.intake = .ended r) : s.EndsFor r := by
  have hround := round_cases s
  generalize s.round = s' at hround h
  cases hround with
  | stopped hs =>
    obtain rfl := Intake.ended.inj ((intake_finish s _).symm.trans h)
    exact .stopped hs
  | exited hc =>
    obtain rfl := Intake.ended.inj ((intake_finish s _).symm.trans h)
    exact .exit hc
  | idle => exact absurd h hi
  | @serves payload source s₁ hc hn hr =>
    have hu := (unread_receive { s with source } payload).intake
    rw [hr] at hu
    exact absurd (hu.symm.trans h) hi
  | awaits => cases h
  | closed hc hn =>
    obtain rfl := Intake.ended.inj ((intake_finish _ _).symm.trans h)
    exact .closed hc hn
  | breaks => cases h
  | failed hc hn hb hf =>
    obtain rfl := Intake.ended.inj ((intake_finish _ _).symm.trans h)
    exact .failed hc hn hb hf
  | reports => exact absurd h hi

/-- However a loop comes to its end, it ends for a reason that it finds where it ends. -/
theorem Tick.endsFor {r : Reason} (h : Tick s s') (hi : s.intake ≠ .ended r) (he : s'.intake = .ended r) : s.EndsFor r := by
  cases h with
  | read => exact endsFor_of_round hi he
  | turn =>
    have ht : (s.taken .loop).EndsFor r := endsFor_of_round hi he
    cases ht with
    | exit h => exact .exit h
    | stopped h => exact .stopped h
    | closed hc h => exact .closed hc h
    | failed hc h hb hf => exact .failed hc h hb hf
  | resume =>
    unfold Session.resume at he
    split at he
    · rename_i code hc
      obtain rfl := Intake.ended.inj ((intake_finish s _).symm.trans he)
      exact .exit hc
    · have hr : Session.EndsFor { s with intake := .reading } r := endsFor_of_round (by simp) he
      cases hr with
      | exit h => exact .exit h
      | stopped h => exact .stopped h
      | closed hc h => exact .closed hc h
      | failed hc h hb hf => exact .failed hc h hb hf
  | apart h => exact absurd (h.unread.intake.symm.trans he) hi
  | arrive =>
    unfold nudge at he
    split at he
    · exact absurd ((unread_enqueue _ _).intake.symm.trans he) hi
    · exact absurd he hi
  | stop => exact absurd ((unread_rouse _).intake.symm.trans he) hi

/-- A loop that is to end because of an `exit` does so in its next round, whatever has arrived meanwhile. -/
theorem intake_round_of_exitCode {code : Int} (hs : s.stopping = false) (hc : s.site.connection.exitCode = some code) :
    s.round.intake = .ended (.exit code) := by
  simp [round, hs, hc]

/-- So does a loop that waited for a fiber. -/
theorem intake_resume_of_exitCode {code : Int} (hc : s.site.connection.exitCode = some code) :
    s.resume.intake = .ended (.exit code) := by
  simp [resume, hc]

/-- A loop that waits for a fiber waits on and reads nothing, unless the fiber is gone. -/
theorem Tick.waits {n : Nat} (h : Tick s s') (hi : s.intake = .busy n) (hn : s.fibers.find? n ≠ none) :
    s'.intake = .busy n ∧ s.source.Grows s'.source := by
  cases h with
  | read hr => simp [hi] at hr
  | turn hr => simp [hi] at hr
  | resume hb hg =>
    obtain rfl := Intake.busy.inj (hi.symm.trans hb)
    exact absurd hg hn
  | apart h => exact ⟨h.unread.intake.trans hi, h.unread.source ▸ .refl _⟩
  | @arrive source hg =>
    unfold nudge
    split
    · rename_i hr
      simp [hi] at hr
    · exact ⟨hi, hg⟩
  | stop =>
    have hu := unread_rouse { s with stopping := true }
    have hs : s.stop.source = s.source := hu.source
    exact ⟨hu.intake.trans hi, hs ▸ .refl _⟩

/-- Whatever happens while the loop waits for a fiber, it waits on and reads nothing until the fiber is gone. -/
theorem Ticks.waits {n : Nat} (h : Ticks s s') (hi : s.intake = .busy n) :
    (s'.intake = .busy n ∧ s.source.Grows s'.source) ∨
      ∃ v, Ticks s v ∧ Ticks v s' ∧ v.fibers.find? n = none ∧ v.intake = .busy n ∧ s.source.Grows v.source := by
  induction h with
  | refl => exact .inl ⟨hi, .refl _⟩
  | @tail v w hv hw ih =>
    rcases ih with ⟨hb, hg⟩ | ⟨v', hv', hs, hn, hb, hg⟩
    · by_cases hn : v.fibers.find? n = none
      · exact .inr ⟨v, hv, .single hw, hn, hb, hg⟩
      · obtain ⟨hb', hg'⟩ := hw.waits hb hn
        exact .inl ⟨hb', hg.trans hg'⟩
    · exact .inr ⟨v', hv', hs.tail hw, hn, hb, hg⟩

/-! ## What a session does by itself -/

/-- To read is to tick. -/
theorem ticks_of_reads (h : Relation.ReflTransGen Reads s s') : Ticks s s' :=
  Relation.ReflTransGen.mono (fun _ _ hr => hr.2 ▸ .read hr.1) _ _ h

/-- The loop goes on behind the fiber that it waited for. -/
theorem ticks_proceed {n : Nat} (h : s.intake = .busy n) (hn : s.fibers.find? n = none) : Ticks s s.proceed := by
  have hr : Tick s s.resume := .resume h hn
  unfold proceed
  split
  · rename_i code hx
    simp only [Session.resume, hx] at hr
    exact .single hr
  · rename_i hx
    simp only [Session.resume, hx] at hr
    exact .head hr (ticks_of_reads (reads_takePayloads 999999 rfl))

/-- The actor whose turn is next has it. -/
theorem ticks_turn {a : Actor} (h : a ∈ s.ready) : Ticks s ((s.taken a).turn a) := by
  cases a with
  | writer =>
    have hp : Tick s (s.taken .writer) := .apart (.pass (fun n hn => by cases hn) fun _ => by simp)
    exact .head hp (.single (.apart (.onward (onward_write _) (unread_write _))))
  | loop =>
    simp only [Session.turn]
    split
    · rename_i hi
      exact .head (.turn hi) (ticks_of_reads (reads_takePayloads 999999 hi))
    · rename_i hi
      exact .single (.apart (.pass (fun n hn => by cases hn) fun hr => absurd hr hi))
  | fiber n =>
    simp only [Session.turn]
    split
    · rename_i hf
      exact .single (.apart (.pass (fun m hm => Actor.fiber.inj hm ▸ hf) fun _ => by simp))
    · rename_i f hf
      have hd : Tick s ((s.taken (.fiber n)).driveFiber n f) := .apart (.turn h hf)
      split
      · rename_i hw
        obtain ⟨hb, hn⟩ : _ = Intake.busy n ∧ _ = none := by simpa [Table.contains] using hw
        exact .head hd (ticks_proceed hb hn)
      · exact .single hd

/-- A run is a row of ticks. -/
theorem ticks_run (s : Session α) (fuel : Nat) : Ticks s (s.run fuel) := by
  induction fuel generalizing s with
  | zero => exact .refl
  | succ fuel ih =>
    unfold run
    split
    · rename_i a rest hr
      rw [taken_of_ready hr]
      exact (ticks_turn (by rw [hr]; exact List.mem_cons_self)).trans (ih _)
    · split
      · rename_i s' hs
        obtain ⟨n, hn, hw⟩ := List.exists_of_findSome?_eq_some hs
        exact .head (.apart (.worker hn hw)) (ih s')
      · split
        · rename_i s' hs
          exact .head (.apart (.onward (onward_stepTimers hs) (handsOn_unread.stepTimers hs))) (ih s')
        · exact .refl

/-! ## What happens from outside -/

/-- More arrives, however it comes: as bytes, as the end, or as a fault. -/
theorem tick_feed (h : s.intake ≠ .none) (bytes : Bytes) : Tick s (s.feed bytes) := by
  rw [feed, if_neg h]
  exact .arrive ((Source.Grows.refl _).push bytes)

/-- The end of the stream is a tick. -/
theorem tick_close (s : Session α) : Tick s s.close := .arrive (Source.Grows.refl _).close

/-- Someone releases a latch or a gate. -/
theorem tick_release (s : Session α) (name : String) : Tick s (s.release name) := by
  have hs : Unread s { s with latches := name :: s.latches } := .of_eq rfl rfl rfl rfl id
  exact .apart (.onward (onward_release s name) (hs.trans ((handsOn_unread.addPermit _ name).trans (unread_rouse _))))

end Session

end Parley
