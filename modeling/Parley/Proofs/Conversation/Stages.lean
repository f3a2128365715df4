import Parley.Proofs.Conversation.Jobs

/-!
# The stages of a connection

How `shutdown` and `exit` move a conversation through its life. Each of them is taken when its payload comes, and ends with the
outcome of its handler, or at once if it has none. The stage changes when it ends, not when it is taken, and so is the code
recorded (`step_stage`). Whatever was taken has ended or has an open job (`run_farewells`).
-/

namespace Parley

/-- The messages with which the peer ends a connection. -/
inductive Farewell where
  | shutdown
  | exit
  deriving DecidableEq, Repr

/-- The method of the message. -/
def Farewell.method : Farewell → String
  | .shutdown => Connection.shutdownMethod
  | .exit => Connection.exitMethod

/-- The outcome of a job ends this one. -/
def Duty.isFor : Farewell → Duty → Bool
  | .shutdown, .shutdown _ | .exit, .exit => true
  | _, _ => false

namespace Connection

/-- What was read is accepted: a `shutdown` while the service goes on, under an id that is free, or an `exit` before another has
ended. -/
def takes (c : Connection) : Farewell → Except DecodeFault Message → Bool
  | .shutdown, .ok (.request id method _) => method = shutdownMethod ∧ c.lifecycle = .active ∧ c.incoming.contains id = false
  | .exit, .ok (.notification method _) => method = exitMethod ∧ c.lifecycle ≠ .exited
  | _, _ => false

/-- What was read is accepted and ends at once, since it has no handler. -/
def ends (c : Connection) (w : Farewell) (d : Except DecodeFault Message) : Bool :=
  c.takes w d && (c.routes.serving? w.method).isNone

/-- Nothing is both a `shutdown` and an `exit`. -/
theorem not_takes_shutdown_of_exit {c : Connection} {d : Except DecodeFault Message} (h : c.takes .exit d = true) :
    c.takes .shutdown d = false := by
  cases d with
  | error f => rfl
  | ok m => cases m <;> simp_all [takes]

/-- What a payload does to the stage of life and to the code. -/
theorem Received.stage {c : Connection} {d : Except DecodeFault Message} {s : Step} (h : Received c d s) :
    s.1.lifecycle =
      (if c.ends .exit d then .exited
      else if c.ends .shutdown d ∧ c.lifecycle = .active then .shuttingDown else c.lifecycle) ∧
    s.1.exitCode = if c.ends .exit d then some (if c.lifecycle = .shuttingDown then 0 else 1) else c.exitCode := by
  cases h with
  | faulty f => simp [takes, ends, refuse_eq]
  | ignored m h => cases m <;> simp [takes, ends, h]
  | refused h => cases h <;> simp_all [takes, ends, send_eq]
  | begun j ha hb ht hm hn =>
    rcases ht with ⟨rfl, hs, -⟩ | ⟨hs, -⟩
    · simp [takes, ends, Farewell.method, hs]
    · simp [takes, ends, hs]
  | closed ha hb hs =>
    simp [takes, ends, Farewell.method, ha, hs, (Incoming.begin?_eq_some hb).1, completeShutdown_eq]
  | cancelled params h =>
    simp only [receiveCancel]
    split <;> simp [takes, ends, cancelMethod, exitMethod]
  | left params h hs => simp [takes, ends, Farewell.method, h, hs, completeExit_eq]
  | leaving h hs => simp [takes, ends, Farewell.method, h, hs]
  | noted job hc he hl hd => simp [takes, ends, he]
  | answered id v h => simp [takes, ends, receiveReply, resolve, forget]
  | failed id e h => simp [takes, ends, receiveReply, resolve, forget]
  | unattributed e h => simp [takes, ends]

/-- A payload that is accepted ends at once, or its job begins. -/
theorem Received.account {c : Connection} {d : Except DecodeFault Message} {s : Step} (h : Received c d s) (w : Farewell) :
    (s.2.toList.countP fun j => j.duty.isFor w) + (c.ends w d).toNat = (c.takes w d).toNat := by
  cases h with
  | faulty f => cases w <;> simp [takes, ends]
  | ignored m h => cases w <;> cases m <;> simp [takes, ends, h]
  | refused h => cases w <;> cases h <;> simp_all [takes, ends]
  | begun j ha hb ht hm hn =>
    have hc := (Incoming.begin?_eq_some hb).1
    rcases ht with ⟨rfl, hs, hd, -⟩ | ⟨hs, -, hd⟩
    · cases w <;> simp [takes, ends, Farewell.method, Duty.isFor, ha, hc, hs, hd]
    · cases w <;> simp [takes, ends, Duty.isFor, hs, hd]
  | closed ha hb hs => cases w <;> simp [takes, ends, Farewell.method, ha, hs, (Incoming.begin?_eq_some hb).1]
  | cancelled params h => cases w <;> simp [takes, ends, cancelMethod, exitMethod]
  | left params h hs => cases w <;> simp [takes, ends, Farewell.method, h, hs]
  | leaving h hs => cases w <;> simp [takes, ends, Farewell.method, h, hs, Duty.isFor]
  | noted job hc he hl hd =>
    have hj : (job.toList.countP fun j => j.duty.isFor w) = 0 := by
      rw [List.countP_eq_zero]
      intro j hj
      rcases hd j (Option.mem_toList.mp hj) with hd | hd <;> rw [hd] <;> cases w <;> simp [Duty.isFor]
    cases w <;> simp [takes, ends, he, hj]
  | answered id v h => cases w <;> simp [takes, ends]
  | failed id e h => cases w <;> simp [takes, ends]
  | unattributed e h => cases w <;> simp [takes, ends]

/-- What the outcome of a job does to the stage of life and to the code. -/
theorem complete_stage (c : Connection) (j : Job) (o : Outcome) :
    (c.complete j o).1.lifecycle =
      (if j.duty.isFor .exit then .exited
      else if j.duty.isFor .shutdown ∧ c.lifecycle = .active then .shuttingDown else c.lifecycle) ∧
    (c.complete j o).1.exitCode =
      if j.duty.isFor .exit then some (if c.lifecycle = .shuttingDown then 0 else 1) else c.exitCode := by
  unfold complete
  cases j.duty with
  | request id => simp [finish_eq, Duty.isFor]
  | shutdown id => simp [completeShutdown_eq, Duty.isFor]
  | exit => simp [completeExit_eq, noteFailure_eq, Duty.isFor]
  | builtin => simp [noteFailure_eq, Duty.isFor]
  | notification => simp [noteFailure_eq, Duty.isFor]

/-- The job that follows another ends neither the service nor the connection. -/
theorem complete_isFor (c : Connection) (j : Job) (o : Outcome) (w : Farewell) :
    ((c.complete j o).2.toList.countP fun j => j.duty.isFor w) = 0 := by
  unfold complete
  cases j.duty with
  | builtin =>
    simp only [userJob]
    cases c.routes.find? .user j.method <;> cases w <;> simp [Duty.isFor]
  | _ => rfl

end Connection

namespace Conversation

/-- The move is a payload that is accepted as the message. -/
def takes (v : Conversation) (w : Farewell) : Move → Bool
  | .receive payload => v.connection.takes w (v.connection.reads payload)
  | _ => false

/-- The move ends what the message asks for: its handler has its outcome, or there is none. -/
def ends (v : Conversation) (w : Farewell) : Move → Bool
  | .receive payload => v.connection.ends w (v.connection.reads payload)
  | .finish n _ => v.jobs[n]?.any fun j => j.duty.isFor w
  | _ => false

/-- How many open jobs there are for the message. -/
def openFor (v : Conversation) (w : Farewell) : Nat := v.jobs.countP fun j => j.duty.isFor w

/-- Nothing is accepted both as a `shutdown` and as an `exit`. -/
theorem not_takes_shutdown_of_exit {v : Conversation} {m : Move} (h : v.takes .exit m = true) : v.takes .shutdown m = false := by
  cases m with
  | receive payload => exact Connection.not_takes_shutdown_of_exit h
  | _ => rfl

/-- A move of our side or the teardown leaves the stage, the code and the jobs as they are. -/
theorem step_of_aside {v : Conversation} {m : Move} (hm : m.isOurs = true ∨ m = .teardown) :
    (v.step m).connection.lifecycle = v.connection.lifecycle ∧ (v.step m).connection.exitCode = v.connection.exitCode ∧
      (v.step m).jobs = v.jobs ∧ ∀ w, v.takes w m = false ∧ v.ends w m = false := by
  rcases hm with ho | rfl
  · obtain ⟨hs, hj⟩ := step_of_isOurs ho v
    exact ⟨hs.lifecycle, hs.exitCode, hj, fun w => by cases m <;> simp_all [takes, ends, Move.isOurs]⟩
  · refine ⟨?_, ?_, rfl, fun w => ⟨rfl, rfl⟩⟩ <;> simp [step, Connection.teardown, Connection.enqueue_eq]

/-- The stage of life changes, and the code is recorded, when `shutdown` or `exit` ends. -/
theorem step_stage (v : Conversation) (m : Move) :
    (v.step m).connection.lifecycle =
      (if v.ends .exit m then .exited
      else if v.ends .shutdown m ∧ v.connection.lifecycle = .active then .shuttingDown else v.connection.lifecycle) ∧
    (v.step m).connection.exitCode =
      if v.ends .exit m then some (if v.connection.lifecycle = .shuttingDown then 0 else 1) else v.connection.exitCode := by
  rcases m.kinds with ho | ⟨payload, rfl⟩ | ⟨n, o, rfl⟩ | rfl
  · obtain ⟨hl, hc, -, he⟩ := step_of_aside (v := v) (.inl ho)
    simp [hl, hc, he]
  · exact (Connection.receive_received v.connection payload).stage
  · cases hj : v.jobs[n]? with
    | none => simp [step, ends, hj]
    | some j =>
      have hc := Connection.complete_stage v.connection j o
      simpa [step, ends, hj, absorb] using hc
  · obtain ⟨hl, hc, -, he⟩ := step_of_aside (v := v) (.inr rfl)
    simp [hl, hc, he]

/-- What a move accepts ends with it, or has an open job afterwards. -/
theorem step_farewells (v : Conversation) (m : Move) (w : Farewell) :
    (v.step m).openFor w + (v.ends w m).toNat = v.openFor w + (v.takes w m).toNat := by
  have hc := countP_jobs_step v m fun j => j.duty.isFor w
  have hb : ((v.begins m).toList.countP fun j => j.duty.isFor w) + (v.ends w m).toNat =
      ((v.closes m).toList.countP fun j => j.duty.isFor w) + (v.takes w m).toNat := by
    cases m with
    | receive payload =>
      simp only [begins, closes, Option.toList_none, List.countP_nil, Nat.zero_add]
      exact (Connection.receive_received v.connection payload).account w
    | finish n o =>
      cases hj : v.jobs[n]? with
      | none => simp [begins, closes, ends, takes, hj]
      | some j =>
        have hn := Connection.complete_isFor v.connection j o w
        simp only [begins, closes, ends, takes, hj, hn, Option.bind_some, Option.any_some, Option.toList_some,
          List.countP_singleton]
        cases j.duty.isFor w <;> rfl
    | _ => rfl
  simp only [openFor]
  omega

/-- What a run accepts has ended or has an open job. -/
theorem run_farewells (v : Conversation) (ms : List Move) (w : Farewell) :
    (v.run ms).openFor w + (v.trace ms).countP (fun e => e.1.ends w e.2) =
      v.openFor w + (v.trace ms).countP fun e => e.1.takes w e.2 := by
  induction ms generalizing v with
  | nil => rfl
  | cons m ms ih =>
    have hs := step_farewells v m w
    have hr := ih (v.step m)
    simp only [trace_cons, List.countP_cons, run_cons]
    cases he : v.ends w m <;> cases ht : v.takes w m <;> simp only [he, ht, Bool.toNat_true, Bool.toNat_false] at hs <;>
      simp <;> omega

/-- A job for a message begins only when the message is accepted. -/
theorem takes_of_begins {v : Conversation} {m : Move} {j : Job} {w : Farewell} (h : v.begins m = some j)
    (hd : j.duty.isFor w = true) : v.takes w m = true := by
  cases m with
  | receive payload =>
    have hr := (Connection.receive_received v.connection payload).account w
    rw [show (v.connection.receive payload).2 = some j from h] at hr
    simp only [Option.toList_some, List.countP_singleton, hd, if_true] at hr
    exact Bool.toNat_eq_one.mp (Nat.le_antisymm (Bool.toNat_le _) (hr ▸ Nat.le_add_right 1 _))
  | finish n o =>
    obtain ⟨j', -, hj⟩ := Option.bind_eq_some_iff.mp h
    have hc := Connection.complete_isFor v.connection j' o w
    rw [hj] at hc
    simp [hd] at hc
  | _ => cases h

end Conversation

end Parley
