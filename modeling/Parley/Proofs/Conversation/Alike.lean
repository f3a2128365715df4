import Parley.Proofs.Conversation.Cancel

/-!
# What a connection does not look at

A connection keeps record of which tokens have fired and of what was reported, but it does not look at either: both are there for
others, the handlers among them. So two conversations that differ in them alone go on alike, as long as the same moves are made
(`Conversation.Alike.output`). A cancellation that comes too late, or twice, or for nothing, makes no other difference.
-/

namespace Parley

/-- Beginning a request does not depend on which tokens have fired. -/
theorem Incoming.begin?_fired (l : Incoming) (fired : List Nat) (id : MessageId) :
    { l with fired }.begin? id = (l.begin? id).map fun b => (b.1, { b.2 with fired }) := by
  unfold begin?
  have hc : { l with fired }.contains id = l.contains id := rfl
  rw [hc]
  cases l.contains id <;> rfl

namespace Connection

/-- Two states of a connection differ at most in the tokens that have fired and in what was reported. -/
def Alike (c c' : Connection) : Prop := ∃ fired reports, c' = { c with incoming := { c.incoming with fired }, reports }

/-- The same job comes of two steps that lead to states that are alike. -/
def StepAlike (s s' : Step) : Prop := s.1.Alike s'.1 ∧ s.2 = s'.2

namespace Alike

variable {c c' c'' : Connection}

theorem refl (c : Connection) : c.Alike c := ⟨c.incoming.fired, c.reports, rfl⟩

/-- A message is queued alike. -/
theorem send (h : c.Alike c') (m : Message) : (c.send m).Alike (c'.send m) := by
  obtain ⟨fired, reports, rfl⟩ := h
  refine ⟨fired, reports, ?_⟩
  rw [send_eq, send_eq]
  rfl

/-- A failure is noted alike. -/
theorem noteFailure (h : c.Alike c') (o : Outcome) : (c.noteFailure o).Alike (c'.noteFailure o) := by
  obtain ⟨fired, reports, rfl⟩ := h
  rw [noteFailure_eq, noteFailure_eq]
  exact ⟨fired, _, rfl⟩

/-- A request is answered alike. -/
theorem finish (h : c.Alike c') (id : MessageId) (o : Outcome) : (c.finish id o).Alike (c'.finish id o) := by
  obtain ⟨fired, reports, rfl⟩ := h
  rw [finish_eq, finish_eq]
  exact ⟨fired, _, rfl⟩

/-- A `shutdown` ends alike. -/
theorem completeShutdown (h : c.Alike c') (id : MessageId) (o : Outcome) :
    (c.completeShutdown id o).Alike (c'.completeShutdown id o) := by
  obtain ⟨fired, reports, rfl⟩ := h
  rw [completeShutdown_eq, completeShutdown_eq]
  exact ⟨_, _, rfl⟩

/-- An `exit` ends alike. -/
theorem completeExit (h : c.Alike c') : c.completeExit.Alike c'.completeExit := by
  obtain ⟨fired, reports, rfl⟩ := h
  rw [completeExit_eq, completeExit_eq]
  exact ⟨fired, reports, rfl⟩

/-- The outcome of a job. -/
theorem complete (h : c.Alike c') (j : Job) (o : Outcome) : StepAlike (c.complete j o) (c'.complete j o) := by
  unfold Connection.complete
  cases j.duty with
  | request id => exact ⟨h.finish id o, rfl⟩
  | shutdown id => exact ⟨h.completeShutdown id o, rfl⟩
  | exit => exact ⟨(h.noteFailure o).completeExit, rfl⟩
  | builtin =>
    refine ⟨h.noteFailure o, ?_⟩
    obtain ⟨fired, reports, rfl⟩ := h
    rfl
  | notification => exact ⟨h.noteFailure o, rfl⟩

/-- A request begins to be served alike, or is turned down. -/
theorem beginJob (h : c.Alike c') (id : MessageId) (job : Token → Job) : StepAlike (c.beginJob id job) (c'.beginJob id job) := by
  have hs := h.send (Reply.duplicate id)
  obtain ⟨fired, reports, rfl⟩ := h
  simp only [Connection.beginJob, Incoming.begin?_fired]
  cases c.incoming.begin? id with
  | none => exact ⟨hs, rfl⟩
  | some b => exact ⟨⟨fired, reports, rfl⟩, rfl⟩

/-- A `shutdown` begins alike. -/
theorem receiveShutdown (h : c.Alike c') (id : MessageId) (params : Json) :
    StepAlike (c.receiveShutdown id params) (c'.receiveShutdown id params) := by
  have hs := h.send (Reply.duplicate id)
  obtain ⟨fired, reports, rfl⟩ := h
  simp only [Connection.receiveShutdown, Incoming.begin?_fired]
  cases c.incoming.begin? id with
  | none => exact ⟨hs, rfl⟩
  | some b =>
    have hb : Alike { c with incoming := b.2 } { c with incoming := { b.2 with fired }, reports } := ⟨fired, reports, rfl⟩
    simp only [Option.map_some]
    cases c.routes.serving? shutdownMethod with
    | none => exact ⟨hb.completeShutdown id (.ok .null), rfl⟩
    | some target => exact ⟨hb, rfl⟩

/-- A request. -/
theorem receiveRequest (h : c.Alike c') (id : MessageId) (method : String) (params : Json) :
    StepAlike (c.receiveRequest id method params) (c'.receiveRequest id method params) := by
  have hl : c'.lifecycle = c.lifecycle := by
    obtain ⟨fired, reports, rfl⟩ := h
    rfl
  have hr : c'.route id method params = c.route id method params := by
    obtain ⟨fired, reports, rfl⟩ := h
    rfl
  unfold Connection.receiveRequest
  rw [hl, hr]
  split
  · exact ⟨h.send _, rfl⟩
  · split
    · exact h.receiveShutdown id params
    · split
      · exact ⟨h.send _, rfl⟩
      · exact h.beginJob id _

/-- A notification. -/
theorem receiveNotification (h : c.Alike c') (method : String) (params : Json) :
    StepAlike (c.receiveNotification method params) (c'.receiveNotification method params) := by
  have he := h.completeExit
  obtain ⟨fired, reports, rfl⟩ := h
  unfold Connection.receiveNotification
  split
  · -- Of the tokens that a cancellation fires, only the id matters.
    refine ⟨?_, rfl⟩
    simp only [receiveCancel]
    split
    · simp only [Incoming.cancel]
      split <;> exact ⟨_, _, rfl⟩
    · exact ⟨_, _, rfl⟩
  · split
    · unfold receiveExit
      cases c.routes.serving? exitMethod with
      | none => exact ⟨he, rfl⟩
      | some target => exact ⟨⟨fired, reports, rfl⟩, rfl⟩
    · split
      · exact ⟨⟨fired, reports, rfl⟩, rfl⟩
      · unfold receiveFeature
        cases c.routes.find? .builtin method <;> exact ⟨⟨fired, reports, rfl⟩, rfl⟩

/-- A message is received alike. -/
theorem receiveMessage (h : c.Alike c') (m : Message) : StepAlike (c.receiveMessage m) (c'.receiveMessage m) := by
  cases m with
  | request id method params => exact h.receiveRequest id method params
  | notification method params => exact h.receiveNotification method params
  | result id v =>
    obtain ⟨fired, reports, rfl⟩ := h
    exact ⟨⟨fired, reports, rfl⟩, rfl⟩
  | error id e =>
    obtain ⟨fired, reports, rfl⟩ := h
    cases id <;> exact ⟨⟨fired, reports, rfl⟩, rfl⟩

/-- A payload. -/
theorem receive (h : c.Alike c') (payload : Bytes) : StepAlike (c.receive payload) (c'.receive payload) := by
  obtain ⟨fired, reports, rfl⟩ := h
  have ho : (c.opened payload).Alike
      (opened { c with incoming := { c.incoming with fired }, reports } payload) := ⟨fired, reports, rfl⟩
  cases hr : c.reads payload with
  | error f =>
    have hr' : reads { c with incoming := { c.incoming with fired }, reports } payload = .error f := hr
    rw [receive_of_error hr, receive_of_error hr', refuse_eq, refuse_eq]
    exact ⟨⟨fired, _, rfl⟩, rfl⟩
  | ok m =>
    have hr' : reads { c with incoming := { c.incoming with fired }, reports } payload = .ok m := hr
    rw [receive_of_ok hr, receive_of_ok hr']
    by_cases hl : c.lifecycle = .exited
    · rw [if_pos hl, if_pos hl]
      exact ⟨ho, rfl⟩
    · rw [if_neg hl, if_neg hl]
      exact ho.receiveMessage m

end Alike

end Connection

namespace Conversation

/-- The connections are alike, and the same jobs are open. -/
def Alike (v w : Conversation) : Prop := v.connection.Alike w.connection ∧ v.jobs = w.jobs

namespace Alike

variable {v w : Conversation}

/-- A move leads to conversations that are alike. -/
theorem step (h : v.Alike w) (m : Move) : (v.step m).Alike (w.step m) := by
  obtain ⟨hc, hj⟩ := h
  cases m with
  | receive payload =>
    obtain ⟨hs, he⟩ := hc.receive payload
    exact ⟨hs, by simp only [Conversation.step, absorb, hj, he]⟩
  | finish n o =>
    simp only [Conversation.step, ← hj]
    split
    · rename_i j _
      obtain ⟨hs, he⟩ := hc.complete j o
      exact ⟨hs, by simp only [absorb, he]⟩
    · exact ⟨hc, hj⟩
  | post m => exact ⟨hc.send m, hj⟩
  | notify method params => exact ⟨hc.send _, hj⟩
  -- Fired tokens and reports are all that may differ, and no request of ours looks at them.
  | request id method params =>
    obtain ⟨fired, reports, hc⟩ := hc
    refine ⟨⟨fired, reports, ?_⟩, hj⟩
    simp only [Conversation.step, hc, Connection.requestAs_eq, Connection.expect_eq]
    rfl
  | cancel id =>
    obtain ⟨fired, reports, hc⟩ := hc
    refine ⟨⟨fired, reports, ?_⟩, hj⟩
    simp only [Conversation.step, hc, Connection.cancelRequest_eq]
    rfl
  | report kind text =>
    obtain ⟨fired, reports, hc⟩ := hc
    refine ⟨⟨fired, reports ++ [⟨kind, text⟩], ?_⟩, hj⟩
    simp only [Conversation.step, hc, Connection.report]
  | take | dropWriter =>
    obtain ⟨fired, reports, hc⟩ := hc
    refine ⟨⟨fired, reports, ?_⟩, hj⟩
    simp only [Conversation.step, hc, Connection.dropWriter]
  | teardown =>
    obtain ⟨fired, reports, hc⟩ := hc
    refine ⟨⟨v.connection.incoming.entries.values ++ fired, reports, ?_⟩, hj⟩
    simp only [Conversation.step, hc, Connection.teardown, Connection.enqueue_eq]
    rfl

/-- Alike conversations stay alike. -/
theorem run (h : v.Alike w) (ms : List Move) : (v.run ms).Alike (w.run ms) := by
  induction ms generalizing v w with
  | nil => exact h
  | cons m ms ih => exact ih (h.step m)

/-- Alike conversations queue the same. -/
theorem queue (h : v.Alike w) : w.connection.queue = v.connection.queue := by
  obtain ⟨⟨fired, reports, hc⟩, -⟩ := h
  rw [hc]

/-- Conversations that are alike queue the same. -/
theorem own (h : v.Alike w) (m : Move) : w.own m = v.own m := by
  have hs := (h.step m).queue
  cases m with
  | receive payload => simp only [Conversation.own, hs, h.queue]
  | finish n o => simp only [Conversation.own, hs, h.queue]
  | _ => rfl

/-- Whatever moves are made in both, conversations that are alike queue the same. -/
theorem output (h : v.Alike w) (ms : List Move) : w.output ms = v.output ms := by
  induction ms generalizing v w with
  | nil => rfl
  | cons m ms ih =>
    have hr := ih (h.step m)
    simp only [Conversation.output, trace_cons, List.flatMap_cons, h.own m] at hr ⊢
    rw [hr]

end Alike

end Conversation

/-! ## Cancellations -/

namespace Connection

/-- A payload is a cancellation and names a request, or none: it is read as the notification, or it is one that the catalogue does
not let through. -/
inductive Cancels (c : Connection) (payload : Bytes) : Option MessageId → Prop
  | read {params : Json} (h : c.reads payload = .ok (.notification cancelMethod params)) :
    Cancels c payload ((params.field? "id").bind MessageId.ofJson?)
  | refused {m : Mismatch} (h : c.reads payload = .error (.invalidParams none cancelMethod m)) : Cancels c payload none

variable {c : Connection} {payload : Bytes} {named : Option MessageId}

/-- What a cancellation does, and that is all: the token of the request that it names fires, if that request is being served. -/
theorem Cancels.receive (h : c.Cancels payload named) :
    (c.receive payload).2 = none ∧ c.Alike (c.receive payload).1 ∧
      ∀ t, (c.receive payload).1.isFired t = true ↔ c.isFired t = true ∨
        c.lifecycle ≠ .exited ∧ ∃ id n, named = some id ∧ c.incoming.entries.find? id = some n ∧ t = .request n := by
  cases h with
  | @read params h =>
    rw [receive_of_ok h, opened_of_not_told (by rw [h]; rfl)]
    by_cases hl : c.lifecycle = .exited
    · rw [if_pos hl]
      exact ⟨rfl, .refl c, fun t => by simp [hl]⟩
    · rw [if_neg hl]
      have hm : c.receiveMessage (.notification cancelMethod params) = (c.receiveCancel params, none) := by
        simp [receiveMessage, receiveNotification]
      rw [hm]
      refine ⟨rfl, ?_, fun t => ?_⟩
      · simp only [receiveCancel]
        split
        · simp only [Incoming.cancel]
          split
          · exact ⟨_, _, rfl⟩
          · exact .refl c
        · exact .refl c
      · simp only [receiveCancel]
        cases (params.field? "id").bind MessageId.ofJson? with
        | none => simp
        | some id => simp [isFired, Incoming.isFired_cancel, hl]
  | @refused m h =>
    rw [receive_of_error h, opened_of_not_told (by rw [h]; rfl), refuse_eq]
    have hq : c.queue ++ c.kept [] = c.queue := by simp [kept]
    refine ⟨rfl, ⟨c.incoming.fired, c.reports ++ [⟨.decode, (DecodeFault.invalidParams none cancelMethod m).message⟩], ?_⟩,
      fun t => by simp [isFired]⟩
    simp only [DecodeFault.replyId, Option.map_none, Option.toList_none, hq, afterFault]

end Connection

end Parley
