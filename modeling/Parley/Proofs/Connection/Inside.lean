import Parley.Proofs.Connection.Received
import Parley.Proofs.Message.Envelope

/-!
# What the peer's requests see of a connection

A connection keeps two ledgers, one for the requests of the peer and one for ours, and ids may coincide. What serves the peer's
requests looks at the second ledger only to see whether it is closed. So a connection can be looked at without the rest of it
(`Connection.inside`): what an operation comes to inside depends on the inside alone, and a payload that answers, well or not,
leaves the inside as it is.
-/

namespace Parley

/-- A message answers a request. -/
def Message.isReply : Message → Bool
  | .result .. | .error .. => true
  | _ => false

namespace Message

/-- A payload has the shape of an answer, whether or not it can be read: it has an id, and no method. -/
def isResponse (payload : Bytes) : Bool :=
  (body? payload).any fun fields => (Json.lookupField "id" fields).isSome && (Json.lookupField "method" fields).isNone

/-- What can be read has the shape of an answer exactly if it is read as one. -/
theorem isResponse_of_decode {c : ParamsLookup} {expected : Expected} {payload : Bytes} {m : Message}
    (h : (decode c expected payload).1 = .ok m) : isResponse payload = m.isReply := by
  obtain ⟨fields, hc, he⟩ := decode_eq_ok_iff.mp h
  rw [isResponse, body?_eq_some_iff.mpr hc]
  cases he with
  | notification hid => simp [hid, isReply]
  | request hr hid hm => simp [hm, isReply]
  | error hr hid hm => simp [hr, hm, isReply]
  | result hr hid hm => simp [hr, hm, isReply]

/-- What has the shape of an answer asks for none. -/
theorem asker?_of_isResponse {payload : Bytes} (h : isResponse payload = true) : asker? payload = none := by
  obtain ⟨fields, hb, hf⟩ := (Option.any_eq_true _ _).mp h
  simp only [Bool.and_eq_true, Option.isNone_iff_eq_none] at hf
  rw [asker?, hb, Option.bind_some, askerOf, hf.2]
  rfl

/-- What answers a request of ours has the shape of an answer. -/
theorem replier?_of_not_isResponse {payload : Bytes} (h : isResponse payload = false) : replier? payload = none := by
  refine Option.eq_none_iff_forall_ne_some.mpr fun id hr => ?_
  obtain ⟨fields, hb, hr⟩ := Option.bind_eq_some_iff.mp hr
  obtain ⟨rawId, hid, -, hm⟩ := replierOf_eq_some_iff.mp hr
  simp [isResponse, hb, hid, hm] at h

end Message

namespace Connection

variable (c : Connection)

/-- A connection without what it keeps of our requests to the peer, and without the reports of payloads that cannot be read. -/
def inside : Connection :=
  { c with
    outgoing := { closed := c.outgoing.closed }
    expected := {}
    reports := c.reports.filter (·.kind ≠ .decode) }

/-- What a step of a connection comes to inside. -/
def Step.inside (s : Step) : Step := (s.1.inside, s.2)

@[simp] theorem inside_inside : c.inside.inside = c.inside := by simp [inside]

/-- To queue a message has nothing to do with the requests of ours. -/
theorem inside_send (m : Message) : (c.send m).inside = c.inside.send m := by
  simp [send_eq, inside, kept]

theorem inside_report (kind : ReportKind) (text : String) : (c.report kind text).inside = (c.inside.report kind text).inside := by
  simp [report, inside]

theorem inside_noteFailure (o : Outcome) : (c.noteFailure o).inside = c.inside.noteFailure o := by
  cases o <;> simp [noteFailure_eq, inside]

/-- The answer to a request of the peer is the same without the requests of ours. -/
theorem inside_finish (id : MessageId) (o : Outcome) : (c.finish id o).inside = c.inside.finish id o := by
  have hr : ∀ r ∈ Report.ofOutcome o, r.kind ≠ .decode := by
    cases o with
    | ok v => simp [Report.ofOutcome]
    | error f => cases hf : f.isDeclared <;> simp [Report.ofOutcome, hf]
  simp only [finish_eq, inside, List.filter_append, kept]
  split
  · simpa using hr
  · simp

/-- So is what comes of a `shutdown` that has ended. -/
theorem inside_completeShutdown (id : MessageId) (o : Outcome) :
    (c.completeShutdown id o).inside = c.inside.completeShutdown id o := by
  unfold completeShutdown
  rw [inside_finish]
  rfl

/-- So is what comes of an `exit` that has ended. -/
theorem inside_completeExit : c.completeExit.inside = c.inside.completeExit := by
  simp [completeExit_eq, inside, kept]

/-- The outcome of a job. -/
theorem inside_complete (j : Job) (o : Outcome) : (c.complete j o).inside = c.inside.complete j o := by
  unfold complete Step.inside
  cases j.duty with
  | request id => simp only [inside_finish]
  | shutdown id => simp only [inside_completeShutdown]
  | exit => simp only [inside_completeExit, inside_noteFailure]
  | builtin =>
    simp only [inside_noteFailure]
    rfl
  | notification => simp only [inside_noteFailure]

/-- A request of the peer begins to be served, or is turned down, whatever requests of ours there are. -/
theorem inside_beginJob (id : MessageId) (job : Token → Job) : (c.beginJob id job).inside = c.inside.beginJob id job := by
  have hi : c.inside.incoming = c.incoming := rfl
  unfold beginJob
  rw [hi, ← inside_send]
  cases c.incoming.begin? id <;> rfl

/-- So it is with a `shutdown`. -/
theorem inside_receiveShutdown (id : MessageId) (params : Json) :
    (c.receiveShutdown id params).inside = c.inside.receiveShutdown id params := by
  have hi : c.inside.incoming = c.incoming := rfl
  unfold receiveShutdown
  rw [hi, ← inside_send]
  cases c.incoming.begin? id with
  | none => rfl
  | some begun =>
    have hr : c.inside.routes = c.routes := rfl
    have hs := inside_completeShutdown { c with incoming := begun.2 } id (.ok .null)
    simp only [hr]
    cases c.routes.serving? shutdownMethod with
    | none => exact Prod.ext hs rfl
    | some target => rfl

/-- A request. -/
theorem inside_receiveRequest (id : MessageId) (method : String) (params : Json) :
    (c.receiveRequest id method params).inside = c.inside.receiveRequest id method params := by
  have hl : c.inside.lifecycle = c.lifecycle := rfl
  have hr : c.inside.route id method params = c.route id method params := rfl
  unfold receiveRequest
  simp only [hl, hr, ← inside_send, ← inside_receiveShutdown, ← inside_beginJob]
  split
  · rfl
  · split
    · rfl
    · cases c.route id method params <;> rfl

/-- A notification. -/
theorem inside_receiveNotification (method : String) (params : Json) :
    (c.receiveNotification method params).inside = c.inside.receiveNotification method params := by
  have hl : c.inside.lifecycle = c.lifecycle := rfl
  have hr : c.inside.routes = c.routes := rfl
  unfold receiveNotification receiveCancel receiveExit receiveFeature
  simp only [hl, hr, ← inside_completeExit]
  split
  · cases (params.field? "id").bind MessageId.ofJson? <;> rfl
  · split
    · cases c.routes.serving? exitMethod <;> rfl
    · split
      · rfl
      · cases c.routes.find? .builtin method <;> rfl

/-- What comes of a message that answers nothing is the same without the requests of ours. -/
theorem inside_receiveMessage {m : Message} (h : m.isReply = false) :
    (c.receiveMessage m).inside = c.inside.receiveMessage m := by
  cases m with
  | request id method params => exact c.inside_receiveRequest id method params
  | notification method params => exact c.inside_receiveNotification method params
  | result | error => cases h

/-- A request of ours, of which the inside shows whether it is sent. -/
theorem inside_requestAs (id : MessageId) (method : String) (params : Json) :
    (c.requestAs id method params).2.inside = (c.inside.requestAs id method params).2.inside := by
  have hc : c.inside.outgoing.register? id method = none ↔ c.outgoing.register? id method = none := by
    rw [Outgoing.register?_eq_none_iff, Outgoing.register?_eq_none_iff]
    rfl
  simp only [requestAs_eq, inside, Outgoing.closed_sent_eq, List.filter_filter, Bool.and_self]
  cases hr : c.outgoing.register? id method <;> cases hr' : c.inside.outgoing.register? id method <;>
    simp_all [inside, kept]

/-- To cancel a request of ours queues the same message, whether or not there is one. -/
theorem inside_cancelRequest (id : MessageId) : (c.cancelRequest id).2.inside = (c.inside.cancelRequest id).2.inside := by
  simp [cancelRequest_eq, inside, kept]

/-- What is left of a released connection is the same without the requests of ours. -/
theorem inside_teardown : c.teardown.inside = c.inside.teardown.inside := by
  simp [teardown, enqueue_eq, inside, kept, Outgoing.closeAll]

/-- A payload that cannot be read. -/
theorem inside_refuse (f : DecodeFault) : (c.refuse f).inside = (c.inside.refuse f).inside := by
  cases f <;> simp [refuse_eq, inside, kept, afterFault]

variable {c}

/-- A payload that has the shape of an answer: no job begins, and inside nothing changes. -/
theorem inside_receive_of_isResponse {payload : Bytes} (h : Message.isResponse payload = true) :
    (c.receive payload).inside = (c.inside, none) := by
  cases hd : c.reads payload with
  | error f =>
    have hf : f.replyId = none := by
      have ha := Message.asked_decode c.catalogue c.expected payload
      rwa [Message.asker?_of_isResponse h, ← reads, hd] at ha
    rw [receive_of_error hd]
    refine Prod.ext ?_ rfl
    cases f <;> simp_all [Step.inside, refuse_eq, inside, kept, afterFault, opened]
  | ok m =>
    have hm : m.isReply = true := (Message.isResponse_of_decode hd).symm.trans h
    rw [receive_of_ok hd]
    split
    · rfl
    · cases m with
      | result id v => simp [Step.inside, inside, receiveMessage, receiveReply, resolve, forget, opened]
      | error id e =>
        cases id <;> simp [Step.inside, inside, receiveMessage, receiveReply, resolve, forget, opened]
      | request | notification => cases hm

/-- Any other payload: inside it comes to what it comes to without the rest. -/
theorem inside_receive_of_not_isResponse {payload : Bytes} (h : Message.isResponse payload = false) :
    (c.receive payload).inside = (c.inside.receive payload).inside := by
  have hn := Message.replier?_of_not_isResponse h
  have ho (c : Connection) : c.opened payload = c := opened_of_not_told (by rw [reads, Message.told_decode, hn])
  have hr : c.inside.reads payload = c.reads payload := by
    rw [reads_of_not_replier hn, reads_of_not_replier hn]
    rfl
  cases hd : c.reads payload with
  | error f =>
    rw [receive_of_error hd, receive_of_error (hr.trans hd), ho, ho]
    exact Prod.ext (inside_refuse c f) rfl
  | ok m =>
    have hl : c.inside.lifecycle = c.lifecycle := rfl
    have hm : m.isReply = false := (Message.isResponse_of_decode hd).symm.trans h
    rw [receive_of_ok hd, receive_of_ok (hr.trans hd), ho, ho, hl]
    split
    · exact Prod.ext c.inside_inside.symm rfl
    · rw [inside_receiveMessage c hm, inside_receiveMessage c.inside hm, inside_inside]

end Connection

end Parley
