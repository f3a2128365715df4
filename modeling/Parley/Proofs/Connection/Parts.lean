import Parley.Connection.Receive
import Parley.Proofs.Ledger.Incoming
import Parley.Proofs.Ledger.Outgoing

/-!
# What an operation changes of a connection

Each operation of a connection as one record update, so that `simp` reads off what becomes of any part: what is queued, what the
ledgers hold, which stage of life the connection is at. Queued items are lost once the writer is gone (`Connection.kept`).
-/

namespace Parley

/-- The answer to a request, by the outcome of its job. -/
def Reply.ofOutcome (id : MessageId) : Outcome → Message
  | .ok v => Reply.success id v
  | .error f => Reply.failure (some id) (f.toResponseError (some id))

/-- What is reported of the outcome of a request: a failure that was not declared. -/
def Report.ofOutcome : Outcome → List Report
  | .ok _ => []
  | .error f => if f.isDeclared then [] else [⟨.featureRequest, f.message⟩]

namespace Connection

/-- What of some items gets into the queue. -/
def kept (c : Connection) (items : List (Outbound Message)) : List (Outbound Message) := if c.writable then items else []

/-- To queue something changes the queue, as long as the writer is there. -/
theorem enqueue_eq (c : Connection) (item : Outbound Message) :
    c.enqueue item = { c with queue := c.queue ++ c.kept [item] } := by
  unfold enqueue kept
  split <;> simp

theorem send_eq (c : Connection) (m : Message) : c.send m = { c with queue := c.queue ++ c.kept [.frame m] } :=
  enqueue_eq c _

/-- A request that is served ends with the answer that its outcome gives; any other changes nothing. -/
theorem finish_eq (c : Connection) (id : MessageId) (o : Outcome) :
    c.finish id o =
      { c with
        incoming := (c.incoming.finish id).2
        reports := c.reports ++ if c.incoming.contains id then Report.ofOutcome o else []
        queue := c.queue ++ if c.incoming.contains id then c.kept [.frame (Reply.ofOutcome id o)] else [] } := by
  unfold finish
  cases hc : c.incoming.contains id with
  | false => simp [Incoming.finish_of_not_contains hc]
  | true =>
    cases o with
    | ok v => simp [send_eq, kept, Report.ofOutcome, Reply.ofOutcome]
    | error f =>
      cases hf : f.isDeclared <;> simp [send_eq, kept, report, Report.ofOutcome, Reply.ofOutcome, hf]

/-- `shutdown` cancels the other requests, ends the service and is answered without the value of its outcome. -/
theorem completeShutdown_eq (c : Connection) (id : MessageId) (o : Outcome) :
    c.completeShutdown id o =
      { c with
        incoming := ((c.incoming.cancelAllExcept id).2.finish id).2
        lifecycle := if c.lifecycle = .active then .shuttingDown else c.lifecycle
        reports := c.reports ++ if c.incoming.contains id then Report.ofOutcome (o.map fun _ => .null) else []
        queue := c.queue ++
          if c.incoming.contains id then c.kept [.frame (Reply.ofOutcome id (o.map fun _ => .null))] else [] } := by
  unfold completeShutdown
  rw [finish_eq]
  rfl

/-- An `exit` that has ended sets the stage and the code, and closes the queue. -/
theorem completeExit_eq (c : Connection) :
    c.completeExit =
      { c with
        lifecycle := .exited
        exitCode := some (if c.lifecycle = Lifecycle.shuttingDown then 0 else 1)
        queue := c.queue ++ c.kept [.close] } := by
  unfold completeExit
  rw [enqueue_eq]
  rfl

/-- The failure of a notification handler is reported, and nothing else changes. -/
theorem noteFailure_eq (c : Connection) (o : Outcome) :
    c.noteFailure o =
      { c with
        reports := c.reports ++ match o with
          | .ok _ => []
          | .error f => [⟨.featureNotification, f.message⟩] } := by
  cases o <;> simp [noteFailure, report]

/-- What becomes of the requests of ours when a payload is refused: the one whose answer it is fails. -/
def afterFault (c : Connection) : DecodeFault → Outgoing
  | .invalidResponse id m => (c.outgoing.resolve id (.error (.deserialization (.mismatch m)))).2
  | _ => c.outgoing

/-- A payload that cannot be read is reported, and whoever named itself is told. -/
theorem refuse_eq (c : Connection) (f : DecodeFault) :
    c.refuse f =
      { c with
        reports := c.reports ++ [⟨.decode, f.message⟩]
        queue := c.queue ++ c.kept ((f.replyId.map fun id => .frame (Reply.failure (some id) f.toResponseError)).toList)
        outgoing := c.afterFault f } := by
  cases f with
  | invalidRequest id fault => cases id <;> simp [refuse, report, send_eq, kept, afterFault, DecodeFault.replyId]
  | invalidParams id method m => cases id <;> simp [refuse, report, send_eq, kept, afterFault, DecodeFault.replyId]
  | _ => simp [refuse, report, kept, afterFault, resolve, DecodeFault.replyId]

/-- What is expected is the shape of the result of the method. -/
theorem expect_eq (c : Connection) (id : MessageId) (method : String) :
    c.expect id method =
      { c with
        expected := match c.catalogue.result? method with
          | some shape => c.expected.insert id shape
          | none => c.expected } := by
  cases h : c.catalogue.result? method <;> simp [expect, h]

/-! ## What stays as it is -/

/-- The handlers, the shapes and the writer are the same. -/
structure SameSetup (c c' : Connection) : Prop where
  routes : c'.routes = c.routes
  catalogue : c'.catalogue = c.catalogue
  writable : c'.writable = c.writable

theorem SameSetup.trans {c c' c'' : Connection} (h : SameSetup c c') (h' : SameSetup c' c'') : SameSetup c c'' :=
  ⟨h'.routes.trans h.routes, h'.catalogue.trans h.catalogue, h'.writable.trans h.writable⟩

/-- What the connection does for the peer is the same. -/
structure SameService (c c' : Connection) : Prop where
  lifecycle : c'.lifecycle = c.lifecycle
  exitCode : c'.exitCode = c.exitCode
  incoming : c'.incoming = c.incoming

/-- The outcome of a job changes neither the handlers nor the writer. -/
theorem complete_sameSetup (c : Connection) (j : Job) (o : Outcome) : SameSetup c (c.complete j o).1 := by
  unfold complete
  cases j.duty with
  | request id => constructor <;> simp [finish_eq]
  | shutdown id => constructor <;> simp [completeShutdown_eq]
  | exit => constructor <;> simp [completeExit_eq, noteFailure_eq]
  | builtin => constructor <;> simp [noteFailure_eq]
  | notification => constructor <;> simp [noteFailure_eq]

/-- A request of ours, sent or not, as the parts that it changes. -/
theorem requestAs_eq (c : Connection) (id : MessageId) (method : String) (params : Json) :
    (c.requestAs id method params).2 =
      { c with
        outgoing := c.outgoing.sent id method c.writable
        expected :=
          match c.outgoing.register? id method with
          | none => c.expected
          | some _ => if c.writable then (c.expect id method).expected else (c.expect id method).expected.erase id
        queue := c.queue ++
          match c.outgoing.register? id method with
          | none => []
          | some _ => c.kept [.frame (.request id method params)] } := by
  unfold requestAs Outgoing.sent
  cases c.outgoing.register? id method with
  | none => simp
  | some r =>
    cases hw : c.writable <;> simp [expect_eq, send_eq, kept, forget, resolve, hw]

/-- A request of ours gets the next handle, whether or not it is sent. -/
theorem requestAs_fst (c : Connection) (id : MessageId) (method : String) (params : Json) :
    (c.requestAs id method params).1 = c.outgoing.handles := by
  unfold requestAs
  cases hr : c.outgoing.register? id method with
  | none => rfl
  | some r =>
    obtain ⟨-, hh, -⟩ := Outgoing.register?_eq_some hr
    rw [← hh]
    simp only
    split <;> rfl

/-- A request of ours that is cancelled, as the parts that it changes. -/
theorem cancelRequest_eq (c : Connection) (id : MessageId) :
    (c.cancelRequest id).2 =
      { c with
        outgoing := (c.outgoing.resolve id (.error .cancelled)).2
        expected := c.expected.erase id
        queue := c.queue ++ c.kept [.frame (.notification cancelMethod (Json.object [("id", id.toJson)]))] } := by
  simp [cancelRequest, notify, send_eq, kept, forget, resolve]

end Connection

end Parley
