import Parley.Proofs.Connection.Received

/-!
# What was queued and reported before

What waits for the writer and what was reported are kept for others: a connection adds to both and looks at neither. So whatever it
does, it does behind any items and reports just as it does without them (`behind_receive`, `behind_complete`).
-/

namespace Parley

namespace Connection

variable (c : Connection) (items : List (Outbound Message)) (news : List Report)

/-- The connection with items queued and failures reported before everything else. -/
def behind : Connection := { c with queue := items ++ c.queue, reports := news ++ c.reports }

/-- The connection with nothing queued and nothing reported. -/
def bare : Connection := { c with queue := [], reports := [] }

/-- A connection is what it is with nothing queued and reported, behind what is. -/
theorem bare_behind : c.bare.behind c.queue c.reports = c := by simp [bare, behind]

/-- What a step of a connection comes to, behind what was queued and reported before. -/
def Step.behind (s : Step) : Step := (s.1.behind items news, s.2)

/-- A message is queued behind what is queued. -/
theorem behind_send (m : Message) : (c.behind items news).send m = (c.send m).behind items news := by
  simp [send_eq, behind, kept]

/-- A report is made behind those that were made. -/
theorem behind_report (kind : ReportKind) (text : String) :
    (c.behind items news).report kind text = (c.report kind text).behind items news := by
  simp [report, behind]

/-- A failure is noted behind what was reported. -/
theorem behind_noteFailure (o : Outcome) : (c.behind items news).noteFailure o = (c.noteFailure o).behind items news := by
  simp [noteFailure_eq, behind]

/-- An answer is queued behind what is queued. -/
theorem behind_finish (id : MessageId) (o : Outcome) :
    (c.behind items news).finish id o = (c.finish id o).behind items news := by
  simp [finish_eq, behind, kept]

/-- So is the answer to `shutdown`, which leaves the rest of the queue alone. -/
theorem behind_completeShutdown (id : MessageId) (o : Outcome) :
    (c.behind items news).completeShutdown id o = (c.completeShutdown id o).behind items news := by
  simp [completeShutdown_eq, behind, kept]

/-- An `exit` that has ended closes the queue behind what is queued. -/
theorem behind_completeExit : (c.behind items news).completeExit = c.completeExit.behind items news := by
  simp [completeExit_eq, behind, kept]

/-- A payload that cannot be read is reported, and answered, behind what was there. -/
theorem behind_refuse (f : DecodeFault) : (c.behind items news).refuse f = (c.refuse f).behind items news := by
  cases f <;> simp [refuse_eq, behind, kept, afterFault]

/-- To release a connection leaves what is queued and reported. -/
theorem behind_teardown : (c.behind items news).teardown = c.teardown.behind items news := by
  simp [teardown, enqueue_eq, behind, kept]

/-- Our side's notification is queued behind what is queued. -/
theorem behind_notify (method : String) (params : Json) :
    (c.behind items news).notify method params = ((c.notify method params).1, (c.notify method params).2.behind items news) :=
  Prod.ext rfl (c.behind_send items news (.notification method params))

/-- The outcome of a job. -/
theorem behind_complete (j : Job) (o : Outcome) :
    (c.behind items news).complete j o = (c.complete j o).behind items news := by
  unfold complete Step.behind
  cases j.duty with
  | request id => simp only [behind_finish]
  | shutdown id => simp only [behind_completeShutdown]
  | exit => simp only [behind_noteFailure, behind_completeExit]
  | builtin =>
    simp only [behind_noteFailure]
    rfl
  | notification => simp only [behind_noteFailure]

/-- A request begins to be served, or is turned down, whatever is queued. -/
theorem behind_beginJob (id : MessageId) (job : Token → Job) :
    (c.behind items news).beginJob id job = (c.beginJob id job).behind items news := by
  have hi : (c.behind items news).incoming = c.incoming := rfl
  unfold beginJob
  rw [hi, behind_send]
  cases c.incoming.begin? id <;> rfl

/-- So it is with a `shutdown`. -/
theorem behind_receiveShutdown (id : MessageId) (params : Json) :
    (c.behind items news).receiveShutdown id params = (c.receiveShutdown id params).behind items news := by
  have hi : (c.behind items news).incoming = c.incoming := rfl
  unfold receiveShutdown
  rw [hi, behind_send]
  cases c.incoming.begin? id with
  | none => rfl
  | some begun =>
    have hr : (c.behind items news).routes = c.routes := rfl
    have hs := behind_completeShutdown { c with incoming := begun.2 } items news id (.ok .null)
    simp only [hr]
    cases c.routes.serving? shutdownMethod with
    | none => exact Prod.ext hs rfl
    | some target => rfl

/-- A request. -/
theorem behind_receiveRequest (id : MessageId) (method : String) (params : Json) :
    (c.behind items news).receiveRequest id method params = (c.receiveRequest id method params).behind items news := by
  have hl : (c.behind items news).lifecycle = c.lifecycle := rfl
  have hr : (c.behind items news).route id method params = c.route id method params := rfl
  unfold receiveRequest
  simp only [hl, hr, behind_send, behind_receiveShutdown, behind_beginJob]
  split
  · rfl
  · split
    · rfl
    · cases c.route id method params <;> rfl

/-- A notification. -/
theorem behind_receiveNotification (method : String) (params : Json) :
    (c.behind items news).receiveNotification method params = (c.receiveNotification method params).behind items news := by
  have hl : (c.behind items news).lifecycle = c.lifecycle := rfl
  have hr : (c.behind items news).routes = c.routes := rfl
  unfold receiveNotification receiveCancel receiveExit receiveFeature
  simp only [hl, hr, behind_completeExit]
  split
  · cases (params.field? "id").bind MessageId.ofJson? <;> rfl
  · split
    · cases c.routes.serving? exitMethod <;> rfl
    · split
      · rfl
      · cases c.routes.find? .builtin method <;> rfl

/-- What comes of a message is the same behind what is queued and reported. -/
theorem behind_receiveMessage (m : Message) :
    (c.behind items news).receiveMessage m = (c.receiveMessage m).behind items news := by
  cases m with
  | request id method params => exact c.behind_receiveRequest items news id method params
  | notification method params => exact c.behind_receiveNotification items news method params
  | result id v => rfl
  | error id e => cases id <;> rfl

/-- A payload. -/
theorem behind_receive (payload : Bytes) : (c.behind items news).receive payload = (c.receive payload).behind items news := by
  have hr : (c.behind items news).reads payload = c.reads payload := rfl
  have ho : (c.behind items news).opened payload = (c.opened payload).behind items news := rfl
  have hl : (c.behind items news).lifecycle = c.lifecycle := rfl
  cases hd : c.reads payload with
  | error f =>
    rw [receive_of_error (hr.trans hd), receive_of_error hd, ho, behind_refuse]
    rfl
  | ok m =>
    rw [receive_of_ok (hr.trans hd), receive_of_ok hd, hl, ho, behind_receiveMessage]
    split <;> rfl

end Connection

end Parley
