import Parley.Proofs.Connection.Parts
import Parley.Proofs.Message.Parties

/-!
# What a payload can do

Everything that comes of a payload, case by case: `Received c d s` says that the step `s` is what a connection in state `c` does
with the decoded payload `d`. The state `c` is the one behind the reading (`Connection.opened`), which has used up the shape that
was remembered for an answer. `receive_received` says that nothing else happens, so that a fact about all payloads is proved by
cases on `Received`.
-/

namespace Parley

namespace Connection

/-- A payload as the connection reads it. -/
def reads (c : Connection) (payload : Bytes) : Except DecodeFault Message := (Message.decode c.catalogue c.expected payload).1

/-- The connection when it has read a payload. -/
def opened (c : Connection) (payload : Bytes) : Connection :=
  { c with expected := (Message.decode c.catalogue c.expected payload).2 }

@[simp] theorem opened_lifecycle (c : Connection) (payload : Bytes) : (c.opened payload).lifecycle = c.lifecycle := rfl

@[simp] theorem opened_exitCode (c : Connection) (payload : Bytes) : (c.opened payload).exitCode = c.exitCode := rfl

@[simp] theorem opened_incoming (c : Connection) (payload : Bytes) : (c.opened payload).incoming = c.incoming := rfl

@[simp] theorem opened_outgoing (c : Connection) (payload : Bytes) : (c.opened payload).outgoing = c.outgoing := rfl

@[simp] theorem opened_queue (c : Connection) (payload : Bytes) : (c.opened payload).queue = c.queue := rfl

@[simp] theorem opened_writable (c : Connection) (payload : Bytes) : (c.opened payload).writable = c.writable := rfl

/-- To read what answers no request of ours uses nothing up. -/
theorem opened_of_not_told {c : Connection} {payload : Bytes} (h : Message.told (c.reads payload) = none) :
    c.opened payload = c := by
  rw [reads, Message.told_decode] at h
  rw [opened, Message.expected_decode, h]

/-- What answers no request of ours is read the same whatever is expected. -/
theorem reads_of_not_replier {c : Connection} {payload : Bytes} (h : Message.replier? payload = none) :
    c.reads payload = (Message.decode c.catalogue {} payload).1 :=
  Message.decode_fst_congr fun id hid => by
    rw [h] at hid
    cases hid

/-- Why a request is turned down, and the answer that says so. -/
inductive Refusal (c : Connection) (id : MessageId) (method : String) (params : Json) : Message → Prop where
  /-- The service has ended. -/
  | late (h : c.lifecycle = .shuttingDown) : Refusal c id method params (Reply.shuttingDown id)
  /-- Nothing serves the request. -/
  | unserved {m : Message} (ha : c.lifecycle = .active) (hm : method ≠ shutdownMethod)
      (hr : c.route id method params = .error m) : Refusal c id method params m
  /-- The id is in use. -/
  | duplicate (ha : c.lifecycle = .active) (hc : c.incoming.contains id = true)
      (hs : method = shutdownMethod ∨ ∃ target, c.route id method params = .ok target) :
      Refusal c id method params (Reply.duplicate id)

/-- The handler that a request is for. -/
def Target (c : Connection) (id : MessageId) (method : String) (params : Json) (j : Job) : Prop :=
  (method = shutdownMethod ∧ c.routes.serving? method = some (j.origin, j.mode) ∧ j.duty = .shutdown id ∧ j.name = method ∧
      j.params = params) ∨
    (method ≠ shutdownMethod ∧ c.route id method params = .ok (j.origin, j.name, j.mode, j.params) ∧ j.duty = .request id)

/-- What comes of a decoded payload. -/
inductive Received (c : Connection) : Except DecodeFault Message → Step → Prop where
  /-- What is no message is refused. -/
  | faulty (f : DecodeFault) : Received c (.error f) (c.refuse f, none)
  /-- After `exit` a message is ignored. -/
  | ignored (m : Message) (h : c.lifecycle = .exited) : Received c (.ok m) (c, none)
  /-- A request is turned down. -/
  | refused {id : MessageId} {method : String} {params : Json} {m : Message} (h : Refusal c id method params m) :
      Received c (.ok (.request id method params)) (c.send m, none)
  /-- A request begins. -/
  | begun {id : MessageId} {method : String} {params : Json} {n : Nat} {incoming : Incoming} (j : Job)
      (ha : c.lifecycle = .active) (hb : c.incoming.begin? id = some (n, incoming)) (ht : c.Target id method params j)
      (hm : j.method = method) (hn : j.token = .request n) :
      Received c (.ok (.request id method params)) ({ c with incoming }, some j)
  /-- `shutdown` has no handler and ends at once. -/
  | closed {id : MessageId} {params : Json} {n : Nat} {incoming : Incoming}
      (ha : c.lifecycle = .active) (hb : c.incoming.begin? id = some (n, incoming))
      (hs : c.routes.serving? shutdownMethod = none) :
      Received c (.ok (.request id shutdownMethod params))
        ({ c with incoming }.completeShutdown id (.ok .null), none)
  /-- A request is to be cancelled. -/
  | cancelled (params : Json) (h : c.lifecycle ≠ .exited) :
      Received c (.ok (.notification cancelMethod params)) (c.receiveCancel params, none)
  /-- `exit` has no handler and ends at once. -/
  | left (params : Json) (h : c.lifecycle ≠ .exited) (hs : c.routes.serving? exitMethod = none) :
      Received c (.ok (.notification exitMethod params)) (c.completeExit, none)
  /-- The handler of `exit` begins. -/
  | leaving {params : Json} {origin : Origin} {mode : Mode} (h : c.lifecycle ≠ .exited)
      (hs : c.routes.serving? exitMethod = some (origin, mode)) :
      Received c (.ok (.notification exitMethod params))
        (c, some ⟨.exit, origin, exitMethod, mode, exitMethod, params, .connection⟩)
  /-- A notification for a feature: a handler may begin, whose outcome answers nothing. -/
  | noted {method : String} {params : Json} (job : Option Job) (hc : method ≠ cancelMethod) (he : method ≠ exitMethod)
      (hl : job ≠ none → c.lifecycle = .active) (hd : ∀ j ∈ job, j.duty = .builtin ∨ j.duty = .notification) :
      Received c (.ok (.notification method params)) (c, job)
  /-- A request of ours is answered. -/
  | answered (id : MessageId) (v : Json) (h : c.lifecycle ≠ .exited) :
      Received c (.ok (.result id v)) (c.receiveReply id (.ok v), none)
  /-- A request of ours has failed. -/
  | failed (id : MessageId) (e : ResponseError) (h : c.lifecycle ≠ .exited) :
      Received c (.ok (.error (some id) e)) (c.receiveReply id (.error (.response e)), none)
  /-- The peer tells of a failure that belongs to no request. -/
  | unattributed (e : ResponseError) (h : c.lifecycle ≠ .exited) : Received c (.ok (.error none e)) (c, none)

namespace Received

/-- What comes of `shutdown` while the service goes on. -/
theorem ofShutdown {c : Connection} (ha : c.lifecycle = .active) (id : MessageId) (params : Json) :
    Received c (.ok (.request id shutdownMethod params)) (c.receiveShutdown id params) := by
  unfold receiveShutdown
  cases hb : c.incoming.begin? id with
  | none => exact .refused (.duplicate ha (Incoming.begin?_eq_none_iff.mp hb) (.inl rfl))
  | some begun =>
    cases hs : c.routes.serving? shutdownMethod with
    | none =>
      simp only [hs]
      exact .closed ha hb hs
    | some target =>
      simp only [hs]
      exact .begun _ ha hb (.inl ⟨rfl, hs, rfl, rfl, rfl⟩) rfl rfl

/-- What comes of a request. -/
theorem ofRequest {c : Connection} (h : c.lifecycle ≠ .exited) (id : MessageId) (method : String) (params : Json) :
    Received c (.ok (.request id method params)) (c.receiveRequest id method params) := by
  unfold receiveRequest
  by_cases ha : c.lifecycle = .active
  · rw [if_neg (Decidable.not_not.mpr ha)]
    by_cases hm : method = shutdownMethod
    · subst hm
      rw [if_pos rfl]
      exact ofShutdown ha id params
    · rw [if_neg hm]
      cases hr : c.route id method params with
      | error m => exact .refused (.unserved ha hm hr)
      | ok target =>
        cases hb : c.incoming.begin? id with
        | none =>
          simp only [beginJob, hb]
          exact .refused (.duplicate ha (Incoming.begin?_eq_none_iff.mp hb) (.inr ⟨target, hr⟩))
        | some begun =>
          simp only [beginJob, hb]
          exact .begun _ ha hb (.inr ⟨hm, hr, rfl⟩) rfl rfl
  · rw [if_pos ha]
    have hs : c.lifecycle = .shuttingDown := by
      cases hl : c.lifecycle <;> simp_all
    exact .refused (.late hs)

/-- What comes of a notification. -/
theorem ofNotification {c : Connection} (h : c.lifecycle ≠ .exited) (method : String) (params : Json) :
    Received c (.ok (.notification method params)) (c.receiveNotification method params) := by
  unfold receiveNotification
  split
  · rename_i hc
    subst hc
    exact .cancelled params h
  · rename_i hc
    split
    · rename_i he
      subst he
      unfold receiveExit
      cases hs : c.routes.serving? exitMethod with
      | none => exact .left params h hs
      | some target => exact .leaving h hs
    · rename_i he
      split
      · exact .noted none hc he (fun hn => absurd rfl hn) (by simp)
      · rename_i ha
        unfold receiveFeature
        cases hb : c.routes.find? .builtin method with
        | none =>
          refine .noted _ hc he (fun _ => Decidable.not_not.mp ha) fun j hj => .inr ?_
          obtain ⟨mode, -, rfl⟩ := Option.map_eq_some_iff.mp hj
          rfl
        | some mode =>
          refine .noted _ hc he (fun _ => Decidable.not_not.mp ha) fun j hj => .inl ?_
          rw [← Option.some.inj hj]

end Received

/-- What is no message is refused. -/
theorem receive_of_error {c : Connection} {payload : Bytes} {f : DecodeFault} (h : c.reads payload = .error f) :
    c.receive payload = ((c.opened payload).refuse f, none) := by
  unfold reads at h
  simp only [receive, h, opened]

/-- A message is looked at until `exit`. -/
theorem receive_of_ok {c : Connection} {payload : Bytes} {m : Message} (h : c.reads payload = .ok m) :
    c.receive payload =
      if c.lifecycle = .exited then (c.opened payload, none) else (c.opened payload).receiveMessage m := by
  unfold reads at h
  simp only [receive, h, opened]

/-- What a connection does with a payload is one of the cases of `Received`. -/
theorem receive_received (c : Connection) (payload : Bytes) :
    Received (c.opened payload) (c.reads payload) (c.receive payload) := by
  cases hd : c.reads payload with
  | error f =>
    rw [receive_of_error hd]
    exact .faulty f
  | ok m =>
    rw [receive_of_ok hd]
    by_cases h : c.lifecycle = .exited
    · rw [if_pos h]
      exact .ignored m h
    · rw [if_neg h]
      have h : (c.opened payload).lifecycle ≠ .exited := h
      cases m with
      | request id method params => exact .ofRequest h id method params
      | notification method params => exact .ofNotification h method params
      | result id v => exact .answered id v h
      | error id e =>
        cases id with
        | none => exact .unattributed e h
        | some id => exact .failed id e h

/-- A payload changes neither the handlers nor the writer. -/
theorem Received.sameSetup {c : Connection} {d : Except DecodeFault Message} {s : Step} (h : Received c d s) :
    SameSetup c s.1 := by
  cases h with
  | faulty f => constructor <;> simp [refuse_eq]
  | refused h => constructor <;> simp [send_eq]
  | closed ha hb hs => constructor <;> simp [completeShutdown_eq]
  | cancelled params h => constructor <;> (simp only [receiveCancel]; split <;> rfl)
  | left params h hs => constructor <;> simp [completeExit_eq]
  | _ => exact ⟨rfl, rfl, rfl⟩

/-- No payload changes what a connection is made for. -/
theorem receive_sameSetup (c : Connection) (payload : Bytes) : SameSetup c (c.receive payload).1 :=
  have h := (receive_received c payload).sameSetup
  ⟨h.routes, h.catalogue, h.writable⟩

end Connection

end Parley
