import Parley.Proofs.Conversation.Answers
import Parley.Proofs.Handler.Sending
import Parley.Proofs.Session.Events

/-!
# What a payload makes a site queue

When the handlers that a payload calls only send, serving it queues what they send, in their order, and behind it what the connection
itself has to say: the answer if the payload asks for one, and a request to close if it is an `exit` (`Site.output_serve`). Nothing
is taken from the queue.
-/

namespace Parley

/-- The message that is queued, unless it is a request to close. -/
def Outbound.frame? {β : Type} : Outbound β → Option β
  | .frame b => some b
  | .close => none

@[simp] theorem filterMap_frame?_map {β : Type} (bs : List β) : (bs.map Outbound.frame).filterMap Outbound.frame? = bs := by
  induction bs with
  | nil => rfl
  | cons b bs ih => simpa [Outbound.frame?] using ih

/-- Messages are the answer that is asked for under an id, if one is. -/
def Message.Settles (asked : Option MessageId) (reply : List Message) : Prop :=
  match asked with
  | some id => ∃ m, reply = [m] ∧ m.isAnswerTo id = true
  | none => reply = []

/-- What is queued when the connection is to leave. -/
def Outbound.closing (leaves : Bool) : List (Outbound Message) := if leaves then [.close] else []

namespace Connection

/-- The messages that were queued from one state to a later one. -/
def queuedSince (c c' : Connection) : List Message := (c'.queue.drop c.queue.length).filterMap Outbound.frame?

/-- What was queued since is what stands behind. -/
theorem queuedSince_eq {c c' : Connection} {ms : List Message} (leaves : Bool)
    (h : c'.queue = c.queue ++ ms.map .frame ++ Outbound.closing leaves) : queuedSince c c' = ms := by
  have hc : (Outbound.closing leaves).filterMap Outbound.frame? = [] := by cases leaves <;> rfl
  rw [queuedSince, h, List.append_assoc, List.drop_left, List.filterMap_append, filterMap_frame?_map, hc, List.append_nil]

/-- What was sent is what was queued. -/
theorem Sent.queuedSince {c c' : Connection} (hw : c.writable = true) {ms : List Message} (h : Sent ms c c') :
    c.queuedSince c' = ms :=
  queuedSince_eq false (by simp [h.queue, kept, hw, Outbound.closing])

/-- From one state to a later one, messages were sent, then the answer was given that is asked for, and the connection has left if it
was to. -/
structure Answered (sent : List Message) (asked : Option MessageId) (leaves : Bool) (reply : List Message) (c c' : Connection) :
    Prop where
  queue : c'.queue = c.queue ++ (sent ++ reply).map .frame ++ Outbound.closing leaves
  reply : Message.Settles asked reply
  setup : SameSetup c c'
  left : leaves = true → c'.exitCode = some c.leavingCode
  stays : leaves = false → c.Staying → c'.Staying

/-- What was sent before the answer belongs to what was sent. -/
theorem Sent.answered {sent reply : List Message} {asked : Option MessageId} {leaves : Bool} {c c' c'' : Connection}
    (hw : c.writable = true) (h : Sent sent c c') (ha : Answered [] asked leaves reply c' c'') :
    Answered sent asked leaves reply c c'' := by
  refine ⟨?_, ha.reply, h.setup.trans ha.setup, fun hl => ?_, fun hl hs => ha.stays hl ?_⟩
  · rw [ha.queue, h.queue, kept, if_pos hw]
    simp
  · rw [ha.left hl, leavingCode, leavingCode, h.service.lifecycle]
  · exact ⟨h.service.exitCode.trans hs.exitCode, h.service.lifecycle ▸ hs.lifecycle⟩

/-- What has no answer and does not leave adds to what was sent. -/
theorem Answered.trans {sent sent' reply reply' : List Message} {c c' c'' : Connection}
    (h : Answered sent none false reply c c') (h' : Answered sent' none false reply' c' c'') :
    Answered (sent ++ sent') none false reply' c c'' := by
  obtain rfl : reply = [] := h.reply
  obtain rfl : reply' = [] := h'.reply
  refine ⟨?_, rfl, h.setup.trans h'.setup, nofun, fun _ hs => h'.stays rfl (h.stays rfl hs)⟩
  rw [h'.queue, h.queue]
  simp [Outbound.closing]

/-- To read a payload first makes no difference. -/
theorem Answered.of_opened {sent reply : List Message} {asked : Option MessageId} {leaves : Bool} {c c' : Connection}
    {payload : Bytes} (h : Answered sent asked leaves reply (c.opened payload) c') : Answered sent asked leaves reply c c' :=
  ⟨h.queue, h.reply, ⟨h.setup.routes, h.setup.catalogue, h.setup.writable⟩, h.left,
    fun hl hs => h.stays hl ⟨hs.exitCode, hs.lifecycle⟩⟩

/-- A payload has begun a job, and nothing else has become of it. -/
structure Begins (c : Connection) (d : Except DecodeFault Message) (j : Job) (c' : Connection) : Prop where
  queue : c'.queue = c.queue
  setup : SameSetup c c'
  lifecycle : c'.lifecycle = c.lifecycle
  exitCode : c'.exitCode = c.exitCode
  asked : j.duty.id? = Message.asked d
  leaves : j.duty.isFor .exit = c.takes .exit d
  contains : ∀ id, j.duty.id? = some id → c'.incoming.contains id = true

/-- What comes of the job of a payload comes of the payload. -/
theorem Begins.answered {c c' c'' : Connection} {d : Except DecodeFault Message} {j : Job} {sent reply : List Message}
    (h : Begins c d j c') (ha : Answered sent j.duty.id? (j.duty.isFor .exit) reply c' c'') :
    Answered sent (Message.asked d) (c.takes .exit d) reply c c'' := by
  rw [h.asked, h.leaves] at ha
  refine ⟨h.queue ▸ ha.queue, ha.reply, h.setup.trans ha.setup, fun hl => ?_, fun hl hs => ha.stays hl ?_⟩
  · rw [ha.left hl, leavingCode, leavingCode, h.lifecycle]
  · exact ⟨h.exitCode.trans hs.exitCode, h.lifecycle ▸ hs.lifecycle⟩

/-- A payload that begins a job does nothing else. -/
theorem Received.begins {c : Connection} {d : Except DecodeFault Message} {s : Step} (h : Received c d s) {j : Job}
    (hj : s.2 = some j) : Begins c d j s.1 := by
  cases h with
  | begun j' ha hb ht hm hn =>
    obtain rfl := Option.some.inj hj
    rcases ht with ⟨-, -, hd, -⟩ | ⟨-, -, hd⟩
    all_goals
      refine ⟨rfl, ⟨rfl, rfl, rfl⟩, rfl, rfl, by simp [hd, Duty.id?, Message.asked], by simp [hd, Duty.isFor, takes], ?_⟩
      intro i hi
      rw [hd] at hi
      obtain rfl := Option.some.inj hi
      simp [Incoming.contains_begin hb]
  | leaving hl hs =>
    obtain rfl := Option.some.inj hj
    exact ⟨rfl, ⟨rfl, rfl, rfl⟩, rfl, rfl, rfl, by simp [Duty.isFor, takes, hl], fun _ hid => by cases hid⟩
  | noted job hc he hl hd =>
    have hid : j.duty.id? = none ∧ j.duty.isFor .exit = false := by
      rcases hd j hj with hd | hd <;> simp [hd, Duty.id?, Duty.isFor]
    exact ⟨rfl, ⟨rfl, rfl, rfl⟩, rfl, rfl, hid.1, by simp [hid.2, takes, he], by simp [hid.1]⟩
  | _ => cases hj

/-- A payload that begins no job has its answer at once, if it asks for one. -/
theorem Received.exists_answered {c : Connection} {d : Except DecodeFault Message} {s : Step} (h : Received c d s)
    (hw : c.writable = true) (hs : c.Staying) (hj : s.2 = none) :
    ∃ reply, Answered [] (Message.asked d) (c.takes .exit d) reply c s.1 := by
  have hsetup := h.sameSetup
  -- Messages that ask for nothing and queue nothing.
  have silent {c' : Connection} (hq : c'.queue = c.queue) (hl : c'.lifecycle = c.lifecycle) (hx : c'.exitCode = c.exitCode)
      (ha : Message.asked d = none) (ht : c.takes .exit d = false) (hset : SameSetup c c') :
      Answered [] (Message.asked d) (c.takes .exit d) [] c c' := by
    rw [ha, ht]
    exact ⟨by simp [hq, Outbound.closing], rfl, hset, by rintro ⟨⟩, fun _ hs => ⟨hx.trans hs.exitCode, hl ▸ hs.lifecycle⟩⟩
  cases h with
  | faulty f =>
    refine ⟨(f.replyId.map fun id => Reply.failure (some id) f.toResponseError).toList, ?_, ?_, hsetup, by rintro ⟨⟩, fun _ hs => ?_⟩
    · cases hf : f.replyId <;> simp [refuse_eq, kept, hw, hf, Outbound.closing, takes]
    · cases hf : f.replyId <;> simp [Message.asked, hf, Message.Settles, Reply.failure, Message.isAnswerTo]
    · exact ⟨by simp [refuse_eq, hs.exitCode], by simp [refuse_eq, hs.lifecycle]⟩
  | ignored m hl => exact absurd hl hs.lifecycle
  | @refused id method params m hr =>
    refine ⟨[m], ?_, ⟨m, rfl, by simp [hr.isAnswerTo]⟩, hsetup, by rintro ⟨⟩, fun _ hs => ?_⟩
    · simp [send_eq, kept, hw, Outbound.closing, takes]
    · exact ⟨by simp [send_eq, hs.exitCode], by simp [send_eq, hs.lifecycle]⟩
  | begun => cases hj
  | @closed id params n incoming ha hb hr =>
    have hc : incoming.contains id = true := by simp [Incoming.contains_begin hb]
    refine ⟨[Reply.ofOutcome id (.ok .null)], ?_, ⟨_, rfl, by simp [isAnswerTo_ofOutcome]⟩, hsetup, by rintro ⟨⟩, fun _ hs => ?_⟩
    · simp [completeShutdown_eq, hc, kept, hw, Outbound.closing, takes, Except.map]
    · exact ⟨by simp [completeShutdown_eq, hs.exitCode], by simp [completeShutdown_eq, ha]⟩
  | cancelled params hl =>
    refine ⟨[], silent ?_ ?_ ?_ rfl (by simp [takes, cancelMethod, exitMethod]) hsetup⟩
    all_goals
      simp only [receiveCancel]
      split <;> rfl
  | left params hl hr =>
    refine ⟨[], ?_, rfl, hsetup, fun _ => by simp [completeExit_eq, leavingCode], fun ht => ?_⟩
    · simp [completeExit_eq, kept, hw, Outbound.closing, takes, hl]
    · simp [takes, hl] at ht
  | leaving => cases hj
  | noted job hc he hl hd => exact ⟨[], silent rfl rfl rfl rfl (by simp [takes, he]) hsetup⟩
  | answered id v hl => exact ⟨[], silent (by simp [receiveReply, resolve, forget]) rfl rfl rfl rfl hsetup⟩
  | failed id e hl => exact ⟨[], silent (by simp [receiveReply, resolve, forget]) rfl rfl rfl rfl hsetup⟩
  | unattributed e hl => exact ⟨[], silent rfl rfl rfl rfl rfl hsetup⟩

/-- The outcome of a job is the answer to its request, if it has one that is served. -/
theorem complete_answered {c : Connection} (hw : c.writable = true) (j : Job) (o : Outcome)
    (hc : ∀ id, j.duty.id? = some id → c.incoming.contains id = true) :
    ∃ reply, Answered [] j.duty.id? (j.duty.isFor .exit) reply c (c.complete j o).1 ∧
      ∀ id, j.duty.id? = some id → reply = [Reply.ofOutcome id (j.duty.told o)] := by
  have hsetup := complete_sameSetup c j o
  have hstays : j.duty.isFor .exit = false → c.Staying → (c.complete j o).1.Staying := fun hf hs => hs.complete hf o
  have hleft : j.duty.isFor .exit = true → (c.complete j o).1.exitCode = some c.leavingCode := fun hf => by
    rw [(complete_stage c j o).2, if_pos hf]
    rfl
  cases hid : j.duty.id? with
  | some id =>
    have hf : j.duty.isFor .exit = false := by
      cases hd : j.duty <;> simp_all [Duty.isFor, Duty.id?]
    have hq := (complete_answers hid (hc id hid) o).1
    refine ⟨[Reply.ofOutcome id (j.duty.told o)], ⟨?_, ⟨_, rfl, by simp [isAnswerTo_ofOutcome]⟩, hsetup, hleft, hstays⟩, ?_⟩
    · rw [hq, kept, if_pos hw, hf]
      simp [Outbound.closing]
    · rintro _ ⟨⟩
      rfl
  | none =>
    refine ⟨[], ⟨?_, rfl, hsetup, hleft, hstays⟩, fun _ h => by cases h⟩
    unfold complete
    cases hd : j.duty with
    | request | shutdown =>
      rw [hd] at hid
      cases hid
    | exit => simp [completeExit_eq, noteFailure_eq, kept, hw, Outbound.closing, Duty.isFor]
    | builtin | notification => simp [noteFailure_eq, Outbound.closing, Duty.isFor]

/-- A job follows only the job of a builtin handler of a notification, and is for the user's handler of the same method. -/
theorem follows_of_complete {c : Connection} {j next : Job} {o : Outcome} (h : (c.complete j o).2 = some next) :
    j.duty = .builtin ∧ next.duty = .notification ∧ next.origin = .user ∧ next.name = j.method := by
  unfold complete at h
  cases hd : j.duty with
  | builtin =>
    rw [hd] at h
    obtain ⟨mode, -, rfl⟩ := Option.map_eq_some_iff.mp h
    exact ⟨rfl, rfl, rfl, rfl⟩
  | _ =>
    rw [hd] at h
    cases h

end Connection

variable {α : Type} {handlers : Registry (Handler α)} {payload : Bytes} {site : Site α}

/-- A job is for a direct handler that only sends. -/
def Registry.SendsFor (handlers : Registry (Handler α)) (j : Job) : Prop :=
  ∃ h, handlers.find? j.origin j.name = some h ∧ h.Sends

/-- A connection that knows the handlers has such a job done at once. -/
theorem Registry.SendsFor.mode {j : Job} (h : handlers.SendsFor j) {c : Connection} (hr : c.routes = handlers.map Handler.mode)
    (hj : c.routes.find? j.origin j.name = some j.mode) : j.mode = .direct := by
  obtain ⟨b, hf, hs⟩ := h
  rw [hr, Registry.find?_map, hf] at hj
  exact (Option.some.inj hj).symm.trans hs.mode

/-- Such a handler sends, and does nothing else with the connection. -/
theorem Registry.SendsFor.exists_sent {j : Job} (h : handlers.SendsFor j) (site : Site α) :
    ∃ ms, Connection.Sent ms site.connection (handlers.call j site).2.connection := by
  obtain ⟨b, hf, hs⟩ := h
  cases b with
  | direct run =>
    have hc : handlers.call j site = run j.call site := by simp only [Registry.call, hf]
    rw [hc]
    exact (hs j.call site).exists_sent
  | coroutine | threaded => cases hs

/-- The job of a payload is for a handler that only sends, and so is the one that follows. -/
theorem Registry.SendsOn.sendsFor (h : handlers.SendsOn site.connection.catalogue payload)
    (hr : site.connection.routes = handlers.map Handler.mode) {j : Job} (hj : (site.connection.receive payload).2 = some j) :
    handlers.SendsFor j ∧ ∀ (c : Connection) (o : Outcome) next, c.routes = handlers.map Handler.mode →
      (c.complete j o).2 = some next → handlers.SendsFor next := by
  obtain ⟨m, hm, ⟨b, hb, hf⟩, huser⟩ := Connection.exists_calls_of_receive hr hj
  refine ⟨⟨b, hf, h m hm b hb⟩, fun c o next hroutes hn => ?_⟩
  obtain ⟨hd, -, ho, hname⟩ := Connection.follows_of_complete hn
  have hfind := Connection.find?_of_complete hn
  rw [hroutes, Registry.find?_map] at hfind
  obtain ⟨b', hb', -⟩ := Option.map_eq_some_iff.mp hfind
  rw [ho, hname] at hb'
  exact ⟨b', by rw [ho, hname, hb'], h m hm b' (huser hd b' hb')⟩

namespace Site

/-- What the handlers send that are called for a payload, in their order. -/
def sent (handlers : Registry (Handler α)) (payload : Bytes) (site : Site α) : List Message :=
  match site.connection.receive payload with
  | (_, none) => []
  | (connection, some j) =>
    connection.queuedSince (handlers.call j { site with connection }).2.connection ++
      match carryOut handlers j { site with connection } with
      | ((_, some next), site) => site.connection.queuedSince (handlers.call next site).2.connection
      | _ => []

/-- What else is queued for the peer when a payload is served. -/
def replied (handlers : Registry (Handler α)) (payload : Bytes) (site : Site α) : List Message :=
  (site.connection.queuedSince (site.serve handlers payload).2.connection).drop (site.sent handlers payload).length

/-- What serving a payload has come to. -/
structure Output (handlers : Registry (Handler α)) (payload : Bytes) (site : Site α) : Prop where
  /-- Behind what was queued stands what the handlers sent, then the answer that was asked for, and then a request to close if the
  payload was an `exit`. -/
  answered : Connection.Answered (site.sent handlers payload) (Message.asker? payload)
    ((Frame.Reading.payload payload).isExit site.connection.catalogue) (site.replied handlers payload) site.connection
    (site.serve handlers payload).2.connection
  /-- The answer is the outcome of the handler, if one was called. -/
  outcome : ∀ j o id, (j, o) ∈ (site.serve handlers payload).1 → j.duty.id? = some id →
    site.replied handlers payload = [Reply.ofOutcome id (j.duty.told o)]

/-- To carry out a job of a handler that only sends is to send, and then to answer. -/
theorem exists_answered_carryOut {j : Job} (site : Site α) (h : handlers.SendsFor j) (hw : site.connection.writable = true)
    (hc : ∀ id, j.duty.id? = some id → site.connection.incoming.contains id = true) :
    ∃ reply, Connection.Answered (site.connection.queuedSince (handlers.call j site).2.connection) j.duty.id?
        (j.duty.isFor .exit) reply site.connection (carryOut handlers j site).2.connection ∧
      ∀ id, j.duty.id? = some id → reply = [Reply.ofOutcome id (j.duty.told (carryOut handlers j site).1.1)] := by
  obtain ⟨ms, hm⟩ := h.exists_sent site
  rw [hm.queuedSince hw]
  obtain ⟨reply, hr, ho⟩ := Connection.complete_answered (hm.setup.writable.trans hw) j (handlers.call j site).1
    (fun id hid => hm.service.incoming ▸ hc id hid)
  exact ⟨reply, hm.answered hw hr, ho⟩

/-- What serving a payload has come to, when its handlers only send. -/
theorem exists_answered_serve (h : handlers.SendsOn site.connection.catalogue payload)
    (hr : site.connection.routes = handlers.map Handler.mode) (hw : site.connection.writable = true)
    (hs : site.connection.Staying) :
    ∃ reply, Connection.Answered (site.sent handlers payload) (Message.asker? payload)
        ((Frame.Reading.payload payload).isExit site.connection.catalogue) reply site.connection
        (site.serve handlers payload).2.connection ∧
      ∀ j o id, (j, o) ∈ (site.serve handlers payload).1 → j.duty.id? = some id →
        reply = [Reply.ofOutcome id (j.duty.told o)] := by
  have hrec := Connection.receive_received site.connection payload
  have ha : Message.asked (site.connection.reads payload) = Message.asker? payload := Message.asked_decode _ _ _
  have ht : (site.connection.opened payload).takes .exit (site.connection.reads payload) =
      (Frame.Reading.payload payload).isExit site.connection.catalogue := Connection.takes_exit_eq hs.lifecycle payload
  have hsends (j : Job) (hj : (site.connection.receive payload).2 = some j) := h.sendsFor hr hj
  have hserves := serves_serve handlers payload site
  rw [← ha, ← ht]
  generalize serve handlers payload site = res at hserves ⊢
  cases hserves with
  | answered he =>
    rw [he] at hrec
    obtain ⟨reply, hreply⟩ := hrec.exists_answered hw ⟨hs.exitCode, hs.lifecycle⟩ rfl
    simp only [sent, he]
    exact ⟨reply, hreply.of_opened, by simp⟩
  | @done connection j o site' he hj =>
    rw [he] at hrec hsends
    have hb := hrec.begins rfl
    obtain ⟨reply, hreply, ho⟩ := exists_answered_carryOut { site with connection } (hsends j rfl).1
      (hb.setup.writable.trans hw) hb.contains
    simp only [sent, he, hj, List.append_nil] at hreply ho ⊢
    refine ⟨reply, (hb.answered hreply).of_opened, fun j' o' id hm hid => ?_⟩
    obtain ⟨rfl, rfl⟩ := Prod.mk.inj (List.mem_singleton.mp hm)
    exact ho id hid
  -- The builtin handler's outcome is of no account to the peer; the answer is that of the job behind it.
  | @followed connection j next o o' rest site₁ site' he hj hn =>
    rw [he] at hrec hsends
    have hb := hrec.begins rfl
    obtain ⟨reply, hreply, -⟩ := exists_answered_carryOut { site with connection } (hsends j rfl).1
      (hb.setup.writable.trans hw) hb.contains
    obtain ⟨ms, hm⟩ := (hsends j rfl).1.exists_sent { site with connection }
    have hnext : (carryOut handlers j { site with connection }).1.2 = some next := by rw [hj]
    obtain ⟨hd, hd', -, -⟩ := Connection.follows_of_complete hnext
    have hsends' := (hsends j rfl).2 _ _ next (hm.setup.routes.trans (hb.setup.routes.trans hr)) hnext
    rw [hj] at hreply
    obtain ⟨reply', hreply', -⟩ := exists_answered_carryOut site₁ hsends'
      (hreply.setup.writable.trans (hb.setup.writable.trans hw)) (by simp [hd', Duty.id?])
    rw [hn, hd'] at hreply'
    rw [hd] at hreply
    simp only [sent, he, hj]
    refine ⟨reply', (hb.answered ?_).of_opened, fun j' o id hm hid => ?_⟩
    · rw [hd]
      exact hreply.trans hreply'
    · simp only [List.mem_cons, Prod.mk.injEq, List.not_mem_nil, or_false] at hm
      rcases hm with ⟨rfl, -⟩ | ⟨rfl, -⟩
      · simp [hd, Duty.id?] at hid
      · simp [hd', Duty.id?] at hid

/-- Serving a payload queues what its handlers send and what is replied, when these only send. -/
theorem output_serve (h : handlers.SendsOn site.connection.catalogue payload)
    (hr : site.connection.routes = handlers.map Handler.mode) (hw : site.connection.writable = true)
    (hs : site.connection.Staying) : site.Output handlers payload := by
  obtain ⟨reply, ha, ho⟩ := exists_answered_serve h hr hw hs
  have hreply : site.replied handlers payload = reply := by rw [replied, Connection.queuedSince_eq _ ha.queue, List.drop_left]
  exact ⟨hreply ▸ ha, hreply ▸ ho⟩

end Site

end Parley
