import Parley.Proofs.Handler.Lawful

/-!
# Handlers that only send

A direct handler may do anything with its connection that our side may. Most do nothing with it but send: what they send comes behind
what was queued, and everything that the connection does for the peer stays as it is (`Connection.Sent`). Which handlers are called
depends on the payloads, so `Registry.SendsOn` asks this of the handlers of one payload alone, whatever the others are.
-/

namespace Parley

/-- A move with which our side sends something, or reports a failure. -/
def Move.isSending : Move → Bool
  | .request .. | .notify .. | .cancel _ | .post _ | .report .. => true
  | _ => false

namespace Connection

/-- Our side may lead from one state to the other by sending and reporting alone. -/
def SendsTo (c c' : Connection) : Prop :=
  ∃ ms : List Move, (∀ m ∈ ms, m.isSending = true) ∧ ∀ jobs, (Conversation.mk c jobs).run ms = ⟨c', jobs⟩

theorem SendsTo.refl (c : Connection) : c.SendsTo c := ⟨[], by simp, fun _ => rfl⟩

/-- Our side sends, and sends again. -/
theorem SendsTo.trans {c c' c'' : Connection} (h : c.SendsTo c') (h' : c'.SendsTo c'') : c.SendsTo c'' := by
  obtain ⟨ms, hs, hr⟩ := h
  obtain ⟨ms', hs', hr'⟩ := h'
  refine ⟨ms ++ ms', fun m hm => ?_, fun jobs => by rw [Conversation.run_append, hr, hr']⟩
  exact (List.mem_append.mp hm).elim (hs m) (hs' m)

/-- A request of ours is sent. -/
theorem sendsTo_request (c : Connection) (method : String) (params : Json) : c.SendsTo (c.request method params).2 :=
  ⟨[.request (mintedId c.minted) method params], by simp [Move.isSending], fun _ => rfl⟩

/-- A notification of ours is sent. -/
theorem sendsTo_notify (c : Connection) (method : String) (params : Json) : c.SendsTo (c.notify method params).2 :=
  ⟨[.notify method params], by simp [Move.isSending], fun _ => rfl⟩

/-- From one state to a later one, messages were queued, and what is done for the peer stayed as it was. -/
structure Sent (ms : List Message) (c c' : Connection) : Prop where
  queue : c'.queue = c.queue ++ c.kept (ms.map .frame)
  setup : SameSetup c c'
  service : SameService c c'

theorem Sent.refl (c : Connection) : Sent [] c c := ⟨by simp [kept], ⟨rfl, rfl, rfl⟩, ⟨rfl, rfl, rfl⟩⟩

/-- What was sent in two stretches was sent one behind the other. -/
theorem Sent.trans {ms ms' : List Message} {c c' c'' : Connection} (h : Sent ms c c') (h' : Sent ms' c' c'') :
    Sent (ms ++ ms') c c'' := by
  refine ⟨?_, h.setup.trans h'.setup, ⟨?_, ?_, ?_⟩⟩
  · rw [h'.queue, h.queue, kept, kept, kept, h.setup.writable]
    split <;> simp
  · exact h'.service.lifecycle.trans h.service.lifecycle
  · exact h'.service.exitCode.trans h.service.exitCode
  · exact h'.service.incoming.trans h.service.incoming

/-- What our side sends with one move. -/
theorem exists_sent_step {m : Move} (hm : m.isSending = true) (v : Conversation) :
    ∃ ms, Sent ms v.connection (v.step m).connection := by
  cases m with
  | request id method params =>
    refine ⟨if (v.connection.outgoing.register? id method).isSome then [.request id method params] else [], ?_⟩
    constructor
    · simp only [Conversation.step, requestAs_eq]
      cases v.connection.outgoing.register? id method <;> simp [kept]
    all_goals constructor <;> simp [Conversation.step, requestAs_eq]
  | notify method params =>
    refine ⟨[.notification method params], ?_⟩
    constructor
    · simp [Conversation.step, notify, send_eq]
    all_goals constructor <;> simp [Conversation.step, notify, send_eq]
  | cancel id =>
    refine ⟨[.notification cancelMethod (Json.object [("id", id.toJson)])], ?_⟩
    constructor
    · simp [Conversation.step, cancelRequest_eq]
    all_goals constructor <;> simp [Conversation.step, cancelRequest_eq]
  | post m =>
    refine ⟨[m], ?_⟩
    constructor
    · simp [Conversation.step, send_eq]
    all_goals constructor <;> simp [Conversation.step, send_eq]
  | report => exact ⟨[], ⟨by simp [kept, Conversation.step, report], ⟨rfl, rfl, rfl⟩, ⟨rfl, rfl, rfl⟩⟩⟩
  | receive | finish | take | dropWriter | teardown => cases hm

/-- Whoever only sends queues some messages and leaves the rest to the connection. -/
theorem SendsTo.exists_sent {c c' : Connection} (h : c.SendsTo c') : ∃ ms, Sent ms c c' := by
  obtain ⟨moves, hs, hr⟩ := h
  have hrun (v : Conversation) : ∃ ms, Sent ms v.connection (v.run moves).connection := by
    clear hr
    induction moves generalizing v with
    | nil => exact ⟨[], .refl _⟩
    | cons m moves ih =>
      obtain ⟨ms, hm⟩ := exists_sent_step (hs m List.mem_cons_self) v
      obtain ⟨ms', hms⟩ := ih (fun m' hm' => hs m' (List.mem_cons_of_mem _ hm')) (v.step m)
      exact ⟨ms ++ ms', hm.trans hms⟩
  simpa [hr []] using hrun ⟨c, []⟩

end Connection

variable {α : Type}

/-- A handler is direct, and whatever the call, it does nothing with the connection but send. -/
def Handler.Sends : Handler α → Prop
  | .direct run => ∀ c (s : Site α), s.connection.SendsTo (run c s).2.connection
  | .coroutine _ | .threaded _ => False

/-- A direct handler of typed params only sends if it does on params that have been read. -/
theorem Handler.sends_directOf {shape : Shape} {run : Call → Json → Site α → Outcome × Site α}
    (h : ∀ c params (s : Site α), s.connection.SendsTo (run c params s).2.connection) : (directOf shape run).Sends := by
  intro c s
  cases hr : c.read shape with
  | ok params => simpa [hr] using h c params s
  | error f => simpa [hr] using Connection.SendsTo.refl _

/-- Only direct handlers are called sending. -/
theorem Handler.Sends.mode {h : Handler α} (hs : h.Sends) : h.mode = .direct := by
  cases h with
  | direct => rfl
  | coroutine | threaded => cases hs

namespace Registry

variable {β : Type}

/-- The handler that serves a method is the same one in a registry of its modes. -/
theorem serving?_map {γ : Type} (f : β → γ) (r : Registry β) (method : String) :
    (r.map f).serving? method = (r.serving? method).map fun e => (e.1, f e.2) := by
  unfold serving?
  rw [find?_map, find?_map]
  cases r.find? .builtin method with
  | some b => rfl
  | none => cases r.find? .user method <;> rfl

/-- What a message calls: the command that it names, what serves its method, or every handler of a notification. -/
def calledBy (r : Registry β) : Message → List β
  | .request _ method params =>
    if method = Connection.commandMethod then
      (((params.field? "command").bind Json.str?).bind (r.find? .command)).toList
    else (r.lookup method).toList
  | .notification method _ =>
    if method = Connection.cancelMethod then []
    else if method = Connection.exitMethod then (r.lookup method).toList
    else (r.find? .builtin method).toList ++ (r.find? .user method).toList
  | _ => []

/-- The handler of a job is among what a message calls. -/
def Calls (r : Registry β) (m : Message) (j : Job) : Prop := ∃ b ∈ r.calledBy m, r.find? j.origin j.name = some b

variable {r : Registry β} {f : β → Mode}

/-- What serves a method is what the registry holds for it. -/
theorem exists_lookup {method : String} {origin : Origin} {mode : Mode} (h : (r.map f).serving? method = some (origin, mode)) :
    ∃ b ∈ (r.lookup method).toList, r.find? origin method = some b := by
  rw [serving?_map] at h
  obtain ⟨⟨o, b⟩, hb, he⟩ := Option.map_eq_some_iff.mp h
  obtain ⟨rfl, -⟩ := Prod.mk.inj he
  exact ⟨b, by simp [lookup, hb], find?_of_serving? hb⟩

end Registry

namespace Connection

variable {β : Type} {r : Registry β} {f : β → Mode}

/-- The handler of a request is what the request calls. -/
theorem Target.calls {c : Connection} (hr : c.routes = r.map f) {id : MessageId} {method : String} {params : Json} {j : Job}
    (h : c.Target id method params j) : r.Calls (.request id method params) j := by
  simp only [Registry.Calls, Registry.calledBy]
  rcases h with ⟨hm, hs, -, hn, -⟩ | ⟨hm, ht, -⟩
  · rw [if_neg (by rw [hm]; decide), hn]
    exact Registry.exists_lookup (hr ▸ hs)
  · unfold route at ht
    split at ht
    · rename_i hc
      rw [if_pos hc]
      split at ht
      · cases ht
      · rename_i name hname
        split at ht
        · cases ht
        · rename_i mode hf
          simp only [Except.ok.injEq, Prod.mk.injEq] at ht
          obtain ⟨ho, rfl, -, -⟩ := ht
          rw [hr, Registry.find?_map] at hf
          obtain ⟨b, hb, -⟩ := Option.map_eq_some_iff.mp hf
          exact ⟨b, by simp [hname, hb], ho ▸ hb⟩
    · rename_i hc
      rw [if_neg hc]
      split at ht
      · cases ht
      · rename_i origin mode hs
        simp only [Except.ok.injEq, Prod.mk.injEq] at ht
        obtain ⟨rfl, rfl, -, -⟩ := ht
        exact Registry.exists_lookup (hr ▸ hs)

/-- The handlers of a notification are what the notification calls, those that follow among them. -/
theorem calls_of_receiveNotification {c : Connection} (hr : c.routes = r.map f) {method : String} {params : Json} {j : Job}
    (h : (c.receiveNotification method params).2 = some j) :
    r.Calls (.notification method params) j ∧
      (j.duty = .builtin → ∀ b, r.find? .user j.method = some b → b ∈ r.calledBy (.notification method params)) := by
  unfold receiveNotification at h
  simp only [Registry.Calls, Registry.calledBy]
  split at h
  · cases h
  · rename_i hc
    rw [if_neg hc]
    split at h
    · rename_i he
      rw [if_pos he]
      unfold receiveExit at h
      split at h
      · cases h
      · rename_i origin mode hs
        obtain rfl := Option.some.inj h
        rw [he]
        exact ⟨Registry.exists_lookup (hr ▸ hs), nofun⟩
    · rename_i he
      rw [if_neg he]
      have hmode {origin : Origin} {mode : Mode} (hf : c.routes.find? origin method = some mode) :
          ∃ b, r.find? origin method = some b := by
        rw [hr, Registry.find?_map] at hf
        obtain ⟨b, hb, -⟩ := Option.map_eq_some_iff.mp hf
        exact ⟨b, hb⟩
      split at h
      · cases h
      · unfold receiveFeature at h
        split at h
        · rename_i hb
          obtain rfl := Option.some.inj h
          obtain ⟨b, hb⟩ := hmode hb
          exact ⟨⟨b, by simp [hb], hb⟩, fun _ b' hb' => by simp [hb']⟩
        · obtain ⟨mode, hu, rfl⟩ := Option.map_eq_some_iff.mp h
          obtain ⟨b, hb⟩ := hmode hu
          exact ⟨⟨b, by simp [hb], hb⟩, nofun⟩

/-- The job of a payload, and the one that follows, are for what the payload calls. -/
theorem exists_calls_of_receive {c : Connection} (hr : c.routes = r.map f) {payload : Bytes} {j : Job}
    (h : (c.receive payload).2 = some j) :
    ∃ m, (Message.decode c.catalogue {} payload).1 = .ok m ∧ r.Calls m j ∧
      (j.duty = .builtin → ∀ b, r.find? .user j.method = some b → b ∈ r.calledBy m) := by
  cases hd : c.reads payload with
  | error e =>
    rw [receive_of_error hd] at h
    cases h
  | ok m =>
    -- What is no answer is read without the table of those that are expected.
    have hread (ht : Message.told (c.reads payload) = none) : (Message.decode c.catalogue {} payload).1 = .ok m := by
      rw [← reads_of_not_replier (by rw [reads, Message.told_decode] at ht; exact ht), hd]
    rw [hd] at hread
    have hr' : (c.opened payload).routes = r.map f := hr
    cases m with
    | request id method params =>
      have hrec := receive_received c payload
      rw [hd] at hrec
      generalize c.receive payload = s at hrec h
      cases hrec with
      | begun j' ha hb ht hm hn =>
        obtain rfl := Option.some.inj h
        refine ⟨_, hread rfl, ht.calls hr', fun hb => ?_⟩
        rcases ht with ⟨-, -, hd', -, -⟩ | ⟨-, -, hd'⟩
        all_goals
          rw [hd'] at hb
          cases hb
      | _ => cases h
    | notification method params =>
      rw [receive_of_ok hd] at h
      split at h
      · cases h
      · exact ⟨_, hread rfl, calls_of_receiveNotification hr' h⟩
    | result id v =>
      rw [receive_of_ok hd] at h
      split at h <;> cases h
    | error id e =>
      rw [receive_of_ok hd] at h
      cases id <;> (split at h <;> cases h)

end Connection

/-- What a message calls is in the registry. -/
theorem Registry.exists_find?_of_mem_calledBy {β : Type} {r : Registry β} {m : Message} {b : β} (h : b ∈ r.calledBy m) :
    ∃ origin name, r.find? origin name = some b := by
  have hlookup {method : String} (hb : b ∈ (r.lookup method).toList) : ∃ origin name, r.find? origin name = some b := by
    obtain ⟨⟨origin, _⟩, hs, rfl⟩ := Option.map_eq_some_iff.mp (Option.mem_toList.mp hb)
    exact ⟨origin, method, find?_of_serving? hs⟩
  cases m with
  | request id method params =>
    simp only [calledBy] at h
    split at h
    · obtain ⟨name, -, hf⟩ := Option.bind_eq_some_iff.mp (Option.mem_toList.mp h)
      exact ⟨.command, name, hf⟩
    · exact hlookup h
  | notification method params =>
    simp only [calledBy] at h
    split at h
    · cases h
    · split at h
      · exact hlookup h
      · rcases List.mem_append.mp h with hb | hu
        · exact ⟨.builtin, method, Option.mem_toList.mp hb⟩
        · exact ⟨.user, method, Option.mem_toList.mp hu⟩
  | result | error => cases h

/-- Every handler that a payload calls is direct and only sends. -/
def Registry.SendsOn (handlers : Registry (Handler α)) (catalogue : Catalogue) (payload : Bytes) : Prop :=
  ∀ m, (Message.decode catalogue {} payload).1 = .ok m → ∀ h ∈ handlers.calledBy m, h.Sends

/-- What is read of a payload decides which handlers it calls. -/
theorem Registry.sendsOn_of_read {handlers : Registry (Handler α)} {catalogue : Catalogue} {payload : Bytes} {m : Message}
    (hm : (Message.decode catalogue {} payload).1 = .ok m) (h : ∀ b ∈ handlers.calledBy m, b.Sends) :
    handlers.SendsOn catalogue payload := by
  intro m' hm' b hb
  obtain rfl := Except.ok.inj (hm.symm.trans hm')
  exact h b hb

/-- The direct handlers of a registry only send. -/
def Registry.Sends (handlers : Registry (Handler α)) : Prop :=
  ∀ origin name h, handlers.find? origin name = some h → h.mode = .direct → h.Sends

/-- For such a registry it is enough that a payload calls direct handlers alone. -/
theorem Registry.Sends.sendsOn {handlers : Registry (Handler α)} (h : handlers.Sends) {catalogue : Catalogue} {payload : Bytes}
    {m : Message} (hm : (Message.decode catalogue {} payload).1 = .ok m) (hd : ∀ b ∈ handlers.calledBy m, b.mode = .direct) :
    handlers.SendsOn catalogue payload := by
  refine Registry.sendsOn_of_read hm fun b hb => ?_
  obtain ⟨origin, name, hf⟩ := Registry.exists_find?_of_mem_calledBy hb
  exact h origin name b hf (hd b hb)

end Parley
