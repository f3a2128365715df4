import Parley.Proofs.Message.Written
import Parley.Proofs.Server.Lawful
import Parley.Proofs.Session.Delivery

/-!
# What a server delivers

A server on a stream loses and reorders nothing: when its session has ended, the sink has got what was queued for each payload,
in the order of the payloads, and was closed once. That is so whatever pieces the stream comes in and however the turns of the loop
and of the writer fall, as long as the handlers that are called are direct and only send, and no payload is longer than the limit.
Neither condition can be left out (`stream_cut_short`).
-/

namespace Parley

namespace Server

variable {β : Type}

/-- Of the builtin features, those that are direct keep to the workspace. -/
theorem sends_of_mem_builtins {config : Config} {method : String} {h : Handler (Served β)} (hm : (method, h) ∈ builtins config)
    (hd : h.mode = .direct) : h.Sends := by
  have workspace (method : String) (change : Json → Workspace → Workspace) :
      (workspaceHandler method change : Handler (Served β)).Sends := Handler.sends_directOf fun _ _ _ => .refl _
  simp only [builtins, List.mem_cons, Prod.mk.injEq, List.not_mem_nil, or_false] at hm
  rcases hm with ⟨-, rfl⟩ | ⟨-, rfl⟩ | ⟨-, rfl⟩ | ⟨-, rfl⟩ | ⟨-, rfl⟩ | ⟨-, rfl⟩ | ⟨-, rfl⟩
  · cases hd
  · exact fun _ _ => .refl _
  all_goals exact workspace _ _

/-- So the direct handlers of a connection only send if the user's do. -/
theorem sends_connectionRegistry {server : Server β} (hs : server.registry.Sends) {handlers : Registry (Handler (Served β))}
    (h : server.connectionRegistry = .ok handlers) : handlers.Sends := by
  intro origin name b hf hd
  rcases find?_connectionRegistry h hf with hb | hu
  · exact sends_of_mem_builtins hb hd
  · obtain ⟨-, origin', hu⟩ := Registry.exists_of_find?_asUsers hu
    exact hs origin' name b hu hd

/-- A server that begins to serve a stream has taken and queued nothing yet. -/
theorem sound_serve {server : Server β} {own : Served β} {s₀ : Session (Served β)}
    (h : server.serve own server.streamSource true = .ok s₀) (payloads : List Bytes) :
    s₀.framed = true ∧ s₀.site.connection.catalogue = Catalogue.languageServer ∧
      Progress.Sound s₀ server.config.messageSize payloads (payloads.flatMap Frame.frame) false [] s₀ := by
  obtain ⟨handlers, -, rfl⟩ := exists_of_serve h
  refine ⟨rfl, rfl, rfl, rfl, rfl, rfl, rfl, rfl, rfl, rfl, by simp, payloads, 0, ?_, ?_, ?_⟩
  · exact ⟨rfl, by rintro ⟨⟩, [], rfl, rfl⟩
  · exact .reading ⟨rfl, by rintro ⟨⟩⟩ (by simp)
  · exact @Outlet.opened _ _ _ _ [] [] rfl rfl rfl

/-- What a server delivers that serves a stream of payloads, in four parts. It is for payloads that are within its limit and fit
a buffer, and call direct handlers which do nothing with the connection but send.
1. At every moment, what was queued for a payload that was taken is what its handlers sent, in their order, and then its answer if
   it asks for one, which is the outcome of its handler if that was called; and what is written is the beginning of what was queued
   for the payloads taken, message by message, in the order of the payloads.
2. When the session has ended, all payloads were taken up to the first `exit`, everything that was queued for them is written, the
   sink was closed, and nothing happens to the sink any more. The session ends because of the `exit`, or else because the stream
   does.
3. From every moment on the session can come to its end.
4. What the session does by itself is among what is spoken of. -/
theorem stream_delivered_in_full (server : Server β) (own : Served β) (s₀ : Session (Served β))
    (h : server.serve own server.streamSource true = .ok s₀) (payloads : List Bytes)
    (hlen : ∀ p ∈ payloads, p.length ≤ Frame.room server.config.messageSize)
    (hsend : ∀ p ∈ payloads, s₀.handlers.SendsOn Catalogue.languageServer p) :
    let first : Progress (Served β) := { unsent := payloads.flatMap Frame.frame, session := s₀ }
    let written (x : Progress (Served β)) := (x.taken.flatMap (Taken.queued s₀.handlers)).map (Message.write true)
    (∀ x, first.Reaches x → (∀ t ∈ x.taken, t.site.Output s₀.handlers t.payload) ∧ x.session.written <+: written x) ∧
    (∀ x r, first.Reaches x → x.session.ended? = some r →
      x.taken.map Taken.event = Catalogue.languageServer.heard (payloads.map .payload) ∧
      x.session.sink = some { written := written x, closed := some true } ∧
      (∀ y, x.Reaches y → y.session.sink = x.session.sink) ∧
      (r = .peerClosed ∨
        ∃ t ∈ x.taken, t.event.isExit Catalogue.languageServer = true ∧ r = .exit t.site.connection.leavingCode)) ∧
    (∀ x, first.Reaches x → ∃ y, x.Reaches y ∧ y.session.ended?.isSome = true) ∧
    ∀ x, first.Reaches x → ∀ fuel, ∃ taken, x.Reaches { x with taken, session := x.session.run fuel } := by
  intro first written
  obtain ⟨hframed, hcatalogue, hfirst⟩ := sound_serve h payloads
  rw [← hcatalogue] at hsend ⊢
  have hsound (x : Progress (Served β)) (hx : first.Reaches x) :=
    Progress.Sound.reaches hlen hsend (x := first) hfirst hx
  have hwritten (x : Progress (Served β)) :
      written x = (x.taken.flatMap (Taken.queued s₀.handlers)).map (Message.write s₀.framed) := by rw [hframed]
  refine ⟨fun x hx => ⟨(hsound x hx).outputs, ?_⟩, fun x r hx hr => ?_, fun x hx => ?_, fun x hx fuel => ?_⟩
  · obtain ⟨left, closes, -, -, houtlet⟩ := (hsound x hx).course
    exact hwritten x ▸ houtlet.written_prefix
  · obtain ⟨hevents, hsink, hreason⟩ := (hsound x hx).delivered hr
    exact ⟨hevents, hwritten x ▸ hsink, fun y hy => (hy.of_ended hr).2.1, hreason⟩
  · exact (hsound x hx).exists_ended hlen hsend
  · exact (hsound x hx).exists_reaches_run hlen hsend fuel

/-- A request, and the `exit` behind it. -/
def askRequest : Message := .request (.num 2) "ask" (.bool true)

def exitNote : Message := .notification Connection.exitMethod .null

/-- A handler that sends a notification and a request before it answers. -/
def greetingHandler : Handler (Served Unit) :=
  .direct fun c s => (.ok c.params, ((s.notify "note" .null).2.request "client/ask" .null).2)

/-- A server with this handler. -/
def greetingServer : Server Unit :=
  { config := { messageSize := 1024 }
    registry := { features := ({} : Table String (Handler (Served Unit))).insert "ask" greetingHandler } }

/-- The handler of `greetingServer` does nothing but send. -/
theorem sends_greetings : greetingServer.registry.Sends := by
  intro origin name b hf _
  cases origin with
  | user =>
    rcases Registry.find?_insert_cases hf with rfl | hf
    · exact fun _ s => (s.connection.sendsTo_notify _ _).trans (Connection.sendsTo_request _ _ _)
    · cases hf
  | builtin | command => cases hf

/-- What the peer gets for these. -/
def greetings : List Message :=
  [.notification "note" .null, .request (Connection.mintedId 0) "client/ask" .null, .result (.num 2) (.bool true)]

/-- From `greetingServer` the peer gets what the handler sends and then the answer. -/
theorem stream_delivered_in_full_greetingServer :
    let payloads := [askRequest.encode, exitNote.encode]
    ∃ s₀, greetingServer.serve ⟨{}, ()⟩ greetingServer.streamSource true = .ok s₀ ∧
      (∀ p ∈ payloads, p.length ≤ Frame.room greetingServer.config.messageSize) ∧
      (∀ p ∈ payloads, s₀.handlers.SendsOn Catalogue.languageServer p) ∧
      ∃ x : Progress (Served Unit), Progress.Reaches { unsent := payloads.flatMap Frame.frame, session := s₀ } x ∧
        x.session.ended? = some (.exit 1) ∧
        x.taken.map Taken.event = Catalogue.languageServer.heard (payloads.map .payload) ∧
        x.session.written = greetings.map (Message.write true) := by
  intro payloads
  have hask : (Message.decode Catalogue.languageServer {} askRequest.encode).1 = .ok askRequest :=
    congrArg Prod.fst (Message.decode_request (c := Catalogue.languageServer) (rfl : (MessageId.num 2).IsAccepted) rfl rfl {})
  have hexit : (Message.decode Catalogue.languageServer {} exitNote.encode).1 = .ok exitNote :=
    congrArg Prod.fst (Message.decode_notification (c := Catalogue.languageServer) (Message.parse_encode rfl) {})
  have hlen : ∀ p ∈ payloads, p.length ≤ Frame.room greetingServer.config.messageSize := by decide +kernel
  obtain ⟨s₀, h, hask', hexit', hended, hwritten⟩ : ∃ s₀,
      greetingServer.serve ⟨{}, ()⟩ greetingServer.streamSource true = .ok s₀ ∧
      s₀.handlers.calledBy askRequest = [greetingHandler] ∧ s₀.handlers.calledBy exitNote = [] ∧
      ((s₀.feed (payloads.flatMap Frame.frame)).run 10).ended? = some (.exit 1) ∧
      ((s₀.feed (payloads.flatMap Frame.frame)).run 10).written = greetings.map (Message.write true) :=
    ⟨_, rfl, rfl, rfl, by decide +kernel, by decide +kernel⟩
  have hsends : s₀.handlers.Sends := by
    obtain ⟨handlers, hr, hs⟩ := exists_of_serve h
    have hh : s₀.handlers = handlers := by rw [hs]; rfl
    exact hh ▸ sends_connectionRegistry sends_greetings hr
  have hsend : ∀ p ∈ payloads, s₀.handlers.SendsOn Catalogue.languageServer p := by
    intro p hp
    simp only [payloads, List.mem_cons, List.not_mem_nil, or_false] at hp
    rcases hp with rfl | rfl
    · exact hsends.sendsOn hask (by simp [hask', greetingHandler, Handler.mode])
    · exact hsends.sendsOn hexit (by simp [hexit'])
  obtain ⟨-, hdelivered, -, hrun⟩ := stream_delivered_in_full greetingServer ⟨{}, ()⟩ s₀ h payloads hlen hsend
  have harrive : Progress.Step ⟨payloads.flatMap Frame.frame ++ [], false, [], s₀⟩
      ⟨[], false, [], s₀.feed (payloads.flatMap Frame.frame)⟩ := .arrive
  rw [List.append_nil] at harrive
  obtain ⟨taken, hx⟩ := hrun _ (.single harrive) 10
  exact ⟨s₀, h, hlen, hsend, _, .head harrive hx, hended, (hdelivered _ _ (.head harrive hx) hended).1, hwritten⟩

/-- A server with two direct handlers, one of which releases the connection. -/
def releasingServer : Server Unit :=
  { config := { messageSize := 1024 }
    registry :=
      { features := (({} : Table String (Handler (Served Unit))).insert "bye" (.direct fun _ s => (.ok .null, s.teardown))).insert
          "ask" (.direct fun c s => (.ok c.params, s)) } }

def byeRequest : Message := .request (.num 1) "bye" .null

/-- Neither condition of `stream_delivered_in_full` can be left out: `releasingServer` serves two streams that end behind a request
for a direct handler, and writes nothing. In the first the connection was released before, by the handler of another request; in
the second, what comes before is longer than the limit. -/
theorem stream_cut_short :
    ∃ s₀, releasingServer.serve ⟨{}, ()⟩ releasingServer.streamSource true = .ok s₀ ∧
      (s₀.handlers.calledBy byeRequest).map Handler.mode = [.direct] ∧
      (s₀.handlers.calledBy askRequest).map Handler.mode = [.direct] ∧
      let first := (s₀.feed ([byeRequest.encode, askRequest.encode].flatMap Frame.frame)).settleAll.close.settleAll
      let second := (s₀.feed ([List.replicate 1025 0x20, askRequest.encode].flatMap Frame.frame)).settleAll.close.settleAll
      (first.ended? = some .peerClosed ∧ first.written = []) ∧
        second.ended? = some (.transportError "Message too large: 1025 bytes (max: 1024)") ∧ second.written = [] :=
  ⟨_, rfl, rfl, rfl, by decide +kernel, by decide +kernel⟩

end Server

end Parley
