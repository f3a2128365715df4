import Parley.Proofs.Frame.Bounds
import Parley.Proofs.Server.Lawful
import Parley.Proofs.Session.Loop
import Parley.WebSocket

/-!
# The limit on messages

How long the payloads are that a session hands to its connection. Over a stream none is longer than the limit of the server,
whatever bytes arrive: a framer accepts no longer declaration, and keeps none (`Framer.Within`), so it is the same in every state
that the session comes to (`Session.Bounded.ticks`). Over a WebSocket nobody looks at the limit, and a message of any length that the
socket itself takes is handed on as it is.
-/

namespace Parley

open Parley.Frame (Framer Reading)

/-- A source is a stream whose framer is within a limit. -/
def Source.Bounded (limit : Nat) : Source → Prop
  | .stream framer _ _ => framer.Within limit
  | .queue _ => False

namespace Source

variable {src src' : Source} {limit : Nat}

/-- Whatever arrives, a stream stays within its limit. -/
theorem Bounded.grows (h : src.Bounded limit) (hg : src.Grows src') : src'.Bounded limit := by
  have same {a b : Source} (hb : a.Bounded limit) (hf : ∀ framer bytes closed, a = .stream framer bytes closed →
      ∃ bytes closed, b = .stream framer bytes closed) : b.Bounded limit := by
    cases a with
    | queue items => cases hb
    | stream framer bytes closed =>
      obtain ⟨bytes, closed, rfl⟩ := hf framer bytes closed rfl
      exact hb
  induction hg with
  | refl => exact h
  | push _ bytes ih => exact same ih fun framer arrived closed he => ⟨_, _, by rw [he]; rfl⟩
  | close _ ih => exact same ih fun framer arrived closed he => ⟨_, _, by rw [he]; rfl⟩
  | fail _ f ih => exact same ih fun framer arrived closed he => ⟨_, _, by rw [he]; rfl⟩

/-- What a stream gives is within its limit, and leaves it so. -/
theorem Bounded.next (h : src.Bounded limit) {r : Reading} (hn : src.next = some (r, src')) :
    src'.Bounded limit ∧ ∀ payload, r = .payload payload → payload.length ≤ limit := by
  cases src with
  | queue items => cases h
  | stream framer bytes closed =>
    obtain ⟨⟨x, framer', rest⟩, hx, he⟩ := Option.map_eq_some_iff.mp hn
    obtain ⟨rfl, rfl⟩ := Prod.mk.inj he
    exact Framer.Within.next h hx

end Source

namespace Session

variable {α : Type} {s s' : Session α} {limit : Nat}

/-- A payload is one that the session can hand to its connection next: the next of its source or, without a loop, any. -/
def Hands (s : Session α) (payload : Bytes) : Prop :=
  s.intake = .none ∨ ∃ source, s.source.next = some (.payload payload, source)

/-- A session takes payloads from a stream within a limit, in a loop that has begun. -/
structure Bounded (limit : Nat) (s : Session α) : Prop where
  source : s.source.Bounded limit
  intake : s.intake ≠ .none

/-- No payload that is handed to the connection is above the limit. -/
theorem Bounded.hands (h : s.Bounded limit) {payload : Bytes} (hp : s.Hands payload) : payload.length ≤ limit := by
  rcases hp with hi | ⟨source, hn⟩
  · exact absurd hi h.intake
  · exact (h.source.next hn).2 payload rfl

theorem Bounded.unread (h : s.Bounded limit) (hu : Unread s s') : s'.Bounded limit :=
  ⟨hu.source ▸ h.source, hu.intake ▸ h.intake⟩

/-- When the loop ends, the source stays as it is. -/
theorem Bounded.finish (h : s.Bounded limit) (r : Reason) : (s.finish r).Bounded limit := by
  have hu := unread_rouse { s.withConnection s.site.connection.teardown with intake := .ended r }
  have hs : (s.finish r).source = s.source := hu.source
  exact ⟨hs ▸ h.source, by simp⟩

/-- The loop takes what its stream gives, which leaves the stream within the limit. -/
theorem Bounded.round (h : s.Bounded limit) : s.round.Bounded limit := by
  have hround := round_cases s
  have taken {r : Frame.Reading} {source : Source} (hn : s.source.next = some (r, source)) :
      Session.Bounded limit { s with source } := ⟨(h.source.next hn).1, h.intake⟩
  generalize s.round = s' at hround ⊢
  cases hround with
  | stopped | exited => exact h.finish _
  | idle => exact h
  | @serves payload source s₁ hc hn hr =>
    have hp := (taken hn).unread (unread_receive _ payload)
    rwa [hr] at hp
  | @awaits payload source s₁ n hc hn hr =>
    have hp := (taken hn).unread (unread_receive _ payload)
    rw [hr] at hp
    exact ⟨hp.source, by simp⟩
  | closed hc hn => exact (taken hn).finish _
  | breaks hn => exact ⟨(taken hn).source, by simp⟩
  | @failed source f hc hn =>
    have hf : (Session.report { s with source } .transport f.message).Bounded limit := ⟨(taken hn).source, h.intake⟩
    exact hf.finish _
  | reports hs hc hn => exact ⟨(taken hn).source, h.intake⟩

/-- Whatever happens, the session stays within the limit. -/
theorem Bounded.tick (h : s.Bounded limit) (ht : Tick s s') : s'.Bounded limit := by
  cases ht with
  | read hi => exact h.round
  | turn hi =>
    have hs : (s.taken .loop).Bounded limit := ⟨h.source, h.intake⟩
    exact hs.round
  | resume hb hn =>
    unfold Session.resume
    split
    · exact h.finish _
    · have hs : Session.Bounded limit { s with intake := .reading } := ⟨h.source, by simp⟩
      exact hs.round
  | apart ha => exact h.unread ha.unread
  | @arrive source hg =>
    have hs : Session.Bounded limit { s with source } := ⟨h.source.grows hg, h.intake⟩
    unfold nudge
    split
    · exact hs.unread (unread_enqueue _ _)
    · exact hs
  | stop =>
    have hs : Session.Bounded limit { s with stopping := true } := ⟨h.source, h.intake⟩
    exact hs.unread (unread_rouse _)

/-- So it is in every state that the session comes to. -/
theorem Bounded.ticks (h : s.Bounded limit) (ht : Ticks s s') : s'.Bounded limit := by
  induction ht with
  | refl => exact h
  | tail _ ht ih => exact ih.tick ht

/-- What becomes of the site when the loop hands a payload on. -/
theorem site_round_of_payload (hs : s.stopping = false) (hx : s.site.connection.exitCode = none) {payload : Bytes}
    {source : Source} (hn : s.source.next = some (.payload payload, source)) :
    s.round.site = (receive { s with source } payload).1.site := by
  rw [Session.round, if_neg (by simp [hs])]
  simp only [hx, hn]
  split <;> simp_all

end Session

/-- The message that a frame of a WebSocket carries. -/
def WsFrame.message? : WsFrame → Option Bytes
  | .text b | .binary b => some b
  | _ => none

namespace WebSocket

/-- What is read among frames is the message of one of them. -/
theorem exists_frame_of_readFrames {w w' : WebSocket} {frames : List WsFrame} {b : Bytes}
    (h : w.readFrames frames = some (.payload b, w')) : ∃ f ∈ frames, f.message? = some b := by
  induction frames generalizing w with
  | nil =>
    rw [readFrames] at h
    split at h
    · cases h
    · split at h <;> cases h
  | cons f frames ih =>
    have later {u : WebSocket} (h : u.readFrames frames = some (.payload b, w')) : ∃ f' ∈ f :: frames, f'.message? = some b := by
      obtain ⟨f', hm, hf⟩ := ih h
      exact ⟨f', List.mem_cons_of_mem _ hm, hf⟩
    rw [readFrames] at h
    split at h
    · cases h
    · cases f with
      | text m | binary m =>
        obtain ⟨hm, -⟩ := Prod.mk.inj (Option.some.inj h)
        exact ⟨_, List.mem_cons_self, congrArg some (Reading.payload.inj hm)⟩
      | ping m | pong m =>
        simp only at h
        split at h
        · cases h
        · exact later h
      | close => cases h

/-- A message that comes next is read as it is, however long it is. -/
theorem next_of_message {w : WebSocket} {f : WsFrame} {rest : List WsFrame} {b : Bytes} (ha : w.arrived = f :: rest)
    (hf : f.message? = some b) (he : w.ended = false) (hs : w.isStuck = false) :
    w.next = some (.payload b, { w.flush with arrived := rest }) := by
  rw [WebSocket.next, he, if_neg (by simp), ha, readFrames, if_neg (by simp [hs])]
  cases f with
  | text m | binary m =>
    obtain rfl := Option.some.inj hf
    rfl
  | ping | pong | close => cases hf

end WebSocket

namespace Server

open Session (Ticks)

variable {β : Type} {server : Server β} {own : Served β} {source : Source} {framed : Bool} {s₀ : Session (Served β)}

/-- A server that serves begins to take payloads from its source, with a connection to which nothing has happened. -/
theorem serve_begins (h : server.serve own source framed = .ok s₀) :
    s₀.source = source ∧ s₀.intake = .reading ∧ s₀.stopping = false ∧ s₀.site.connection.exitCode = none := by
  obtain ⟨handlers, -, rfl⟩ := exists_of_serve h
  exact ⟨rfl, rfl, rfl, rfl⟩

/-- How far the limit on messages holds for the connections of a server, whatever its handlers do, in four parts.
1. Over a stream, in every state that the session comes to, whatever bytes arrive and however its turns fall, no payload that is
   handed to the connection is longer than the limit of the configuration.
2. What is read from a WebSocket is a message that the peer has sent in one frame, so there the limit holds if the peer keeps it.
3. Nothing else keeps it: a message that the socket takes is read as it is, however long it is,
4. and a session over messages hands it to the connection in its next round, whatever the limit of the configuration is. -/
theorem size_limit_on_streams (server : Server β) (own : Served β) (framed : Bool) :
    (∀ s₀, server.serve own server.streamSource framed = .ok s₀ → ∀ s, Ticks s₀ s → ∀ payload, s.Hands payload →
      payload.length ≤ server.config.messageSize) ∧
    (∀ (w w' : WebSocket) b, w.ended = false → w.next = some (.payload b, w') → ∃ f ∈ w.arrived, f.message? = some b) ∧
    (∀ (w : WebSocket) f rest b, w.arrived = f :: rest → f.message? = some b → w.ended = false → w.isStuck = false →
      w.next = some (.payload b, { w.flush with arrived := rest })) ∧
    ∀ s₀, server.serve own (.queue []) framed = .ok s₀ → ∀ b,
      let s := s₀.feed b
      s.Hands b ∧ ∃ source, s.round.site = (Session.receive { s with source } b).1.site := by
  refine ⟨fun s₀ h s ht payload hp => ?_, fun w w' b he h => ?_, fun w f rest b ha hf he hs => ?_, fun s₀ h b => ?_⟩
  · obtain ⟨hs, hi, -, -⟩ := serve_begins h
    have hb : s₀.Bounded server.config.messageSize := ⟨by rw [hs]; exact ⟨rfl, by simp⟩, by simp [hi]⟩
    exact (hb.ticks ht).hands hp
  · rw [WebSocket.next, he] at h
    exact WebSocket.exists_frame_of_readFrames h
  · exact WebSocket.next_of_message ha hf he hs
  · obtain ⟨hs, hi, ht, hx⟩ := serve_begins h
    have hf : s₀.feed b = Session.enqueue { s₀ with source := .queue [.payload b] } .loop := by
      rw [Session.feed, if_neg (by simp [hi]), hs, Session.nudge, if_pos hi]
      rfl
    have hu : Session.Unread { s₀ with source := .queue [.payload b] } (s₀.feed b) := hf ▸ Session.unread_enqueue _ _
    have hn : (s₀.feed b).source.next = some (.payload b, .queue []) := by
      rw [hu.source]
      rfl
    have hc : (s₀.feed b).site.connection.exitCode = none := by
      rw [hf]
      unfold Session.enqueue
      split <;> exact hx
    exact ⟨.inr ⟨_, hn⟩, _, Session.site_round_of_payload (hu.stopping.trans ht) hc hn⟩

/-- A server with the smallest limit that is accepted. -/
def tightServer : Server Unit := { config := { messageSize := 1024 } }

/-- A request that is longer than that. -/
def longRequest : Bytes := (Message.request (.num 1) "ask" (.str (String.ofList (List.replicate 1200 'x')))).encode

/-- Over a stream `tightServer` does not hand `longRequest` on, and over a WebSocket it does. -/
theorem size_limit_on_streams_tightServer :
    (∃ s₀, tightServer.serve ⟨{}, ()⟩ tightServer.streamSource true = .ok s₀ ∧
      Ticks s₀ (s₀.feed (Frame.frame longRequest)) ∧ ¬(s₀.feed (Frame.frame longRequest)).Hands longRequest) ∧
    ∃ s₀, tightServer.serve ⟨{}, ()⟩ (.queue []) false = .ok s₀ ∧ (s₀.feed longRequest).Hands longRequest := by
  have hl : 1024 < longRequest.length := by decide +kernel
  obtain ⟨s₀, hs⟩ : ∃ s₀, tightServer.serve ⟨{}, ()⟩ tightServer.streamSource true = .ok s₀ := ⟨_, rfl⟩
  obtain ⟨s₁, hw⟩ : ∃ s₁, tightServer.serve ⟨{}, ()⟩ (.queue []) false = .ok s₁ := ⟨_, rfl⟩
  have ht : Ticks s₀ (s₀.feed (Frame.frame longRequest)) := .single (Session.tick_feed (by simp [(serve_begins hs).2.1]) _)
  have hn : ¬(s₀.feed (Frame.frame longRequest)).Hands longRequest := fun hp =>
    absurd ((size_limit_on_streams tightServer ⟨{}, ()⟩ true).1 s₀ hs _ ht _ hp) (Nat.not_le.mpr hl)
  exact ⟨⟨s₀, hs, ht, hn⟩, s₁, hw, ((size_limit_on_streams tightServer ⟨{}, ()⟩ false).2.2.2 s₁ hw _).1⟩

/-- Over a WebSocket the configuration of `tightServer` is accepted, and a request is handed on that is longer than its limit. -/
theorem websocket_ignores_size_limit :
    tightServer.config.validate = .ok () ∧ tightServer.config.messageSize < longRequest.length ∧
    ∃ s₀, tightServer.serve ⟨{}, ()⟩ (.queue []) false = .ok s₀ ∧ (s₀.feed longRequest).Hands longRequest :=
  ⟨rfl, by decide +kernel, _, rfl, .inr ⟨_, rfl⟩⟩

end Server

end Parley
