import Parley.Proofs.Server.Lawful
import Parley.Proofs.Session.Events

/-!
# What noise does to the loop

A payload of which no message can be made, and a fault of the source behind which reading goes on, are noise: each is reported, the
sender is told if it named itself, and that is all that comes of it. So a loop whose handlers are direct and blind does the same
with the noise and without: the same calls with the same outcomes, the same answers, the same ledgers and the same end
(`loop_ignores_noise`). What stands behind an `exit` is not read, noise or not (`noise_behind_exit`).
-/

namespace Parley

open Parley.Frame (Reading)

namespace Frame

/-- What comes of an event that is noise: the wording of the fault, and the answer for whoever is to be told. A payload that
answers a request of ours is no noise, whether or not it can be read. -/
def Reading.noise? (catalogue : Catalogue) : Reading → Option (String × Option Message)
  | .payload bytes =>
    match (Message.decode catalogue {} bytes).1 with
    | .ok _ | .error (.invalidResponse ..) => none
    | .error f => some (f.message, f.replyId.map fun id => Reply.failure (some id) f.toResponseError)
  | .ended => none
  | .fault f => if f.isFatal then none else some (f.message, none)

/-- An event is noise. -/
def Reading.isNoise (catalogue : Catalogue) (e : Reading) : Bool := (e.noise? catalogue).isSome

/-- Where a call breaks off, nothing more is read. -/
theorem FrameFault.isFatal_of_breaksOff {f : FrameFault} (h : f.breaksOff = true) : f.isFatal = true := by
  obtain rfl : f = .capacityOverflow := of_decide_eq_true h
  rfl

/-- Noise is neither an `exit` nor a reason to end. -/
theorem Reading.of_isNoise {catalogue : Catalogue} {e : Reading} (h : e.isNoise catalogue = true) :
    e.isExit catalogue = false ∧ e.close? = none := by
  cases e with
  | payload bytes =>
    refine ⟨?_, rfl⟩
    simp only [isNoise, noise?] at h
    simp only [isExit]
    split at h
    · cases h
    · cases h
    · rename_i hd
      simp [hd]
  | ended => cases h
  | fault f =>
    refine ⟨rfl, ?_⟩
    simp only [isNoise, noise?] at h
    split at h
    · cases h
    · rename_i hf
      simp only [close?, if_neg hf, if_neg (mt FrameFault.isFatal_of_breaksOff hf)]

end Frame

/-- The loop reads the same up to an `exit` without the noise. -/
theorem Catalogue.heard_filter (catalogue : Catalogue) (es : List Reading) :
    catalogue.heard (es.filter fun e => !e.isNoise catalogue) = (catalogue.heard es).filter fun e => !e.isNoise catalogue := by
  induction es with
  | nil => rfl
  | cons e es ih =>
    cases hn : e.isNoise catalogue with
    | true => simp [heard, hn, (Reading.of_isNoise hn).1, ih]
    | false => cases he : e.isExit catalogue <;> simp [heard, hn, he, ih]

/-- What the loop comes to is the same without the noise. -/
theorem Frame.findSome?_filter_noise (catalogue : Catalogue) (es : List Reading) :
    (es.filter fun e => !e.isNoise catalogue).findSome? Reading.close? = es.findSome? Reading.close? := by
  induction es with
  | nil => rfl
  | cons e es ih =>
    cases hn : e.isNoise catalogue with
    | true => simp [hn, (Reading.of_isNoise hn).2, ih]
    | false => cases hr : e.close? <;> simp [hn, hr, ih]

variable {α : Type}

namespace Site

variable {handlers : Registry (Handler α)} {catalogue : Catalogue} {a b : Site α}

/-- Two sites differ at most in what is queued and was reported. -/
def Agrees (a b : Site α) : Prop := b.bare = a.bare

/-- A blind action leaves two such sites as two such sites. -/
theorem Agrees.act (h : a.Agrees b) {ρ : Type} {f : Site α → ρ × Site α} (hf : Blind f) : (f a).2.Agrees (f b).2 := by
  rw [Agrees, hf.eq_bare a, hf.eq_bare b, h]
  rfl

/-- What comes of an event does not depend on what is queued and was reported. -/
theorem Agrees.note (h : a.Agrees b) (hb : handlers.Blind) (e : Reading) : b.note handlers e = a.note handlers e := by
  have hn (site : Site α) : site.note handlers e = site.bare.note handlers e := by
    simp only [Site.note, (blind_meet hb e).eq_bare site, behind, Connection.behind, List.drop_left]
    rfl
  rw [hn a, hn b, h]

/-- What comes of noise: it is reported, and the answer is queued. -/
theorem meet_noise {e : Reading} {text : String} {reply : Option Message} (site : Site α)
    (h : e.noise? site.connection.catalogue = some (text, reply)) :
    site.meet handlers e =
      ([], { site with
        connection := { site.connection with
          queue := site.connection.queue ++ site.connection.kept (reply.map Outbound.frame).toList
          reports := site.connection.reports ++ [⟨.decode, text⟩] } }) := by
  cases e with
  | payload bytes =>
    simp only [Reading.noise?] at h
    split at h
    · cases h
    · cases h
    · rename_i f hnot hd
      obtain ⟨rfl, rfl⟩ := Prod.mk.inj (Option.some.inj h)
      -- Garbage that names a request of ours is no noise; any other is read alike, whatever is expected.
      have htold : Message.told (Message.decode site.connection.catalogue {} bytes).1 = none := by
        rw [hd]
        cases f with
        | invalidResponse id m => exact (hnot id m rfl).elim
        | _ => rfl
      have hr : site.connection.reads bytes = .error f := by
        rw [Connection.reads_of_not_replier (by rwa [Message.told_decode] at htold), hd]
      have ho : site.connection.opened bytes = site.connection :=
        Connection.opened_of_not_told (by rwa [hr, ← hd])
      have ha : site.connection.afterFault f = site.connection.outgoing := by
        cases f with
        | invalidResponse id m => exact (hnot id m rfl).elim
        | _ => rfl
      simp only [meet, serve, Connection.receive_of_error hr, ho, Connection.refuse_eq, ha]
      cases f.replyId <;> rfl
  | ended => cases h
  | fault f =>
    simp only [Reading.noise?] at h
    split at h
    · cases h
    · rename_i hf
      obtain ⟨rfl, rfl⟩ := Prod.mk.inj (Option.some.inj h)
      have hb : ¬ f.breaksOff = true := mt Frame.FrameFault.isFatal_of_breaksOff hf
      simp [meet, hb, hf, Connection.report, Connection.kept]

/-- After noise the site is what it was, but for what is queued and was reported. -/
theorem agrees_of_noise {e : Reading} (h : e.isNoise a.connection.catalogue = true) : a.Agrees (a.meet handlers e).2 := by
  obtain ⟨⟨text, reply⟩, hn⟩ := Option.isSome_iff_exists.mp h
  rw [meet_noise a hn]
  rfl

/-- Without the noise, the same comes of all other events, and the site is the same in the end. -/
theorem Agrees.journal (h : a.Agrees b) (hh : handlers.Lawful) (hb : handlers.Blind) (hc : a.connection.catalogue = catalogue)
    (es : List Reading) :
    (a.hears handlers es).Agrees (b.hears handlers (es.filter fun e => !e.isNoise catalogue)) ∧
      b.journal handlers (es.filter fun e => !e.isNoise catalogue) =
        (a.journal handlers es).filter fun n => !n.event.isNoise catalogue := by
  induction es generalizing a b with
  | nil => exact ⟨h, rfl⟩
  | cons e es ih =>
    have hc' := (sameSetup_meet hh hb e a).catalogue.trans hc
    have he : (a.note handlers e).event = e := rfl
    cases hn : e.isNoise catalogue with
    | true =>
      have hm : (a.meet handlers e).2.Agrees b := Eq.trans h (agrees_of_noise (hc ▸ hn)).symm
      obtain ⟨hl, hj⟩ := ih hm hc'
      refine ⟨?_, ?_⟩
      · simpa [hn] using hl
      · simpa [hn, Site.journal, he] using hj
    | false =>
      obtain ⟨hl, hj⟩ := ih (h.act (blind_meet hb e)) hc'
      refine ⟨?_, ?_⟩
      · simpa [hn] using hl
      · simp [hn, Site.journal, h.note hb, hj, he]

/-- What is noted of noise: nothing was called, it was reported, and the answer was queued. -/
theorem note_of_noise (hh : handlers.Lawful) (hb : handlers.Blind) {es : List Reading} {site : Site α} {n : Note}
    (hm : n ∈ site.journal handlers es) {text : String} {reply : Option Message}
    (hn : n.event.noise? site.connection.catalogue = some (text, reply)) :
    n.calls = [] ∧ n.reported = [⟨.decode, text⟩] ∧ n.queued = site.connection.kept (reply.map Outbound.frame).toList := by
  induction es generalizing site with
  | nil => cases hm
  | cons e es ih =>
    rcases List.mem_cons.mp hm with rfl | hm
    · have he : (site.note handlers e).event = e := rfl
      rw [he] at hn
      simp [note, meet_noise site hn]
    · have hs := sameSetup_meet hh hb e site
      have ih := ih hm (hs.catalogue ▸ hn)
      rwa [Connection.kept, hs.writable] at ih

end Site

namespace Session

variable {handlers : Registry (Handler α)} {catalogue : Catalogue} {s t : Session α}

/-- The sites of two sessions differ at most in what is queued and was reported, and their loops are at the same point. -/
structure Agrees (s t : Session α) : Prop where
  site : s.site.Agrees t.site
  intake : t.intake = s.intake
  stopping : t.stopping = s.stopping

/-- The connection of a session with these handlers and shapes knows them. -/
theorem Reachable.setup (h : Reachable handlers catalogue s) (hh : handlers.Lawful) :
    s.handlers = handlers ∧ s.site.connection.routes = handlers.map Handler.mode ∧ s.site.connection.catalogue = catalogue := by
  refine ⟨(h.underway hh).handlers, (h.underway hh).routes, ?_⟩
  obtain ⟨ms, hc, -⟩ := h.follows hh
  rw [hc]
  exact Conversation.catalogue_run _ ms

/-- In a session without a code no `exit` has been processed. -/
theorem Reachable.staying (h : Reachable handlers catalogue s) (hh : handlers.Lawful) (hx : s.site.connection.exitCode = none) :
    s.site.connection.Staying := by
  rcases h.recorded hh with ⟨-, hl⟩ | ⟨-, hc | hc⟩
  · exact ⟨hx, hl⟩
  · simp [hx] at hc
  · simp [hx] at hc

/-- What the loop of a session does with events, when all handlers are direct and blind. -/
theorem Reachable.takePayloads_heard (h : Reachable handlers catalogue s) (hh : handlers.Lawful) (hb : handlers.Blind)
    (hi : s.intake = .reading) {es : List Reading} (hes : s.source.Yields es) {fuel : Nat} (hf : es.length < fuel) :
    let last := s.site.hears handlers (s.heard es)
    (s.takePayloads fuel).intake = s.closing es last.connection.exitCode ∧
      (s.takePayloads fuel).site = leave last (s.closing es last.connection.exitCode) ∧
      (s.takePayloads fuel).stopping = s.stopping := by
  obtain ⟨hhandlers, hroutes, -⟩ := h.setup hh
  have hx := h.staying hh
  subst hhandlers
  exact Session.takePayloads_heard hes ⟨hh, hb, hroutes⟩ hx hi hf

/-- The code is recorded behind what the loop reads exactly if it was before, or an `exit` is read. -/
theorem Reachable.exitCode_heard (h : Reachable handlers catalogue s) (hh : handlers.Lawful) (hb : handlers.Blind)
    (es : List Reading) :
    (s.site.hears handlers (s.heard es)).connection.exitCode.isSome = true ↔
      s.site.connection.exitCode.isSome = true ∨ ∃ e ∈ s.heard es, e.isExit catalogue = true := by
  obtain ⟨-, -, hc⟩ := h.setup hh
  cases hx : s.site.connection.exitCode with
  | some code => simp [heard, hx]
  | none =>
    by_cases hs : s.stopping
    · simp [heard, hs, hx]
    · have he := Site.exitCode_hears hh hb es (h.staying hh hx)
      simpa [heard, hs, hx, hc] using he

/-- A loop leaves nothing unread unless it is to end: the session is to stop, or the code is recorded. -/
theorem Reachable.heard_eq (h : Reachable handlers catalogue s) (hh : handlers.Lawful) (hb : handlers.Blind) {es : List Reading}
    (hs : s.stopping = false) (hx : (s.site.hears handlers (s.heard es)).connection.exitCode = none) : s.heard es = es := by
  obtain ⟨-, -, hc⟩ := h.setup hh
  have he := h.exitCode_heard hh hb es
  simp only [hx, Option.isSome_none, Bool.false_eq_true, false_iff, not_or, not_exists, not_and, Bool.not_eq_true] at he
  obtain ⟨hx, he⟩ := he
  have hheard : s.heard es = catalogue.heard es := by simp [heard, hs, hx, hc]
  rw [hheard] at he ⊢
  exact catalogue.heard_of_not_exit he

/-- What the loop makes of the events that have arrived, from every state in which it reads, when all handlers are direct, lawful
and blind; and what it makes of them without the noise, in a session that differs in nothing but what is queued and was reported.
There are six parts.
1. Each event that is read is met once, in its place; what is not read stands behind an `exit`, or the session is to stop.
2. The site behind the loop is the one at which all these have been met, released if the loop has ended. What was queued and
   reported is what the events gave, in their order.
3. The loop ends because the session is to stop, with the code that is recorded, or at the end or the fatal fault that it meets, and
   goes on otherwise. The code is recorded because an `exit` was read, or it was there before.
4. Of noise that is read nothing comes but one report and the answer for whoever is to be told, which is lost without a writer.
5. Without the noise, all other events are read, and for each of them the same is called, with the same outcome, and the same is
   queued and reported.
6. Without the noise, the loop ends for the same reason or goes on as well, and the two sites differ in nothing but what is queued
   and was reported. -/
theorem loop_ignores_noise (handlers : Registry (Handler α)) (catalogue : Catalogue) (hh : handlers.Lawful) (hb : handlers.Blind)
    (s t : Session α) (hs : Reachable handlers catalogue s) (ht : Reachable handlers catalogue t) (hi : s.intake = .reading)
    (hst : s.Agrees t) (es : List Reading) (hes : s.source.Yields es)
    (het : t.source.Yields (es.filter fun e => !e.isNoise catalogue)) (fuel : Nat) (hf : es.length < fuel) :
    let quiet := es.filter fun e => !e.isNoise catalogue
    let notes := s.site.journal handlers (s.heard es)
    let last := s.site.hears handlers (s.heard es)
    (notes.map Site.Note.event = s.heard es ∧ s.heard es <+: es ∧
      (s.stopping = false → last.connection.exitCode = none → s.heard es = es)) ∧
    ((s.takePayloads fuel).site = leave last (s.takePayloads fuel).intake ∧
      last.connection.queue = s.site.connection.queue ++ notes.flatMap Site.Note.queued ∧
      last.connection.reports = s.site.connection.reports ++ notes.flatMap Site.Note.reported) ∧
    ((s.takePayloads fuel).intake = s.closing es last.connection.exitCode ∧
      (last.connection.exitCode.isSome = true ↔
        s.site.connection.exitCode.isSome = true ∨ ∃ e ∈ s.heard es, e.isExit catalogue = true)) ∧
    (∀ note ∈ notes, ∀ text reply, note.event.noise? catalogue = some (text, reply) →
      note.calls = [] ∧ note.reported = [⟨.decode, text⟩] ∧
        note.queued = s.site.connection.kept (reply.map Outbound.frame).toList) ∧
    t.site.journal handlers (t.heard quiet) = notes.filter (fun note => !note.event.isNoise catalogue) ∧
    (s.takePayloads fuel).Agrees (t.takePayloads fuel) := by
  intro quiet notes last
  obtain ⟨hhandlers, -, hc⟩ := hs.setup hh
  obtain ⟨-, -, hct⟩ := ht.setup hh
  have htsite : t.site.bare = s.site.bare := hst.site
  have hcode : t.site.connection.exitCode = s.site.connection.exitCode := congrArg (fun site => site.connection.exitCode) htsite
  have hheard : t.heard quiet = (s.heard es).filter fun e => !e.isNoise catalogue := by
    simp only [heard, hst.stopping, hcode, hc, hct]
    split
    · rfl
    · exact catalogue.heard_filter es
  obtain ⟨hlast, hjournal⟩ := hst.site.journal hh hb hc (s.heard es)
  rw [← hheard] at hlast hjournal
  have hft : quiet.length < fuel := Nat.lt_of_le_of_lt (List.length_filter_le _ _) hf
  obtain ⟨hsi, hss, hsstop⟩ := hs.takePayloads_heard hh hb hi hes hf
  obtain ⟨hti, hts, htstop⟩ := ht.takePayloads_heard hh hb (hst.intake.trans hi) het hft
  have hclosing : t.closing quiet (t.site.hears handlers (t.heard quiet)).connection.exitCode =
      s.closing es last.connection.exitCode := by
    have hx : (t.site.hears handlers (t.heard quiet)).connection.exitCode = last.connection.exitCode :=
      congrArg (fun site => site.connection.exitCode) hlast
    simp only [closing, hst.stopping, hx, quiet, Frame.findSome?_filter_noise]
  refine ⟨⟨Site.map_event_journal _ _, ?_, fun hstop hx => hs.heard_eq hh hb hstop hx⟩, ⟨by rw [hss, hsi], ?_⟩,
    ⟨hsi, hs.exitCode_heard hh hb es⟩, ?_, hjournal, ?_⟩
  · unfold heard
    split
    · exact List.nil_prefix
    · exact Catalogue.heard_prefix _ es
  · exact Site.output_hears hb _ _
  · intro note hm text reply hn
    exact Site.note_of_noise hh hb hm (hc ▸ hn)
  · refine ⟨?_, by rw [hsi, hti, hclosing], by rw [hsstop, htstop, hst.stopping]⟩
    rw [hss, hts, hclosing]
    cases s.closing es last.connection.exitCode with
    | ended r => exact hlast.act Site.blind_teardown
    | _ => exact hlast

/-- The direct handlers of the demo. -/
def demoHandlers : Registry (Handler (Served Unit)) :=
  { features := (({} : Table String (Handler (Served Unit))).insert "math/add" Demo.add).insert Demo.didOpenMethod Demo.publishTodos
    commands := ({} : Table String (Handler (Served Unit))).insert "hello" Demo.hello }

theorem eq_of_find?_demoHandlers {origin : Origin} {name : String} {h : Handler (Served Unit)}
    (hf : demoHandlers.find? origin name = some h) : h = Demo.add ∨ h = Demo.publishTodos ∨ h = Demo.hello := by
  cases origin with
  | builtin => cases hf
  | user =>
    rcases Registry.find?_insert_cases hf with rfl | hf
    · exact .inr (.inl rfl)
    · rcases Registry.find?_insert_cases hf with rfl | hf
      · exact .inl rfl
      · cases hf
  | command =>
    rcases Registry.find?_insert_cases hf with rfl | hf
    · exact .inr (.inr rfl)
    · cases hf

theorem lawful_demoHandlers : demoHandlers.Lawful := by
  intro origin name h hf
  rcases eq_of_find?_demoHandlers hf with rfl | rfl | rfl
  · exact Handler.lawful_directOf fun _ _ _ => .refl _
  · exact Handler.lawful_directOf fun _ _ site => site.connection.actsTo_notify _ _
  · exact Handler.lawful_directOf fun _ _ _ => .refl _

theorem blind_demoHandlers : demoHandlers.Blind := by
  intro origin name h hf
  rcases eq_of_find?_demoHandlers hf with rfl | rfl | rfl
  · exact Demo.blind_add
  · exact Demo.blind_publishTodos
  · exact Demo.blind_hello

/-- A request for a sum. -/
def sumRequest : Reading :=
  .payload (Message.request (.num 1) "math/add" (Json.object [("a", .int 1), ("b", .int 2)])).encode

/-- A payload that is no JSON, a header block without a length, a message of another version and a request whose method is no text
come before a request for a sum, and then the peer closes. -/
def noisyEvents : List Reading :=
  [.payload [0x7b], .fault .missingLength, .payload (Json.print (Json.object [("jsonrpc", .str "1.0")])),
   .payload (Json.print (Json.object [("jsonrpc", .str "2.0"), ("id", .int 7), ("method", .int 5)])), sumRequest, .ended]

/-- A session of the demo with these handlers is about to read events. -/
def hearing (es : List Reading) : Session (Served Unit) := (make demoHandlers {} 1 { own := () }).start (.queue es)

/-- In `noisyEvents` four events are noise, one of which is answered; the sum is computed as it is without them. -/
theorem loop_ignores_noise_sum :
    let quiet := [sumRequest, .ended]
    let s := hearing noisyEvents
    demoHandlers.Lawful ∧ demoHandlers.Blind ∧ Reachable demoHandlers {} s ∧ Reachable demoHandlers {} (hearing quiet) ∧
    s.intake = .reading ∧ s.Agrees (hearing quiet) ∧ s.source.Yields noisyEvents ∧
    noisyEvents.filter (fun e => !e.isNoise {}) = quiet ∧ noisyEvents.length < 10 ∧
    (s.takePayloads 10).intake = .ended .peerClosed ∧ (s.takePayloads 10).Agrees ((hearing quiet).takePayloads 10) ∧
    (s.site.journal demoHandlers (s.heard noisyEvents)).map (fun note => (note.calls.length, note.reported.length, note.queued.length)) =
      [(0, 1, 0), (0, 1, 0), (0, 1, 0), (0, 1, 1), (1, 0, 1), (0, 0, 0)] := by
  intro quiet s
  have hs : Reachable demoHandlers {} s := .start (.make 1 _) _
  have ht : Reachable demoHandlers {} (hearing quiet) := .start (.make 1 _) _
  have hes : s.source.Yields noisyEvents :=
    .more rfl rfl (.more rfl rfl (.more rfl rfl (.more rfl rfl (.more rfl rfl (.final rfl rfl)))))
  have hquiet : noisyEvents.filter (fun e => !e.isNoise {}) = quiet := by decide +kernel
  have het : (hearing quiet).source.Yields (noisyEvents.filter fun e => !e.isNoise {}) := by
    rw [hquiet]
    exact .more rfl rfl (.final rfl rfl)
  have hst : s.Agrees (hearing quiet) := ⟨rfl, rfl, rfl⟩
  obtain ⟨-, -, ⟨hi, -⟩, -, -, ha⟩ := loop_ignores_noise demoHandlers {} lawful_demoHandlers blind_demoHandlers s (hearing quiet)
    hs ht rfl hst noisyEvents hes het 10 (by decide)
  exact ⟨lawful_demoHandlers, blind_demoHandlers, hs, ht, rfl, hst, hes, hquiet, by decide, hi.trans (by decide +kernel), ha,
    by decide +kernel⟩

/-- Noise behind an `exit`. -/
def byeThenNoise : List Reading := [.payload byeNote, .payload [0x7b], .ended]

/-- A request whose method is no text, of which the sender is to be told. -/
def garbledRequest : Bytes := Json.print (Json.object [("jsonrpc", .str "2.0"), ("id", .int 7), ("method", .int 5)])

/-- The loop ends with the `exit` and leaves what stands behind it: the noise there is not reported. And where the writer is gone, noise
is reported, but its sender is not told. -/
theorem noise_behind_exit :
    (let last := ((make ({} : Registry (Handler Unit)) {} 1 ()).start (.queue byeThenNoise)).run 10
    byeThenNoise.filter (·.isNoise {}) = [.payload [0x7b]] ∧ last.intake = .ended (.exit 1) ∧ last.site.connection.reports = []) ∧
    let last := ((make ({} : Registry (Handler Unit)) {} 1 ()).dropWriter.start (.queue [.payload garbledRequest, .ended])).run 10
    ((Reading.payload garbledRequest).noise? {}).any (·.2.isSome) = true ∧ last.intake = .ended .peerClosed ∧
      last.site.connection.reports.length = 1 ∧ last.site.connection.queue = [] := by
  decide +kernel

end Session

end Parley
