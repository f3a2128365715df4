import Parley.Proofs.Session.Serving

/-!
# The events that the loop reads

What a loop whose handlers are all direct makes of what has arrived. An event is a payload, the end of the source or a fault of it;
what follows the end or a fatal fault does not count (`Source.Yields`). `Site.meet` is what one of them comes to. The loop reads
them in their order, each of them once, until one of them ends it or an `exit` has been processed (`Session.takePayloads_yields`), and
`Site.journal` keeps for each what was called, queued and reported.
-/

namespace Parley

open Parley.Frame (Reading)

namespace Frame

/-- What the loop comes to at an event behind which it reads nothing more. -/
def Reading.close? : Reading → Option Intake
  | .payload _ => none
  | .ended => some (.ended .peerClosed)
  | .fault f =>
    if f.breaksOff then some .broken
    else if f.isFatal then some (.ended (.transportError f.message))
    else none

/-- An event is the notification with which the peer leaves. -/
def Reading.isExit (catalogue : Catalogue) : Reading → Bool
  | .payload bytes =>
    match (Message.decode catalogue {} bytes).1 with
    | .ok (.notification method _) => method = Connection.exitMethod
    | _ => false
  | _ => false

end Frame

/-- A source holds these events: each is the next in its turn, and the last is one at which the loop ends, or nothing else has
arrived. -/
inductive Source.Yields : Source → List Reading → Prop where
  | dry {source : Source} (h : source.next = none) : Yields source []
  | final {source rest : Source} {e : Reading} {i : Intake} (h : source.next = some (e, rest)) (hc : e.close? = some i) :
      Yields source [e]
  | more {source rest : Source} {e : Reading} {es : List Reading} (h : source.next = some (e, rest)) (hc : e.close? = none)
      (hes : Yields rest es) : Yields source (e :: es)

/-- Of events in a row those up to the first `exit`, which is the last. -/
def Catalogue.heard (catalogue : Catalogue) : List Reading → List Reading
  | [] => []
  | e :: es => if e.isExit catalogue then [e] else e :: catalogue.heard es

namespace Catalogue

variable (catalogue : Catalogue)

/-- What is heard is the beginning of what there is. -/
theorem heard_prefix (es : List Reading) : catalogue.heard es <+: es := by
  induction es with
  | nil => exact List.prefix_refl _
  | cons e es ih =>
    unfold heard
    split
    · exact ⟨es, rfl⟩
    · exact List.prefix_cons_inj e |>.mpr ih

/-- Only an `exit` keeps the loop from what stands behind it. -/
theorem heard_of_not_exit {es : List Reading} (h : ∀ e ∈ catalogue.heard es, e.isExit catalogue = false) :
    catalogue.heard es = es := by
  induction es with
  | nil => rfl
  | cons e es ih =>
    cases he : e.isExit catalogue with
    | true =>
      have hm := h e (by simp [heard, he])
      simp [he] at hm
    | false =>
      rw [heard, if_neg (by simp [he])] at h ⊢
      rw [ih fun e' hm => h e' (List.mem_cons_of_mem _ hm)]

end Catalogue

namespace Connection

/-- Until an `exit` has been processed, every `exit` is accepted, and by its bytes alone. -/
theorem takes_exit_eq {c : Connection} (hl : c.lifecycle ≠ .exited) (payload : Bytes) :
    c.takes .exit (c.reads payload) = (Reading.payload payload).isExit c.catalogue := by
  have hnot (d : Except DecodeFault Message) (ht : c.takes .exit d = true) : Message.told d = none := by
    cases d with
    | error f => cases ht
    | ok m => cases m <;> first | rfl | cases ht
  have hexit (d : Except DecodeFault Message) : c.takes .exit d =
      match d with
      | .ok (.notification method _) => decide (method = exitMethod)
      | _ => false := by
    cases d with
    | error f => rfl
    | ok m => cases m <;> simp [takes, hl]
  rw [Reading.isExit, ← hexit]
  cases hr : Message.replier? payload with
  | none => rw [reads_of_not_replier hr]
  | some id =>
    have hf (expected : Expected) : c.takes .exit (Message.decode c.catalogue expected payload).1 = false := by
      rw [Bool.eq_false_iff]
      intro ht
      have hn := hnot _ ht
      rw [Message.told_decode, hr] at hn
      cases hn
    rw [hf, reads, hf]

end Connection

variable {α : Type}

namespace Site

/-- What the loop makes of an event at a site: the direct handlers of a payload are called, and a fault is reported, unless the
loop breaks off with it. -/
def meet (handlers : Registry (Handler α)) : Reading → Site α → List (Job × Outcome) × Site α
  | .payload payload, site => site.serve handlers payload
  | .ended, site => ([], site)
  | .fault f, site =>
    if f.breaksOff then ([], site)
    else ([], { site with connection := site.connection.report (if f.isFatal then .transport else .decode) f.message })

/-- The site when events have been met, one after the other. -/
def hears (handlers : Registry (Handler α)) (es : List Reading) (site : Site α) : Site α :=
  es.foldl (fun site e => (site.meet handlers e).2) site

/-- What came of one event. -/
structure Note where
  event : Reading
  /-- The jobs whose handlers were called, in their order, with their outcomes. -/
  calls : List (Job × Outcome)
  /-- What was queued for the writer. -/
  queued : List (Outbound Message)
  reported : List Report

/-- What comes of an event at a site. -/
def note (handlers : Registry (Handler α)) (e : Reading) (site : Site α) : Note :=
  let (calls, after) := site.meet handlers e
  { event := e
    calls
    queued := after.connection.queue.drop site.connection.queue.length
    reported := after.connection.reports.drop site.connection.reports.length }

/-- What comes of events that are met one after the other. -/
def journal (handlers : Registry (Handler α)) : List Reading → Site α → List Note
  | [], _ => []
  | e :: es, site => site.note handlers e :: journal handlers es (site.meet handlers e).2

variable {handlers : Registry (Handler α)}

@[simp] theorem hears_nil (site : Site α) : site.hears handlers [] = site := rfl

@[simp] theorem hears_cons (e : Reading) (es : List Reading) (site : Site α) :
    site.hears handlers (e :: es) = (site.meet handlers e).2.hears handlers es := rfl

/-- Every event that is met is noted, once and in its place. -/
theorem map_event_journal (es : List Reading) (site : Site α) : (site.journal handlers es).map Note.event = es := by
  induction es generalizing site with
  | nil => rfl
  | cons e es ih => exact congrArg (e :: ·) (ih _)

/-- An event is met blindly. -/
theorem blind_meet (hb : handlers.Blind) (e : Reading) : Blind (meet handlers e) := by
  cases e with
  | payload payload => exact blind_serve hb payload
  | ended => exact blind_result []
  | fault f =>
    intro site items news
    by_cases hf : f.breaksOff
    · simp only [meet, if_pos hf]
    · simp only [meet, if_neg hf, behind, Connection.behind_report]

/-- No event changes what the connection is made for. -/
theorem sameSetup_meet (hh : handlers.Lawful) (hb : handlers.Blind) (e : Reading) (site : Site α) :
    Connection.SameSetup site.connection (site.meet handlers e).2.connection := by
  cases e with
  | payload payload => exact sameSetup_serve hh hb payload site
  | ended => exact ⟨rfl, rfl, rfl⟩
  | fault f =>
    simp only [meet]
    split <;> exact ⟨rfl, rfl, rfl⟩

/-- What is queued and reported for an event comes behind what was there. -/
theorem output_meet (hb : handlers.Blind) (e : Reading) (site : Site α) :
    (site.meet handlers e).2.connection.queue = site.connection.queue ++ (site.note handlers e).queued ∧
      (site.meet handlers e).2.connection.reports = site.connection.reports ++ (site.note handlers e).reported := by
  have hm := (blind_meet hb e).eq_bare site
  simp only [note, hm, behind, Connection.behind, List.drop_left, and_self]

/-- What is queued and reported for events comes in the order of the events. -/
theorem output_hears (hb : handlers.Blind) (es : List Reading) (site : Site α) :
    (site.hears handlers es).connection.queue = site.connection.queue ++ (site.journal handlers es).flatMap Note.queued ∧
      (site.hears handlers es).connection.reports =
        site.connection.reports ++ (site.journal handlers es).flatMap Note.reported := by
  induction es generalizing site with
  | nil => simp [journal]
  | cons e es ih =>
    obtain ⟨hq, hr⟩ := output_meet hb e site
    obtain ⟨hq', hr'⟩ := ih (site.meet handlers e).2
    rw [hq] at hq'
    rw [hr] at hr'
    simp only [hears_cons, journal, List.flatMap_cons, hq', hr', List.append_assoc, and_self]

/-- An event that is no `exit` does not end the connection. -/
theorem staying_meet (hh : handlers.Lawful) {e : Reading} {site : Site α} (h : site.connection.Staying)
    (he : e.isExit site.connection.catalogue = false) : (site.meet handlers e).2.connection.Staying := by
  cases e with
  | payload payload => exact staying_serve hh h (by rw [Connection.takes_exit_eq h.lifecycle, he])
  | ended => exact h
  | fault f =>
    simp only [meet]
    split <;> exact ⟨h.exitCode, h.lifecycle⟩

/-- An `exit` ends the connection. -/
theorem exitCode_meet (hh : handlers.Lawful) {e : Reading} {site : Site α} (h : site.connection.Staying)
    (he : e.isExit site.connection.catalogue = true) :
    (site.meet handlers e).2.connection.exitCode = some site.connection.leavingCode := by
  cases e with
  | payload payload => exact exitCode_serve hh (by rw [Connection.takes_exit_eq h.lifecycle, he])
  | _ => cases he

/-- Behind events that the loop reads the code is recorded exactly if an `exit` is among them. -/
theorem exitCode_hears (hh : handlers.Lawful) (hb : handlers.Blind) (es : List Reading) {site : Site α}
    (h : site.connection.Staying) :
    (site.hears handlers (site.connection.catalogue.heard es)).connection.exitCode.isSome = true ↔
      ∃ e ∈ site.connection.catalogue.heard es, e.isExit site.connection.catalogue = true := by
  induction es generalizing site with
  | nil => simp [Catalogue.heard, h.exitCode]
  | cons e es ih =>
    cases he : e.isExit site.connection.catalogue with
    | true => simp [Catalogue.heard, he, exitCode_meet hh h he]
    | false =>
      have hstay : (site.meet handlers e).2.connection.Staying := staying_meet hh h he
      have ih := ih hstay
      rw [(sameSetup_meet hh hb e site).catalogue] at ih
      simpa [Catalogue.heard, he] using ih

end Site

namespace Session

variable {s : Session α}

/-- What the loop reads of the events that have arrived: none when it is to end, and else all up to an `exit`. -/
def heard (s : Session α) (es : List Reading) : List Reading :=
  if s.stopping ∨ s.site.connection.exitCode.isSome then [] else s.site.connection.catalogue.heard es

/-- How the loop ends behind events, by the code that is recorded then; it goes on if none of them ends it. -/
def closing (s : Session α) (es : List Reading) (code : Option Int) : Intake :=
  if s.stopping then .ended .stopped
  else
    match code, es.findSome? Reading.close? with
    | some code, _ => .ended (.exit code)
    | none, some i => i
    | none, none => .reading

/-- The site behind a loop: what depends on the connection is released when the loop has ended. -/
def leave (site : Site α) : Intake → Site α
  | .ended _ => site.teardown
  | _ => site

/-- The loop comes to this. -/
def endAs (s : Session α) : Intake → Session α
  | .ended r => s.finish r
  | i => { s with intake := i }

@[simp] theorem site_finish (s : Session α) (r : Reason) : (s.finish r).site = s.site.teardown := site_rouse _

@[simp] theorem stopping_finish (s : Session α) (r : Reason) : (s.finish r).stopping = s.stopping := (unread_rouse _).stopping

@[simp] theorem intake_endAs (s : Session α) (i : Intake) : (s.endAs i).intake = i := by
  cases i with
  | ended r => exact intake_finish s r
  | _ => rfl

@[simp] theorem site_endAs (s : Session α) (i : Intake) : (s.endAs i).site = leave s.site i := by
  cases i with
  | ended r => exact site_finish s r
  | _ => rfl

@[simp] theorem stopping_endAs (s : Session α) (i : Intake) : (s.endAs i).stopping = s.stopping := by
  cases i with
  | ended r => exact stopping_finish s r
  | _ => rfl

/-- The session when the loop has met an event and did not end with it. -/
structure Met (s : Session α) (e : Reading) (source : Source) (s' : Session α) : Prop where
  site : s'.site = (s.site.meet s.handlers e).2
  handlers : s'.handlers = s.handlers
  source : s'.source = source
  intake : s'.intake = s.intake
  stopping : s'.stopping = s.stopping

/-- The loop meets the next event and ends with it, or goes on behind it. -/
theorem Blind.takePayloads_next (h : s.Blind) (hs : s.stopping = false) (hx : s.site.connection.exitCode = none) {e : Reading}
    {source : Source} (hn : s.source.next = some (e, source)) (fuel : Nat) :
    ∃ s', s.Met e source s' ∧
      s.takePayloads (fuel + 1) =
        match e.close? with
        | some i => s'.endAs i
        | none =>
          match s'.site.connection.exitCode with
          | some code => s'.finish (.exit code)
          | none => s'.takePayloads fuel := by
  have hb : Blind { s with source } := ⟨h.lawful, h.blind, h.routes⟩
  rw [takePayloads, if_neg (by simp [hs])]
  simp only [hx, hn]
  cases e with
  | payload payload =>
    have hw := hb.receive_waits payload
    obtain ⟨hsite, hhandlers⟩ := hb.receive_eq_serve payload
    have hu := unread_receive { s with source } payload
    cases hr : receive { s with source } payload with
    | mk s' waitsFor =>
      rw [hr] at hw hsite hhandlers hu
      obtain rfl : waitsFor = none := hw
      refine ⟨s', ⟨hsite, hhandlers, hu.source, hu.intake, hu.stopping⟩, ?_⟩
      simp only [hr]
      rfl
  | ended => exact ⟨{ s with source }, ⟨rfl, rfl, rfl, rfl, rfl⟩, rfl⟩
  | fault f =>
    cases hb : f.breaksOff with
    | true => exact ⟨{ s with source }, ⟨by simp [Site.meet, hb], rfl, rfl, rfl, rfl⟩, by simp [Reading.close?, hb, endAs]⟩
    | false =>
      cases hf : f.isFatal with
      | true =>
        refine ⟨report { s with source } .transport f.message, ⟨?_, rfl, rfl, rfl, rfl⟩, ?_⟩
        · simp [Site.meet, hb, hf, report, withConnection]
        · simp [Reading.close?, hb, hf, endAs]
      | false =>
        refine ⟨report { s with source } .decode f.message, ⟨?_, rfl, rfl, rfl, rfl⟩, ?_⟩
        · simp [Site.meet, hb, hf, report, withConnection]
        · have hx : (report { s with source } .decode f.message).site.connection.exitCode = none := hx
          simp [Reading.close?, hb, hf, hx]

/-- A session stays blind behind an event. -/
theorem Blind.met (h : s.Blind) {e : Reading} {source : Source} {s' : Session α} (hm : s.Met e source s') : s'.Blind := by
  refine ⟨hm.handlers ▸ h.lawful, hm.handlers ▸ h.blind, ?_⟩
  rw [hm.site, hm.handlers, (Site.sameSetup_meet h.lawful h.blind e s.site).routes, h.routes]

/-- A loop that is not to end reads the events of its source up to an `exit`, each once and in their order, and ends as they say. -/
theorem takePayloads_yields {source : Source} {es : List Reading} (hes : source.Yields es) (h : s.Blind)
    (hsource : s.source = source) (hs : s.stopping = false) (hx : s.site.connection.Staying) (hi : s.intake = .reading) {fuel : Nat}
    (hf : es.length < fuel) :
    let last := s.site.hears s.handlers (s.site.connection.catalogue.heard es)
    (s.takePayloads fuel).intake = s.closing es last.connection.exitCode ∧
      (s.takePayloads fuel).site = leave last (s.closing es last.connection.exitCode) ∧
      (s.takePayloads fuel).stopping = s.stopping := by
  induction hes generalizing s fuel with
  | dry hn =>
    obtain ⟨fuel, rfl⟩ : ∃ k, fuel = k + 1 := ⟨fuel - 1, by omega⟩
    have ht : s.takePayloads (fuel + 1) = s := by
      rw [takePayloads, if_neg (by simp [hs])]
      simp only [hx.exitCode, hsource, hn]
    rw [ht]
    simp [Catalogue.heard, closing, hs, hx.exitCode, hi, leave]
  | @final _ rest e i hn hr =>
    obtain ⟨fuel, rfl⟩ : ∃ k, fuel = k + 1 := ⟨fuel - 1, by omega⟩
    obtain ⟨s', hm, ht⟩ := h.takePayloads_next hs hx.exitCode (hsource ▸ hn) fuel
    have he : e.isExit s.site.connection.catalogue = false := by
      cases e with
      | payload => cases hr
      | _ => rfl
    have hlast := (Site.staying_meet h.lawful hx he).exitCode
    simp [ht, hr, hm.site, hm.stopping, Catalogue.heard, he, closing, hs, hlast, leave]
  | @more _ rest e es hn hr hes ih =>
    obtain ⟨fuel, rfl⟩ : ∃ k, fuel = k + 1 := ⟨fuel - 1, by omega⟩
    obtain ⟨s', hm, ht⟩ := h.takePayloads_next hs hx.exitCode (hsource ▸ hn) fuel
    simp only [hr] at ht
    cases he : e.isExit s.site.connection.catalogue with
    | true =>
      have hcode := Site.exitCode_meet h.lawful hx he
      rw [hm.site, hcode] at ht
      simp [ht, hm.site, hm.stopping, Catalogue.heard, he, closing, hs, hcode, leave]
    | false =>
      have hstay := Site.staying_meet h.lawful hx he
      have hcatalogue := (Site.sameSetup_meet h.lawful h.blind e s.site).catalogue
      rw [← hm.site] at hstay hcatalogue
      rw [hstay.exitCode] at ht
      have hfuel : es.length < fuel := by simpa using hf
      have ih := ih (h.met hm) hm.source (hm.stopping.trans hs) hstay (hm.intake.trans hi) hfuel
      rw [hcatalogue, hm.handlers, hm.site] at ih
      simpa [ht, Catalogue.heard, he, closing, hm.stopping, hr] using ih

/-- So it is whether or not the loop is to end from the start. -/
theorem takePayloads_heard {es : List Reading} (hes : s.source.Yields es) (h : s.Blind)
    (hx : s.site.connection.exitCode = none → s.site.connection.Staying) (hi : s.intake = .reading) {fuel : Nat}
    (hf : es.length < fuel) :
    let last := s.site.hears s.handlers (s.heard es)
    (s.takePayloads fuel).intake = s.closing es last.connection.exitCode ∧
      (s.takePayloads fuel).site = leave last (s.closing es last.connection.exitCode) ∧
      (s.takePayloads fuel).stopping = s.stopping := by
  obtain ⟨k, rfl⟩ : ∃ k, fuel = k + 1 := ⟨fuel - 1, by omega⟩
  by_cases hs : s.stopping
  · have ht : s.takePayloads (k + 1) = s.finish .stopped := by rw [takePayloads, if_pos hs]
    simp [ht, heard, closing, hs, leave]
  have hs : s.stopping = false := by simpa using hs
  cases hc : s.site.connection.exitCode with
  | some code =>
    have ht : s.takePayloads (k + 1) = s.finish (.exit code) := by
      rw [takePayloads, if_neg (by simp [hs])]
      simp only [hc]
    simp [ht, heard, closing, hs, hc, leave]
  | none =>
    have hheard : s.heard es = s.site.connection.catalogue.heard es := by simp [heard, hs, hc]
    rw [hheard]
    exact takePayloads_yields hes h rfl hs (hx hc) hi hf

end Session

end Parley
