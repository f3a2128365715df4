import Parley.Proofs.Frame.RoundTrip
import Parley.Proofs.Session.Outlet

/-!
# What a stream is served

From the frames that arrive on a stream to the messages that are written to it. `Progress` is how far serving a stream has come,
with a record of the payloads that the loop has taken, and `Progress.Step` what can happen next: more of the stream arrives, in
pieces of any length, the loop goes through a round, or the writer writes, in any order. When the handlers that are called only
send, every step keeps to an account of the record (`Progress.Sound`): what was written and what is still queued are together what
was queued for the payloads taken, in their order, and a request to close stands behind all of it. So nothing is lost when the
session ends.
-/

namespace Parley

open Parley.Frame (Framer Reading)

namespace Frame.Framer

/-- What comes next where bytes of a row of frames have arrived: nothing yet, the first body, or the end. -/
theorem next_frames {limit : Nat} {bodies : List Bytes} (hb : ∀ body ∈ bodies, body.length ≤ room limit) {bytes unsent : Bytes}
    {closed : Bool} (hc : closed = true → unsent = []) (h : bytes ++ unsent = bodies.flatMap frame) :
    closed = false ∧ ({ limit } : Framer).next closed bytes = none ∨
      (∃ body bodies' rest, bodies = body :: bodies' ∧ rest ++ unsent = bodies'.flatMap frame ∧
        ({ limit } : Framer).next closed bytes = some (.payload body, { limit }, rest)) ∨
      bodies = [] ∧ bytes = [] ∧ closed = true := by
  cases bodies with
  | nil =>
    obtain ⟨rfl, rfl⟩ := List.append_eq_nil_iff.mp h
    cases closed with
    | true => exact .inr (.inr ⟨rfl, rfl, rfl⟩)
    | false => exact .inl ⟨rfl, by simp [next_nil]⟩
  | cons body bodies' =>
    rw [List.flatMap_cons] at h
    have hbody := hb body List.mem_cons_self
    cases closed with
    | true =>
      obtain rfl := hc rfl
      rw [List.append_nil] at h
      exact .inr (.inl ⟨body, bodies', bodies'.flatMap frame, rfl, by simp, h ▸ next_frame hbody true _⟩)
    | false =>
      cases hn : ({ limit } : Framer).next false bytes with
      | none => exact .inl ⟨rfl, rfl⟩
      | some found =>
        obtain ⟨x, f', rest⟩ := found
        have hall := next_append hn false unsent
        rw [h, next_frame hbody] at hall
        simp only [Option.some.injEq, Prod.mk.injEq] at hall
        obtain ⟨rfl, rfl, hrest⟩ := hall
        exact .inr (.inl ⟨body, bodies', rest, rfl, hrest.symm, rfl⟩)

end Frame.Framer

/-- Of events in a row of which only the last is an `exit`, none is left out, whatever stands behind them. -/
theorem Catalogue.heard_append_exit (catalogue : Catalogue) {es : List Reading} (h : ∀ e ∈ es, e.isExit catalogue = false)
    {e : Reading} (he : e.isExit catalogue = true) (rest : List Reading) :
    catalogue.heard (es ++ e :: rest) = es ++ [e] := by
  induction es with
  | nil => simp [heard, he]
  | cons e' es ih =>
    have he' := h e' List.mem_cons_self
    simp [heard, he', ih fun x hx => h x (List.mem_cons_of_mem _ hx)]

variable {α : Type}

/-! ## How far serving a stream has come -/

/-- A payload that the loop has taken, with the site at which it was. -/
structure Taken (α : Type) where
  payload : Bytes
  site : Site α

namespace Taken

/-- What was queued for the peer because of the payload: what its handlers sent, and what was replied. -/
def queued (handlers : Registry (Handler α)) (t : Taken α) : List Message :=
  t.site.sent handlers t.payload ++ t.site.replied handlers t.payload

/-- The payload as an event that the loop has met. -/
def event (t : Taken α) : Reading := .payload t.payload

end Taken

/-- The payload that the next round of the loop takes, if it takes one. -/
def Session.taking (s : Session α) : List (Taken α) :=
  match s.stopping, s.site.connection.exitCode, s.source.next with
  | false, none, some (.payload payload, _) => [⟨payload, s.site⟩]
  | _, _, _ => []

/-- How far serving a stream has come. -/
structure Progress (α : Type) where
  /-- What of the stream has not yet arrived. -/
  unsent : Bytes
  /-- The stream has ended. -/
  closed : Bool := false
  /-- The payloads that the loop has taken. -/
  taken : List (Taken α) := []
  session : Session α

namespace Progress

/-- What can happen next while a stream is served. -/
inductive Step : Progress α → Progress α → Prop where
  /-- More of the stream arrives, as much as it may be. -/
  | arrive {bytes unsent : Bytes} {taken : List (Taken α)} {s : Session α} :
      Step ⟨bytes ++ unsent, false, taken, s⟩ ⟨unsent, false, taken, s.feed bytes⟩
  /-- The stream ends when all of it has arrived. -/
  | close {taken : List (Taken α)} {s : Session α} : Step ⟨[], false, taken, s⟩ ⟨[], true, taken, s.close⟩
  /-- The loop goes through a round. -/
  | read {unsent : Bytes} {closed : Bool} {taken : List (Taken α)} {s : Session α} (h : s.intake = .reading) :
      Step ⟨unsent, closed, taken, s⟩ ⟨unsent, closed, taken ++ s.taking, s.round⟩
  /-- The writer writes. -/
  | write {unsent : Bytes} {closed : Bool} {taken : List (Taken α)} {s : Session α} :
      Step ⟨unsent, closed, taken, s⟩ ⟨unsent, closed, taken, s.write⟩
  /-- Turns are given or taken. -/
  | turns {unsent : Bytes} {closed : Bool} {taken : List (Taken α)} {s : Session α} (ready : List Actor) :
      Step ⟨unsent, closed, taken, s⟩ ⟨unsent, closed, taken, { s with ready }⟩

/-- Serving a stream comes to a state. -/
abbrev Reaches (x y : Progress α) : Prop := Relation.ReflTransGen Step x y

/-! ## The account of the payloads taken -/

/-- Where the stream stands: some payloads are taken, and the frames of the others have arrived in part. -/
structure Input (limit : Nat) (payloads : List Bytes) (unsent : Bytes) (closed : Bool) (taken : List (Taken α)) (source : Source)
    (left : List Bytes) : Prop where
  payloads : payloads = taken.map Taken.payload ++ left
  ended : closed = true → unsent = []
  source : ∃ bytes, source = .stream { limit } bytes closed ∧ bytes ++ unsent = left.flatMap Frame.frame

/-- Where the loop stands, with the number of requests to close that were queued. -/
inductive Stage (catalogue : Catalogue) (taken : List (Taken α)) (left : List Bytes) (c : Connection) :
    Intake → Nat → Prop where
  /-- No `exit` has come. -/
  | reading (hs : c.Staying) (hn : ∀ t ∈ taken, t.event.isExit catalogue = false) : Stage catalogue taken left c .reading 0
  /-- The last payload was an `exit`. -/
  | leaving {before : List (Taken α)} {last : Taken α} (hx : c.exitCode = some last.site.connection.leavingCode)
      (ht : taken = before ++ [last]) (hn : ∀ t ∈ before, t.event.isExit catalogue = false)
      (he : last.event.isExit catalogue = true) : Stage catalogue taken left c .reading 1
  /-- The loop has ended because of it. -/
  | left {before : List (Taken α)} {last : Taken α}
      (ht : taken = before ++ [last]) (hn : ∀ t ∈ before, t.event.isExit catalogue = false)
      (he : last.event.isExit catalogue = true) : Stage catalogue taken left c (.ended (.exit last.site.connection.leavingCode)) 2
  /-- The loop has ended because the stream has. -/
  | closed (hn : ∀ t ∈ taken, t.event.isExit catalogue = false) (hl : left = []) :
      Stage catalogue taken left c (.ended .peerClosed) 1

/-- What the writer changes does not matter to the loop. -/
theorem Stage.congr {catalogue : Catalogue} {taken : List (Taken α)} {left : List Bytes} {c c' : Connection} {intake : Intake}
    {closes : Nat} (h : Stage catalogue taken left c intake closes) (hl : c'.lifecycle = c.lifecycle)
    (hx : c'.exitCode = c.exitCode) : Stage catalogue taken left c' intake closes := by
  cases h with
  | reading hs hn => exact .reading ⟨hx.trans hs.exitCode, hl ▸ hs.lifecycle⟩ hn
  | leaving hx' ht hn he => exact .leaving (hx.trans hx') ht hn he
  | left ht hn he => exact .left ht hn he
  | closed hn hl => exact .closed hn hl

/-- A loop that has ended has asked to close. -/
theorem Stage.closes_pos {catalogue : Catalogue} {taken : List (Taken α)} {left : List Bytes} {c : Connection} {r : Reason}
    {closes : Nat} (h : Stage catalogue taken left c (.ended r) closes) : 0 < closes := by
  cases h <;> decide

/-- What is true however far serving a stream has come, which began with the session `first`. -/
structure Sound (first : Session α) (limit : Nat) (payloads : List Bytes) (unsent : Bytes) (closed : Bool) (taken : List (Taken α))
    (s : Session α) : Prop where
  fibers : s.fibers = {}
  parked : s.parked = []
  running : s.running = []
  stopping : s.stopping = false
  framed : s.framed = first.framed
  handlers : s.handlers = first.handlers
  routes : s.site.connection.routes = first.handlers.map Handler.mode
  catalogue : s.site.connection.catalogue = first.site.connection.catalogue
  outputs : ∀ t ∈ taken, t.site.Output first.handlers t.payload
  course : ∃ left closes, Input limit payloads unsent closed taken s.source left ∧
    Stage first.site.connection.catalogue taken left s.site.connection s.intake closes ∧
    Outlet first.framed (taken.flatMap (Taken.queued first.handlers)) closes s.site.connection s.sink

variable {first s : Session α} {limit : Nat} {payloads : List Bytes} {unsent unsent' : Bytes} {closed closed' : Bool}
  {taken : List (Taken α)}

/-- Whatever else becomes of a session, what it is made of stays the same. -/
theorem Sound.update (h : Sound first limit payloads unsent closed taken s) {site : Site α} {ready : List Actor} {intake : Intake}
    {source : Source} {sink : Option Sink} {taken' : List (Taken α)} {left : List Bytes} {closes : Nat}
    (hroutes : site.connection.routes = s.site.connection.routes)
    (hcatalogue : site.connection.catalogue = s.site.connection.catalogue)
    (houtputs : ∀ t ∈ taken', t.site.Output first.handlers t.payload)
    (hinput : Input limit payloads unsent' closed' taken' source left)
    (hstage : Stage first.site.connection.catalogue taken' left site.connection intake closes)
    (houtlet : Outlet first.framed (taken'.flatMap (Taken.queued first.handlers)) closes site.connection sink) :
    Sound first limit payloads unsent' closed' taken' { s with site, ready, intake, source, sink } :=
  ⟨h.fibers, h.parked, h.running, h.stopping, h.framed, h.handlers, hroutes.trans h.routes, hcatalogue.trans h.catalogue, houtputs,
    left, closes, hinput, hstage, houtlet⟩

/-- More of the stream arrives. -/
theorem Sound.arrive {bytes : Bytes} (h : Sound first limit payloads (bytes ++ unsent) false taken s) :
    Sound first limit payloads unsent false taken (s.feed bytes) := by
  obtain ⟨left, closes, ⟨hpayloads, -, arrived, hsource, hbytes⟩, hstage, houtlet⟩ := h.course
  have hi : s.intake ≠ .none := fun hi => by
    rw [hi] at hstage
    cases hstage
  have hpush : s.source.push bytes = .stream { limit } (arrived ++ bytes) false := by
    rw [hsource]
    rfl
  obtain ⟨ready, hn⟩ := Session.exists_nudge { s with source := s.source.push bytes }
  rw [Session.feed, if_neg hi, hn, hpush]
  exact h.update rfl rfl h.outputs ⟨hpayloads, by rintro ⟨⟩, _, rfl, by simpa using hbytes⟩ hstage houtlet

/-- The stream ends. -/
theorem Sound.close (h : Sound first limit payloads [] false taken s) : Sound first limit payloads [] true taken s.close := by
  obtain ⟨left, closes, ⟨hpayloads, -, arrived, hsource, hbytes⟩, hstage, houtlet⟩ := h.course
  have hclose : s.source.close = .stream { limit } arrived true := by
    rw [hsource]
    rfl
  obtain ⟨ready, hn⟩ := Session.exists_nudge { s with source := s.source.close }
  rw [Session.close, hn, hclose]
  exact h.update rfl rfl h.outputs ⟨hpayloads, fun _ => rfl, arrived, rfl, hbytes⟩ hstage houtlet

/-- The writer writes. -/
theorem Sound.write (h : Sound first limit payloads unsent closed taken s) :
    Sound first limit payloads unsent closed taken s.write := by
  obtain ⟨left, closes, hinput, hstage, houtlet⟩ := h.course
  rw [← h.framed] at houtlet
  obtain ⟨queue, writable, sink, hw, ho, -⟩ := Session.exists_write houtlet
  rw [h.framed] at ho
  rw [hw]
  exact h.update rfl rfl h.outputs hinput (hstage.congr rfl rfl) ho

/-- The loop ends, and the connection is released. -/
theorem Sound.finish (h : Sound first limit payloads unsent closed taken s) {left : List Bytes} {closes : Nat} {r : Reason}
    (hinput : Input limit payloads unsent closed taken s.source left)
    (hstage : ∀ c, Stage first.site.connection.catalogue taken left c (.ended r) (closes + 1))
    (houtlet : Outlet first.framed (taken.flatMap (Taken.queued first.handlers)) closes s.site.connection s.sink) :
    Sound first limit payloads unsent closed taken (s.finish r) := by
  obtain ⟨ready, hf⟩ := Session.exists_finish h.parked r
  rw [hf]
  exact h.update (by simp [Site.teardown, Connection.teardown, Connection.enqueue_eq])
    (by simp [Site.teardown, Connection.teardown, Connection.enqueue_eq]) h.outputs hinput (hstage _) houtlet.teardown

/-- The loop takes a payload. -/
theorem Sound.take (h : Sound first limit payloads unsent closed taken s) {payload : Bytes} {left : List Bytes} {source : Source}
    (hi : s.intake = .reading) (hs : s.site.connection.Staying)
    (hn : ∀ t ∈ taken, t.event.isExit first.site.connection.catalogue = false)
    (hinput : Input limit payloads unsent closed (taken ++ [⟨payload, s.site⟩]) source left)
    (houtlet : Outlet first.framed (taken.flatMap (Taken.queued first.handlers)) 0 s.site.connection s.sink)
    (hon : first.handlers.SendsOn first.site.connection.catalogue payload) :
    ∃ s', Session.receive { s with source } payload = (s', none) ∧
      Sound first limit payloads unsent closed (taken ++ [⟨payload, s.site⟩]) s' := by
  have hon' : s.handlers.SendsOn s.site.connection.catalogue payload := by rwa [h.handlers, h.catalogue]
  have hroutes : s.site.connection.routes = s.handlers.map Handler.mode := by rw [h.handlers, h.routes]
  have hout := Site.output_serve hon' hroutes houtlet.writable hs
  obtain ⟨ready, hr⟩ := Session.exists_receive (s := { s with source }) h.parked hon' hroutes
  have hans := hout.answered
  rw [h.handlers, h.catalogue] at hans
  have hserve : s.site.serve s.handlers payload = s.site.serve first.handlers payload := by rw [h.handlers]
  simp only [hserve] at hr
  refine ⟨_, hr, ?_⟩
  have hqueued : (taken ++ [(⟨payload, s.site⟩ : Taken α)]).flatMap (Taken.queued first.handlers) =
      taken.flatMap (Taken.queued first.handlers) ++
        (s.site.sent first.handlers payload ++ s.site.replied first.handlers payload) := by
    rw [List.flatMap_append, List.flatMap_singleton]
    rfl
  refine h.update hans.setup.routes hans.setup.catalogue ?_ hinput ?_ (hqueued ▸ houtlet.queue hans.setup.writable hans.queue)
  · intro t ht
    rcases List.mem_append.mp ht with ht | ht
    · exact h.outputs t ht
    · obtain rfl := List.mem_singleton.mp ht
      exact h.handlers ▸ hout
  -- Behind an `exit` nothing more is read, behind anything else the loop reads on.
  · rw [hi]
    cases he : (Reading.payload payload).isExit first.site.connection.catalogue with
    | true =>
      rw [he] at hans
      exact .leaving (hans.left rfl) rfl hn he
    | false =>
      rw [he] at hans
      refine .reading (hans.stays rfl hs) fun t ht => ?_
      rcases List.mem_append.mp ht with ht | ht
      · exact hn t ht
      · obtain rfl := List.mem_singleton.mp ht
        exact he

/-- The loop goes on for a turn, round by round. -/
theorem exists_reaches_takePayloads (hi : s.intake = .reading) (fuel : Nat) :
    ∃ taken', Reaches ⟨unsent, closed, taken, s⟩ ⟨unsent, closed, taken', s.takePayloads (fuel + 1)⟩ := by
  have hreads := Session.reads_takePayloads fuel hi
  generalize s.takePayloads (fuel + 1) = s' at hreads ⊢
  induction hreads with
  | refl => exact ⟨_, .single (.read hi)⟩
  | tail _ hr ih =>
    obtain ⟨taken', ih⟩ := ih
    obtain ⟨hi', rfl⟩ := hr
    exact ⟨_, ih.tail (.read hi')⟩

section

variable (hlen : ∀ p ∈ payloads, p.length ≤ Frame.room limit)
  (hsend : ∀ p ∈ payloads, first.handlers.SendsOn first.site.connection.catalogue p)

include hlen hsend

/-- The loop goes through a round: it takes the next payload, ends, or finds nothing, which it does not when all has arrived. -/
theorem Sound.read (h : Sound first limit payloads unsent closed taken s) (hi : s.intake = .reading) :
    Sound first limit payloads unsent closed (taken ++ s.taking) s.round ∧
      (closed = true → s.taking = [] → ∃ r, s.round.intake = .ended r) := by
  obtain ⟨left, closes, hinput, hstage, houtlet⟩ := h.course
  rw [hi] at hstage
  cases hstage with
  | leaving hx ht hn he =>
    have htaking : s.taking = [] := by simp [Session.taking, h.stopping, hx]
    rw [Session.round_of_exitCode h.stopping hx, htaking, List.append_nil]
    exact ⟨h.finish hinput (fun c => .left ht hn he) houtlet, fun _ _ => ⟨_, Session.intake_finish s _⟩⟩
  | reading hs hn =>
    obtain ⟨hpayloads, hclosed, bytes, hsource, hbytes⟩ := hinput
    have hleft : ∀ p ∈ left, p ∈ payloads := fun p hp => by simp [hpayloads, hp]
    -- Nothing whole has arrived yet, or the next frame has, or the stream is at its end.
    rcases Framer.next_frames (fun p hp => hlen p (hleft p hp)) hclosed hbytes with
      ⟨rfl, hnext⟩ | ⟨payload, left', rest, rfl, hrest, hnext⟩ | ⟨rfl, rfl, rfl⟩
    · have hround : s.round = s := by simp [Session.round, h.stopping, hs.exitCode, hsource, Source.next, hnext]
      have htaking : s.taking = [] := by simp [Session.taking, hsource, Source.next, hnext]
      rw [hround, htaking, List.append_nil]
      exact ⟨h, by rintro ⟨⟩⟩
    · have hnext' : s.source.next = some (.payload payload, .stream { limit } rest closed) := by
        simp [hsource, Source.next, hnext]
      have htaking : s.taking = [⟨payload, s.site⟩] := by simp [Session.taking, h.stopping, hs.exitCode, hnext']
      obtain ⟨s', hr, hsound⟩ := h.take hi hs hn ⟨by simp [hpayloads], hclosed, rest, rfl, hrest⟩ houtlet
        (hsend payload (hleft payload List.mem_cons_self))
      rw [Session.round_of_payload h.stopping hs.exitCode hnext' (by rw [hr]), htaking, hr]
      exact ⟨hsound, fun _ ht => absurd ht (List.cons_ne_nil _ _)⟩
    · have hnext' : s.source.next = some (.ended, s.source) := by
        simp [hsource, Source.next, Framer.next_nil]
      have htaking : s.taking = [] := by simp [Session.taking, hnext']
      rw [Session.round_of_ended h.stopping hs.exitCode hnext', htaking, List.append_nil]
      exact ⟨h.finish ⟨hpayloads, hclosed, [], hsource, hbytes⟩ (fun c => .closed hn rfl) houtlet,
        fun _ _ => ⟨_, Session.intake_finish s _⟩⟩

/-- Whatever happens, the account is kept. -/
theorem Sound.reaches {x y : Progress α} (h : Sound first limit payloads x.unsent x.closed x.taken x.session) (hr : x.Reaches y) :
    Sound first limit payloads y.unsent y.closed y.taken y.session := by
  induction hr with
  | refl => exact h
  | tail _ hs ih =>
    cases hs with
    | arrive => exact ih.arrive
    | close => exact ih.close
    | read hi => exact (ih.read hlen hsend hi).1
    | write => exact ih.write
    | turns ready =>
      obtain ⟨left, closes, hinput, hstage, houtlet⟩ := ih.course
      exact ih.update rfl rfl ih.outputs hinput hstage houtlet

/-! ## How serving a stream goes on -/

/-- What a session does by itself is one way to go on. -/
theorem Sound.exists_reaches_run (h : Sound first limit payloads unsent closed taken s) (fuel : Nat) :
    ∃ taken', Reaches ⟨unsent, closed, taken, s⟩ ⟨unsent, closed, taken', s.run fuel⟩ := by
  induction fuel generalizing taken s with
  | zero => exact ⟨taken, .refl⟩
  | succ fuel ih =>
    unfold Session.run
    split
    · rename_i a rest hready
      have hturn : ∃ taken', Reaches ⟨unsent, closed, taken, s⟩
          ⟨unsent, closed, taken', Session.turn { s with ready := rest } a⟩ := by
        have ht : Reaches ⟨unsent, closed, taken, s⟩ ⟨unsent, closed, taken, { s with ready := rest }⟩ := .single (.turns rest)
        cases a with
        | writer => exact ⟨taken, ht.tail .write⟩
        | loop =>
          simp only [Session.turn]
          split
          · rename_i hi
            obtain ⟨taken', hr⟩ := exists_reaches_takePayloads (s := { s with ready := rest }) hi 999999
            exact ⟨taken', ht.trans hr⟩
          · exact ⟨taken, ht⟩
        | fiber n =>
          have hn : s.fibers.find? n = none := by rw [h.fibers]; rfl
          simp only [Session.turn, hn]
          exact ⟨taken, ht⟩
      obtain ⟨taken', hr⟩ := hturn
      obtain ⟨taken'', hr'⟩ := ih (h.reaches hlen hsend hr)
      exact ⟨taken'', hr.trans hr'⟩
    · have hw : s.stepWorkers = none := by rw [Session.stepWorkers, h.running]; rfl
      have ht : s.stepTimers = none := by simp [Session.stepTimers, h.parked]
      simp only [hw, ht]
      exact ⟨taken, .refl⟩

/-- When all has arrived, the loop comes to its end. -/
theorem Sound.exists_intake_ended (h : Sound first limit payloads unsent true taken s) :
    ∃ taken' s', Reaches ⟨unsent, true, taken, s⟩ ⟨unsent, true, taken', s'⟩ ∧ ∃ r, s'.intake = .ended r := by
  obtain ⟨left, closes, hinput, hstage, -⟩ := h.course
  have hle : taken.length ≤ payloads.length := by simp [hinput.payloads]
  induction hk : payloads.length - taken.length using Nat.strongRecOn generalizing taken s left closes with
  | _ k ih =>
    by_cases hi : s.intake = .reading
    · obtain ⟨hsound, hends⟩ := h.read hlen hsend hi
      have hr : Reaches ⟨unsent, true, taken, s⟩ ⟨unsent, true, taken ++ s.taking, s.round⟩ := .single (.read hi)
      by_cases ht : s.taking = []
      · exact ⟨_, _, hr, hends rfl ht⟩
      · obtain ⟨left', closes', hinput', hstage', -⟩ := hsound.course
        have hpos : 0 < s.taking.length := List.length_pos_iff.mpr ht
        have hle' : (taken ++ s.taking).length ≤ payloads.length := by
          rw [hinput'.payloads]
          simp
        have hless : payloads.length - (taken ++ s.taking).length < k := by
          rw [List.length_append] at hle' ⊢
          omega
        obtain ⟨taken', s', hr', hended⟩ := ih _ hless hsound left' closes' hinput' hstage' hle' rfl
        exact ⟨taken', s', hr.trans hr', hended⟩
    · refine ⟨taken, s, .refl, ?_⟩
      generalize s.intake = intake at hstage hi
      cases hstage with
      | reading | leaving => exact absurd rfl hi
      | left | closed => exact ⟨_, rfl⟩

/-- Wherever serving a stream stands, it can come to its end. -/
theorem Sound.exists_ended {x : Progress α} (h : Sound first limit payloads x.unsent x.closed x.taken x.session) :
    ∃ y, x.Reaches y ∧ y.session.ended?.isSome = true := by
  obtain ⟨unsent, closed, taken, s⟩ := x
  have hall : ∃ s', Reaches ⟨unsent, closed, taken, s⟩ ⟨[], true, taken, s'⟩ := by
    cases closed with
    | true =>
      obtain ⟨left, closes, hinput, -, -⟩ := h.course
      obtain rfl : unsent = [] := hinput.ended rfl
      exact ⟨s, .refl⟩
    | false =>
      have harrive : Step ⟨unsent ++ [], false, taken, s⟩ ⟨[], false, taken, s.feed unsent⟩ := .arrive
      rw [List.append_nil] at harrive
      exact ⟨_, .head harrive (.single .close)⟩
  obtain ⟨s₁, hr₁⟩ := hall
  have h₁ := h.reaches hlen hsend hr₁
  obtain ⟨taken₂, s₂, hr₂, r, hi⟩ := h₁.exists_intake_ended hlen hsend
  have h₂ := Sound.reaches hlen hsend h₁ hr₂
  obtain ⟨left, closes, -, hstage, houtlet⟩ := h₂.course
  simp only [hi] at hstage
  rw [← h₂.framed] at houtlet
  obtain ⟨queue, writable, sink, hw, -, hclosed⟩ := Session.exists_write houtlet
  refine ⟨_, hr₁.trans (hr₂.tail .write), ?_⟩
  have hended : s₂.write.ended? = some r := by
    rw [hw]
    exact Session.ended?_eq_some hi (hclosed hstage.closes_pos)
  rw [hended]
  rfl

end

/-- When the session has ended, nothing more is taken or written. -/
theorem Reaches.of_ended {x y : Progress α} (h : x.Reaches y) {r : Reason} (he : x.session.ended? = some r) :
    y.taken = x.taken ∧ y.session.sink = x.session.sink ∧ y.session.ended? = some r := by
  induction h with
  | refl => exact ⟨rfl, rfl, he⟩
  | tail _ hs ih =>
    obtain ⟨ht, hk, he⟩ := ih
    obtain ⟨hi, hc⟩ := Session.of_ended? he
    cases hs with
    | @arrive bytes unsent taken s =>
      rw [Session.feed_of_ended (s := s) hi]
      exact ⟨ht, hk, he⟩
    | @close taken s =>
      rw [Session.close_of_ended (s := s) hi]
      exact ⟨ht, hk, he⟩
    | read hr => simp [hr] at hi
    | @write unsent closed taken s =>
      rw [Session.write_of_isClosed (s := s) hc]
      exact ⟨ht, hk, he⟩
    | turns => exact ⟨ht, hk, he⟩

/-- What has come of serving a stream when the session has ended: the payloads up to an `exit` are taken, what was queued for them
is written in full, and the sink was closed. -/
theorem Sound.delivered (h : Sound first limit payloads unsent closed taken s) {r : Reason} (he : s.ended? = some r) :
    taken.map Taken.event = first.site.connection.catalogue.heard (payloads.map .payload) ∧
      s.sink = some
        { written := (taken.flatMap (Taken.queued first.handlers)).map (Message.write first.framed), closed := some true } ∧
      (r = .peerClosed ∨
        ∃ t ∈ taken, t.event.isExit first.site.connection.catalogue = true ∧ r = .exit t.site.connection.leavingCode) := by
  obtain ⟨hi, hc⟩ := Session.of_ended? he
  obtain ⟨left, closes, hinput, hstage, houtlet⟩ := h.course
  have hevents : payloads.map .payload = taken.map Taken.event ++ left.map .payload := by
    rw [hinput.payloads, List.map_append, List.map_map]
    rfl
  rw [hevents]
  rw [hi] at hstage
  cases hstage with
  | @left before last ht hn hexit =>
    subst ht
    refine ⟨?_, houtlet.eq_of_isClosed hc, .inr ⟨last, by simp, hexit, rfl⟩⟩
    have hbefore : ∀ e ∈ before.map Taken.event, e.isExit first.site.connection.catalogue = false := by
      simpa using hn
    rw [List.map_append, List.map_singleton, List.append_assoc, List.singleton_append,
      Catalogue.heard_append_exit _ hbefore hexit]
  | closed hn hl =>
    subst hl
    refine ⟨?_, houtlet.eq_of_isClosed hc, .inl rfl⟩
    rw [List.map_nil, List.append_nil, Catalogue.heard_of_not_exit]
    intro e hm
    obtain ⟨t, ht, rfl⟩ := List.mem_map.mp ((Catalogue.heard_prefix _ _).subset hm)
    exact hn t ht

end Progress

end Parley
