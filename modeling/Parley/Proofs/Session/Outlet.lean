import Parley.Proofs.Session.Output
import Parley.Session.Event

/-!
# The loop and the writer alone

A session in which no fiber is at work: when the handlers that a payload calls only send, the loop serves the payload at the site and
waits for nothing (`Session.exists_receive`), and beside the loop there is only the writer. An `Outlet` says where the messages are
that were queued, which are written in their order; once someone has asked to close, the writer writes what is left and closes the
sink (`Session.exists_write`).
-/

namespace Parley

variable {α : Type}

/-! ## A session without fibers -/

namespace Session

variable {s : Session α}

/-- Who gets a turn changes the row of those who have one, and nothing else. -/
theorem exists_enqueue (s : Session α) (a : Actor) : ∃ ready, s.enqueue a = { s with ready } := by
  unfold enqueue
  split
  · exact ⟨s.ready, rfl⟩
  · exact ⟨_, rfl⟩

/-- Where no fiber waits, to look at those that do gives turns to the loop and the writer alone. -/
theorem exists_rouse (h : s.parked = []) : ∃ ready, s.rouse = { s with ready } := by
  have hable (p : Nat → Bool) : s.parked.filter p = [] := by
    rw [h]
    rfl
  have hwriter : ∃ ready, (if s.sink.any (!·.isClosed) && !s.site.connection.queue.isEmpty then s.enqueue .writer else s) =
      { s with ready } := by
    split
    · exact exists_enqueue s _
    · exact ⟨s.ready, rfl⟩
  obtain ⟨ready, hw⟩ := hwriter
  simp only [rouse, hable, List.foldl_nil, hw]
  split
  · exact exists_enqueue _ _
  · exact ⟨ready, rfl⟩

theorem exists_nudge (s : Session α) : ∃ ready, s.nudge = { s with ready } := by
  unfold nudge
  split
  · exact exists_enqueue s _
  · exact ⟨s.ready, rfl⟩

/-- Where nobody waits, to end is to release the connection. -/
theorem exists_finish (hp : s.parked = []) (r : Reason) :
    ∃ ready, s.finish r = { s with site := s.site.teardown, intake := .ended r, ready } :=
  exists_rouse (s := { s.withConnection s.site.connection.teardown with intake := .ended r }) hp

/-- The job of a handler that only sends is done at once. -/
theorem exists_runDirect (hp : s.parked = []) {j : Job} (h : s.handlers.SendsFor j) :
    ∃ ready, s.runDirect j = ((s.handlers.call j s.site).1, { s with site := (s.handlers.call j s.site).2, ready }) := by
  obtain ⟨b, hf, hs⟩ := h
  cases b with
  | direct run =>
    have hrun : s.runDirect j = ((run j.call s.site).1, { s with site := (run j.call s.site).2 }.rouse) := by
      simp only [runDirect, hf]
    have hcall : s.handlers.call j s.site = run j.call s.site := by simp only [Registry.call, hf]
    obtain ⟨ready, hr⟩ := exists_rouse (s := { s with site := (run j.call s.site).2 }) hp
    exact ⟨ready, by rw [hrun, hr, hcall]⟩
  | coroutine | threaded => cases hs

/-- Where nobody waits, the outcome of a job goes to the connection, and nothing else happens. -/
theorem exists_handBack (hp : s.parked = []) (j : Job) (o : Outcome) :
    ∃ ready, s.handBack j o =
      ({ s with site := { s.site with connection := (s.site.connection.complete j o).1 }, ready },
        (s.site.connection.complete j o).2) := by
  obtain ⟨ready, hr⟩ := exists_rouse (s := s.withConnection (s.site.connection.complete j o).1) hp
  exact ⟨ready, Prod.ext hr rfl⟩

/-- So the outcome of such a job is handed back at once. -/
theorem exists_carryOut (hp : s.parked = []) {j : Job} (h : s.handlers.SendsFor j) :
    ∃ ready, (s.runDirect j).2.handBack j (s.runDirect j).1 =
      ({ s with site := (s.site.carryOut s.handlers j).2, ready }, (s.site.carryOut s.handlers j).1.2) := by
  obtain ⟨ready, hr⟩ := exists_runDirect hp h
  obtain ⟨ready', hb⟩ := exists_handBack (s := { s with site := (s.handlers.call j s.site).2, ready }) hp j
    (s.handlers.call j s.site).1
  exact ⟨ready', by rw [hr, hb]; rfl⟩

/-- What a job comes to whose handler only sends, and that of the job that follows it. -/
theorem exists_settle (hp : s.parked = []) {j : Job} (h : s.handlers.SendsFor j)
    (hn : ∀ next, (s.site.carryOut s.handlers j).1.2 = some next → s.handlers.SendsFor next ∧ next.mode = .direct) :
    ∃ ready, (s.runDirect j).2.settle j (s.runDirect j).1 =
      { s with
        ready
        site :=
          match s.site.carryOut s.handlers j with
          | ((_, none), site) => site
          | ((_, some next), site) => (site.carryOut s.handlers next).2 } := by
  obtain ⟨ready, hb⟩ := exists_carryOut hp h
  unfold settle
  rw [hb]
  generalize s.site.carryOut s.handlers j = res at hn ⊢
  obtain ⟨⟨o, next⟩, site⟩ := res
  cases next with
  | none => exact ⟨ready, rfl⟩
  | some next =>
    obtain ⟨hs, hm⟩ := hn next rfl
    obtain ⟨ready', hb'⟩ := exists_carryOut (s := { s with site, ready }) hp hs
    simp only [hm, if_true]
    exact ⟨ready', congrArg Prod.fst hb'⟩

/-- A session does nothing else with a payload whose handlers only send than serve it. -/
theorem exists_receive (hp : s.parked = []) {payload : Bytes} (h : s.handlers.SendsOn s.site.connection.catalogue payload)
    (hr : s.site.connection.routes = s.handlers.map Handler.mode) :
    ∃ ready, s.receive payload = ({ s with site := (s.site.serve s.handlers payload).2, ready }, none) := by
  have hsends (j : Job) (hj : (s.site.connection.receive payload).2 = some j) := h.sendsFor hr hj
  have hfind (j : Job) (hj : (s.site.connection.receive payload).2 = some j) := Connection.find?_of_receive hj
  have hset := (s.site.connection.receive_sameSetup payload).routes
  unfold receive Site.serve
  generalize s.site.connection.receive payload = res at hsends hfind hset ⊢
  obtain ⟨connection, job⟩ := res
  obtain ⟨ready, hrouse⟩ := exists_rouse (s := s.withConnection connection) hp
  cases job with
  | none => exact ⟨ready, by simp only [hrouse]; rfl⟩
  | some j =>
    obtain ⟨hj, hnext⟩ := hsends j rfl
    have hm : j.mode = .direct := hj.mode hr (hfind j rfl)
    obtain ⟨ms, hms⟩ := hj.exists_sent { s.site with connection }
    have hroutes := hms.setup.routes.trans (hset.trans hr)
    obtain ⟨ready', hs⟩ := exists_settle (s := { s.withConnection connection with ready }) hp hj fun next hn =>
      have hn' := hnext _ _ next hroutes hn
      ⟨hn', hn'.mode hroutes (Connection.find?_of_complete hn)⟩
    simp only [hrouse, hm, if_true]
    refine ⟨ready', Prod.ext (hs.trans ?_) rfl⟩
    simp only [withConnection]
    generalize Site.carryOut s.handlers j { s.site with connection } = res
    obtain ⟨⟨o, next⟩, site⟩ := res
    cases next <;> rfl

/-- What a round comes to that finds the end. -/
theorem round_of_ended (hs : s.stopping = false) (hx : s.site.connection.exitCode = none) {source : Source}
    (hn : s.source.next = some (.ended, source)) : s.round = finish { s with source } .peerClosed := by
  rw [round, if_neg (by simp [hs])]
  simp only [hx, hn]

/-- What a round comes to behind an `exit`. -/
theorem round_of_exitCode (hs : s.stopping = false) {code : Int} (hx : s.site.connection.exitCode = some code) :
    s.round = s.finish (.exit code) := by
  rw [round, if_neg (by simp [hs])]
  simp only [hx]

/-- A session has ended when its loop has, and the sink is closed. -/
theorem ended?_eq_some {r : Reason} (hi : s.intake = .ended r) (hc : s.sink.all Sink.isClosed = true) : s.ended? = some r := by
  simp only [ended?, hi]
  exact if_pos hc

/-- A session has ended when the loop has and the sink is closed. -/
theorem of_ended? {r : Reason} (h : s.ended? = some r) : s.intake = .ended r ∧ s.sink.all Sink.isClosed = true := by
  unfold ended? at h
  split at h
  · rename_i r' hi
    split at h
    · rename_i hc
      obtain rfl := Option.some.inj h
      exact ⟨hi, hc⟩
    · cases h
  · cases h

/-- What arrives behind the end is not read. -/
theorem feed_of_ended {r : Reason} (hi : s.intake = .ended r) (bytes : Bytes) :
    s.feed bytes = { s with source := s.source.push bytes } := by
  simp [feed, nudge, hi]

theorem close_of_ended {r : Reason} (hi : s.intake = .ended r) : s.close = { s with source := s.source.close } := by
  simp [close, nudge, hi]

/-- Nothing is written to a sink that is closed. -/
theorem write_of_isClosed (hc : s.sink.all Sink.isClosed = true) : s.write = s := by
  unfold write
  cases hsink : s.sink with
  | none => rfl
  | some sink =>
    rw [hsink, Option.all_some] at hc
    simp [hc]

end Session

/-! ## What was queued and what is written -/

/-- What frames are written when nothing fails. -/
theorem Sink.drain_frames (bs : List Bytes) (rest : List (Outbound Bytes)) (written : List Bytes) :
    drain (bs.map .frame ++ rest) { written } = drain rest { written := written ++ bs } := by
  induction bs generalizing written with
  | nil => simp
  | cons b bs ih =>
    have hw : Sink.write { written } b = some { written := written ++ [b] } := by simp [Sink.write]
    simp only [List.map_cons, List.cons_append, drain, hw]
    rw [ih, List.append_assoc, List.singleton_append]

/-- Where the messages are that were queued, in their order, with so many requests to close behind them: either they are written or
still in the queue, and the sink is open, or all are written and the sink is closed. -/
inductive Outlet (framed : Bool) (queued : List Message) (closes : Nat) (c : Connection) : Option Sink → Prop where
  | opened {done waiting : List Message} (hw : c.writable = true) (hq : c.queue = waiting.map .frame ++ .replicate closes .close)
      (h : queued = done ++ waiting) : Outlet framed queued closes c (some { written := done.map (Message.write framed) })
  | shut (hw : c.writable = false) (hq : c.queue = []) (hc : 0 < closes) :
      Outlet framed queued closes c (some { written := queued.map (Message.write framed), closed := some true })

namespace Outlet

variable {framed : Bool} {queued : List Message} {closes : Nat} {c c' : Connection} {sink : Option Sink}

/-- What is written is the beginning of what was queued. -/
theorem written_prefix (h : Outlet framed queued closes c sink) :
    ((sink.map Sink.written).getD []) <+: queued.map (Message.write framed) := by
  cases h with
  | opened hw hq h => exact ⟨_, by rw [h, List.map_append]; rfl⟩
  | shut => exact List.prefix_refl _

/-- When the sink is closed, everything that was queued is written. -/
theorem eq_of_isClosed (h : Outlet framed queued closes c sink) (hs : sink.all Sink.isClosed = true) :
    sink = some { written := queued.map (Message.write framed), closed := some true } := by
  cases h with
  | opened => simp [Sink.isClosed] at hs
  | shut => rfl

/-- As long as nobody has asked to close, the writer is there. -/
theorem writable (h : Outlet framed queued 0 c sink) : c.writable = true := by
  cases h with
  | opened hw => exact hw
  | shut _ _ hc => exact absurd hc (Nat.lt_irrefl 0)

/-- More messages are queued behind, and perhaps a request to close. -/
theorem queue {ms : List Message} {leaves : Bool} (h : Outlet framed queued 0 c sink) (hw : c'.writable = c.writable)
    (hq : c'.queue = c.queue ++ ms.map .frame ++ Outbound.closing leaves) : Outlet framed (queued ++ ms) leaves.toNat c' sink := by
  cases h with
  | @opened done waiting hw' hq' h =>
    have hall : queued ++ ms = done ++ (waiting ++ ms) := by rw [h, List.append_assoc]
    refine .opened (hw.trans hw') ?_ hall
    rw [hq, hq']
    cases leaves <;> simp [Outbound.closing]
  | shut _ _ hc => exact absurd hc (Nat.lt_irrefl 0)

/-- To release the connection is to ask to close. -/
theorem teardown (h : Outlet framed queued closes c sink) : Outlet framed queued (closes + 1) c.teardown sink := by
  cases h with
  | opened hw hq h =>
    refine .opened (by simp [Connection.teardown, Connection.enqueue_eq, hw]) ?_ h
    simp [Connection.teardown, Connection.enqueue_eq, Connection.kept, hw, hq, List.replicate_succ']
  | shut hw hq hc =>
    refine .shut (by simp [Connection.teardown, Connection.enqueue_eq, hw]) ?_ (Nat.succ_pos _)
    simp [Connection.teardown, Connection.enqueue_eq, Connection.kept, hw, hq]

end Outlet

namespace Session

variable {s : Session α} {queued : List Message} {closes : Nat}

/-- The writer writes everything that is queued, and closes the sink if it is asked to. -/
theorem exists_write (h : Outlet s.framed queued closes s.site.connection s.sink) :
    ∃ queue writable sink, s.write =
        { s with site := { s.site with connection := { s.site.connection with queue, writable } }, sink } ∧
      Outlet s.framed queued closes { s.site.connection with queue, writable } sink ∧
      (0 < closes → sink.all Sink.isClosed = true) := by
  generalize hsink : s.sink = sink at h
  cases h with
  | @opened done waiting hw hq h =>
    have hq' : s.site.connection.queue.map (·.map (Message.write s.framed)) =
        (waiting.map (Message.write s.framed)).map .frame ++ List.replicate closes .close := by
      simp [hq, Function.comp_def, Outbound.map]
    cases closes with
    | zero =>
      refine ⟨[], s.site.connection.writable, some { written := queued.map (Message.write s.framed) }, ?_, ?_,
        fun h => absurd h (Nat.lt_irrefl 0)⟩
      · simp only [write, hsink, hq', Sink.drain_frames]
        simp [Sink.drain, Sink.isClosed, withConnection, h]
      · refine .opened hw ?_ (List.append_nil queued).symm
        rfl
    | succ k =>
      refine ⟨[], false, some { written := queued.map (Message.write s.framed), closed := some true }, ?_, ?_, fun _ => rfl⟩
      · simp only [write, hsink, hq', Sink.drain_frames]
        simp [Sink.drain, Sink.isClosed, Sink.close, withConnection, h, List.replicate_succ, Connection.dropWriter]
      · exact .shut rfl rfl (Nat.succ_pos k)
  | shut hw hq hc =>
    refine ⟨s.site.connection.queue, s.site.connection.writable, _, ?_, .shut hw hq hc, fun _ => rfl⟩
    rw [write, hsink]
    simp only [Sink.isClosed, Option.isSome_some, if_true]
    rw [← hsink]

end Session

end Parley
