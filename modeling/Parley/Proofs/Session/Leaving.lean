import Parley.Proofs.Session.Replies
import Parley.Proofs.Session.Waiting

/-!
# How an exit ends the loop

When the loop reads an `exit` that has no handler, or a direct one, it ends with the code, whatever else has arrived. A handler of
another mode is left to run and the loop reads on, until the handler has ended and the code is recorded: then it ends with the code
at its next round, which comes whatever has arrived. In between it can end otherwise, for it looks at its source as before: the
end of the source, or a fault of it, ends the loop while the handler is at work (`exit_ends_loop`, `exit_ends_as_closed`).
-/

namespace Parley

namespace Connection

/-- An `exit` that is accepted ends at once, or begins the job of its handler. -/
theorem receive_of_takes_exit {c : Connection} {payload : Bytes} (h : c.takes .exit (c.reads payload) = true) :
    (c.routes.serving? exitMethod = none ∧ c.receive payload = ((c.opened payload).completeExit, none)) ∨
      ∃ origin mode params, c.routes.serving? exitMethod = some (origin, mode) ∧
        c.receive payload = (c.opened payload, some ⟨.exit, origin, exitMethod, mode, exitMethod, params, .connection⟩) := by
  cases hd : c.reads payload with
  | error f => simp [hd, takes] at h
  | ok m =>
    rw [hd] at h
    cases m with
    | notification method params =>
      obtain ⟨rfl, hl⟩ : method = exitMethod ∧ c.lifecycle ≠ .exited := by simpa [takes] using h
      have hr : c.receive payload = (c.opened payload).receiveExit params := by
        rw [receive_of_ok hd, if_neg hl]
        simp [receiveMessage, receiveNotification, exitMethod, cancelMethod]
      have hs : (c.opened payload).routes.serving? exitMethod = c.routes.serving? exitMethod := rfl
      rw [hr, receiveExit, hs]
      cases c.routes.serving? exitMethod with
      | none => exact .inl ⟨rfl, rfl⟩
      | some target => exact .inr ⟨target.1, target.2, params, rfl, rfl⟩
    | _ => simp [takes] at h

/-- Our side changes neither the stage of life nor the code. -/
theorem ActsTo.stage {c c' : Connection} (h : c.ActsTo c') : c'.lifecycle = c.lifecycle ∧ c'.exitCode = c.exitCode := by
  obtain ⟨ms, hm, hr⟩ := h
  have hrun (v : Conversation) (ms : List Move) (hm : ∀ m ∈ ms, m.isOurs = true ∨ m = .teardown) :
      (v.run ms).connection.lifecycle = v.connection.lifecycle ∧ (v.run ms).connection.exitCode = v.connection.exitCode := by
    induction ms generalizing v with
    | nil => exact ⟨rfl, rfl⟩
    | cons m ms ih =>
      obtain ⟨hl, hc⟩ := ih (v.step m) fun m' h => hm m' (List.mem_cons_of_mem _ h)
      obtain ⟨hl', hc', -⟩ := Conversation.step_of_aside (v := v) (hm m List.mem_cons_self)
      exact ⟨hl.trans hl', hc.trans hc'⟩
  have hs := hrun ⟨c, []⟩ ms hm
  rw [hr []] at hs
  exact hs

/-- The code that an `exit` leaves with which ends at this stage. -/
def leavingCode (c : Connection) : Int := if c.lifecycle = .shuttingDown then 0 else 1

end Connection

namespace Conversation

/-- A handler of `exit` is at work, or one has ended. -/
def Leaving (v : Conversation) : Prop := 0 < v.openFor .exit ∨ v.connection.exitCode.isSome = true

/-- Whoever is about to leave is so behind any move. -/
theorem Leaving.step {v : Conversation} (h : v.Leaving) (m : Move) : (v.step m).Leaving := by
  have hf := step_farewells v m .exit
  have hx := (step_stage v m).2
  unfold Leaving at h ⊢
  cases he : v.ends .exit m with
  | true =>
    rw [he] at hx
    exact .inr (by simp [hx])
  | false =>
    rw [he] at hf hx
    rcases h with h | h
    · simp only [Bool.toNat_false] at hf
      omega
    · exact .inr (by simpa [hx] using h)

/-- And behind any number of moves. -/
theorem Leaving.run {v : Conversation} (h : v.Leaving) (ms : List Move) : (v.run ms).Leaving :=
  run_preserves (P := Leaving) (fun _ m h => h.step m) ms v h

end Conversation

namespace Session

variable {α : Type} {handlers : Registry (Handler α)} {catalogue : Catalogue} {s s' : Session α}

/-- While a handler of `exit` is at work or one has ended, so it stays. -/
theorem Underway.leaving (h : Underway handlers catalogue s) (hs : Later s s')
    (hl : (∃ j ∈ s.jobs, j.duty = .exit) ∨ s.site.connection.exitCode.isSome = true) :
    (∃ j ∈ s'.jobs, j.duty = .exit) ∨ s'.site.connection.exitCode.isSome = true := by
  have hopen (js : List Job) : 0 < (js.countP fun j => j.duty.isFor .exit) ↔ ∃ j ∈ js, j.duty = .exit := by
    have hd (d : Duty) : d.isFor .exit = true ↔ d = .exit := by cases d <;> simp [Duty.isFor]
    simp only [List.countP_pos_iff, hd]
  obtain ⟨ms, hc, hj, -⟩ := h.here.later hs
  have hv : (Conversation.mk s.site.connection s.jobs).Leaving := hl.imp_left (hopen s.jobs).mpr
  rw [List.nil_append] at hj
  refine (hv.run ms).imp (fun ho => ?_) fun hx => hc ▸ hx
  rw [Conversation.openFor, hj.countP_eq] at ho
  exact (hopen s'.jobs).mp ho

/-- The outcome of a handler of `exit` records the code, and nothing of what else the program keeps changes. -/
theorem settle_exit {j : Job} (hj : j.duty = .exit) (s : Session α) (o : Outcome) :
    (s.settle j o).site.connection.exitCode = some s.site.connection.leavingCode ∧
      (s.settle j o).site.own = s.site.own := by
  simp [settle, handBack, Connection.complete, hj, site_rouse, withConnection, Connection.completeExit_eq,
    Connection.noteFailure_eq, Connection.leavingCode]

/-- An `exit` without a handler records the code at once. -/
theorem receive_exit_unserved {payload : Bytes} (ht : s.site.connection.takes .exit (s.site.connection.reads payload) = true)
    (hr : s.site.connection.routes.serving? Connection.exitMethod = none) :
    (s.receive payload).2 = none ∧ (s.receive payload).1.site.connection.exitCode = some s.site.connection.leavingCode := by
  rcases Connection.receive_of_takes_exit ht with ⟨-, he⟩ | ⟨origin, mode, params, hm, -⟩
  · have hs : s.receive payload = ((s.withConnection (s.site.connection.opened payload).completeExit).rouse, none) := by
      simp [receive, he]
    rw [hs, site_rouse, withConnection, Connection.completeExit_eq]
    exact ⟨rfl, rfl⟩
  · rw [hr] at hm
    cases hm

/-- A direct handler of `exit` comes to its outcome at once, and the code is recorded. -/
theorem Underway.receive_exit_direct (h : Underway handlers catalogue s) {payload : Bytes}
    (ht : s.site.connection.takes .exit (s.site.connection.reads payload) = true) {origin : Origin}
    (hr : s.site.connection.routes.serving? Connection.exitMethod = some (origin, .direct)) :
    (s.receive payload).2 = none ∧ (s.receive payload).1.site.connection.exitCode = some s.site.connection.leavingCode ∧
      ∃ act params, handlers.find? origin Connection.exitMethod = some (.direct act) ∧
        (s.receive payload).1.site.own =
          (act ⟨none, Connection.exitMethod, .connection, params⟩
            { s.site with connection := s.site.connection.opened payload }).2.own := by
  rcases Connection.receive_of_takes_exit ht with ⟨hn, -⟩ | ⟨origin', mode, params, hm, he⟩
  · rw [hr] at hn
    cases hn
  · obtain ⟨rfl, rfl⟩ := Prod.mk.inj (Option.some.inj (hr.symm.trans hm))
    obtain ⟨act, hb⟩ := h.direct_of_route (Registry.find?_of_serving? hr)
    have hact : s.handlers.find? origin Connection.exitMethod = some (.direct act) := by rw [h.handlers, hb]
    have hlawful := h.follows.handlers _ _ _ hact
    have hstage := (hlawful ⟨none, Connection.exitMethod, .connection, params⟩
      { s.site with connection := s.site.connection.opened payload }).stage.1
    have hsite : (s.withConnection (s.site.connection.opened payload)).rouse.site =
        { s.site with connection := s.site.connection.opened payload } := site_rouse _
    have hhandlers : (s.withConnection (s.site.connection.opened payload)).rouse.handlers = s.handlers := (onward_rouse _).handlers
    simp only [receive, he, if_true, runDirect, hhandlers, hact, hsite, Job.call, Duty.id?]
    refine ⟨trivial, ?_, act, params, hb, ?_⟩
    · rw [(settle_exit rfl _ _).1, site_rouse, Connection.leavingCode, hstage]
      rfl
    · rw [(settle_exit rfl _ _).2, site_rouse]

/-- A handler of `exit` of another mode is left to run. -/
theorem receive_exit_background {payload : Bytes}
    (ht : s.site.connection.takes .exit (s.site.connection.reads payload) = true) {origin : Origin} {mode : Mode}
    (hr : s.site.connection.routes.serving? Connection.exitMethod = some (origin, mode)) (hm : mode ≠ .direct) :
    (s.receive payload).2 = none ∧ (s.receive payload).1.site.connection.exitCode = s.site.connection.exitCode ∧
      ∃ f j, (s.receive payload).1.fibers.find? s.nextFiber = some f ∧ f.job = some j ∧ j.duty = .exit ∧ j.mode = mode ∧
        .fiber s.nextFiber ∈ (s.receive payload).1.ready := by
  rcases Connection.receive_of_takes_exit ht with ⟨hn, -⟩ | ⟨origin', mode', params, hm', he⟩
  · rw [hr] at hn
    cases hn
  · obtain ⟨rfl, rfl⟩ := Prod.mk.inj (Option.some.inj (hr.symm.trans hm'))
    obtain ⟨hw, hs, hf, hready⟩ := receive_leaves he hm (by simp)
    exact ⟨hw, by rw [hs]; rfl, _, _, hf, rfl, rfl, rfl, hready⟩

/-- When the loop reads a payload, what comes of it is the next state, unless the loop waits for a fiber. -/
theorem round_of_payload (hs : s.stopping = false) (hx : s.site.connection.exitCode = none) {payload : Bytes} {source : Source}
    (hn : s.source.next = some (.payload payload, source)) (hw : (receive { s with source } payload).2 = none) :
    s.round = (receive { s with source } payload).1 := by
  rw [round, if_neg (by simp [hs])]
  simp only [hx, hn]
  cases hr : receive { s with source } payload with
  | mk s₁ waitsFor =>
    rw [hr] at hw
    obtain rfl : waitsFor = none := hw
    rfl

/-- When the code is recorded as soon as a payload is read, the loop ends with it. -/
theorem takePayloads_of_payload (hs : s.stopping = false) (hx : s.site.connection.exitCode = none) {payload : Bytes}
    {source : Source} (hn : s.source.next = some (.payload payload, source))
    (hw : (receive { s with source } payload).2 = none) {code : Int}
    (hc : (receive { s with source } payload).1.site.connection.exitCode = some code) (fuel : Nat) :
    (s.takePayloads (fuel + 1)).intake = .ended (.exit code) := by
  rw [takePayloads, if_neg (by simp [hs])]
  simp only [hx, hn]
  cases hr : receive { s with source } payload with
  | mk s₁ waitsFor =>
    rw [hr] at hw hc
    obtain rfl : waitsFor = none := hw
    simp only at hc
    simp [hc]

/-- How an `exit` ends the loop, from every state in which the loop is about to read one that is accepted, in five parts. The
first two say what comes of it whatever else has arrived, the last two what holds from there on, in whatever order turns are given
and whatever happens to the session.
1. Without a handler the loop ends with the code.
2. A direct handler is run, and the loop ends with the code.
3. A handler of another mode is left to run. No code is recorded, and the loop reads on.
4. Until a code is recorded a handler of `exit` is at work. Once it is, a loop that reads has a turn and ends with the code in its
   next round, unless the session is to stop; and a loop that waits for a fiber ends with the code when it goes on.
5. When the loop ends, it does so for a reason that it finds there: with the code if one is recorded, because it is to stop, or at
   the end of its source or a fault of it while no code is recorded. -/
theorem exit_ends_loop (handlers : Registry (Handler α)) (catalogue : Catalogue) (s : Session α) (hh : handlers.Lawful)
    (h : Reachable handlers catalogue s) (hi : s.intake = .reading) (hs : s.stopping = false)
    (hx : s.site.connection.exitCode = none) (payload : Bytes) (source : Source)
    (hn : s.source.next = some (.payload payload, source))
    (ht : s.site.connection.takes .exit (s.site.connection.reads payload) = true) :
    let code := s.site.connection.leavingCode
    let served := s.site.connection.routes.serving? Connection.exitMethod
    (served = none → ∀ fuel, (s.takePayloads (fuel + 1)).intake = .ended (.exit code)) ∧
    (∀ origin, served = some (origin, .direct) → (∀ fuel, (s.takePayloads (fuel + 1)).intake = .ended (.exit code)) ∧
      ∃ act params, handlers.find? origin Connection.exitMethod = some (.direct act) ∧
        s.round.site.own = (act ⟨none, Connection.exitMethod, .connection, params⟩
          { s.site with connection := s.site.connection.opened payload }).2.own) ∧
    (∀ origin mode, served = some (origin, mode) → mode ≠ .direct →
      s.round.intake = .reading ∧ s.round.site.connection.exitCode = none ∧
      ∃ f j, s.round.fibers.find? s.nextFiber = some f ∧ f.job = some j ∧ j.duty = .exit ∧ j.mode = mode ∧
        .fiber s.nextFiber ∈ s.round.ready) ∧
    (∀ w, Ticks s.round w →
      (w.site.connection.exitCode = none → ∃ j ∈ w.jobs, j.duty = .exit) ∧
      ∀ code, w.site.connection.exitCode = some code →
        (w.intake = .reading → .loop ∈ w.ready ∧ (w.stopping = false → w.round.intake = .ended (.exit code))) ∧
        ∀ n, w.intake = .busy n → w.resume.intake = .ended (.exit code)) ∧
    ∀ w w' r, Ticks s.round w → Tick w w' → w.intake ≠ .ended r → w'.intake = .ended r → w.EndsFor r := by
  intro code served
  have hsource : Onward s { s with source } := .of_eq rfl rfl rfl rfl rfl rfl rfl
  have hu : Underway handlers catalogue { s with source } := (h.underway hh).later hsource.later
  have hread : (receive { s with source } payload).1.intake = .reading := (unread_receive { s with source } payload).intake.trans hi
  have unserved : served = none → (receive { s with source } payload).2 = none ∧
      (receive { s with source } payload).1.site.connection.exitCode = some code :=
    receive_exit_unserved (s := { s with source }) ht
  have direct (origin : Origin) (hd : served = some (origin, .direct)) := hu.receive_exit_direct ht hd
  have background (origin : Origin) (mode : Mode) (hb : served = some (origin, mode)) (hm : mode ≠ .direct) :=
    receive_exit_background (s := { s with source }) ht hb hm
  refine ⟨fun hd fuel => ?_, fun origin hd => ⟨fun fuel => ?_, ?_⟩, fun origin mode hb hm => ?_, fun w hw => ⟨fun hnone => ?_,
    fun code hc => ⟨fun hr => ⟨?_, fun hstop => intake_round_of_exitCode hstop hc⟩, fun n _ => intake_resume_of_exitCode hc⟩⟩,
    fun w w' r _ htick hne he => htick.endsFor hne he⟩
  · exact takePayloads_of_payload hs hx hn (unserved hd).1 (unserved hd).2 fuel
  · exact takePayloads_of_payload hs hx hn (direct origin hd).1 (direct origin hd).2.1 fuel
  · rw [round_of_payload hs hx hn (direct origin hd).1]
    exact (direct origin hd).2.2
  · obtain ⟨hw, hc, hf⟩ := background origin mode hb hm
    rw [round_of_payload hs hx hn hw]
    exact ⟨hread, hc.trans hx, hf⟩
  · -- a handler of `exit` is at work behind the round, or the code is recorded there
    have hl : (∃ j ∈ s.round.jobs, j.duty = .exit) ∨ s.round.site.connection.exitCode.isSome = true := by
      cases hserved : served with
      | none =>
        obtain ⟨hw, hc⟩ := unserved hserved
        rw [round_of_payload hs hx hn hw, hc]
        exact .inr rfl
      | some target =>
        obtain ⟨origin, mode⟩ := target
        by_cases hm : mode = .direct
        · subst hm
          obtain ⟨hw, hc, -⟩ := direct origin hserved
          rw [round_of_payload hs hx hn hw, hc]
          exact .inr rfl
        · obtain ⟨hw, -, f, j, hf, hj, hd, -⟩ := background origin mode hserved hm
          rw [round_of_payload hs hx hn hw]
          exact .inl ⟨j, mem_jobs hf hj, hd⟩
    have hround : Underway handlers catalogue s.round := (h.underway hh).later (alongside_round s).later
    rcases hround.leaving hw.later hl with hj | hc
    · exact hj
    · simp [hnone] at hc
  · exact hw.prompt (prompt_round s) hr (.inr (by simp [hc]))

/-- A handler of `exit` that waits for a permit. -/
def byeHandlers : Registry (Handler Unit) :=
  { features := ({} : Table String (Handler Unit)).insert "exit" (.coroutine fun _ => .wait (.permit "bye") (.done (.ok .null))) }

theorem lawful_byeHandlers : byeHandlers.Lawful := by
  intro origin name b hb
  cases origin with
  | builtin => cases hb
  | command => cases hb
  | user =>
    simp only [Registry.find?, byeHandlers, Table.find?_insert] at hb
    split at hb
    · obtain rfl := Option.some.inj hb
      exact fun _ => trivial
    · cases hb

/-- The notification with which the peer leaves. -/
def byeNote : Bytes := (Message.notification "exit" .null).encode

/-- The loop is about to read an `exit`. -/
def saidBye : Session Unit := ((make byeHandlers {} 1 ()).start (.queue [])).feed byeNote

/-- Behind `saidBye` the handler has its turn, gets its permit and ends, and then the peer closes: the loop ends with the code in
its next round, although its source has ended. -/
theorem exit_ends_loop_saidBye :
    let w := (((saidBye.round.run 2).release "bye").run 1).close
    byeHandlers.Lawful ∧ Reachable byeHandlers {} saidBye ∧ saidBye.intake = .reading ∧
    saidBye.source.next = some (.payload byeNote, .queue []) ∧
    saidBye.site.connection.takes .exit (saidBye.site.connection.reads byeNote) = true ∧
    saidBye.round.intake = .reading ∧ Ticks saidBye.round w ∧ w.source.next.map (·.1) = some .ended ∧
    w.round.intake = .ended (.exit 1) := by
  intro w
  have hr : Reachable byeHandlers {} saidBye := .feed (.start (.make 1 ()) _) _
  obtain ⟨-, -, hleft, hlater, -⟩ := exit_ends_loop byeHandlers {} saidBye lawful_byeHandlers hr rfl rfl rfl byeNote (.queue [])
    rfl (by decide +kernel)
  have hw : Ticks saidBye.round w := (((ticks_run _ 2).tail (tick_release _ _)).trans (ticks_run _ 1)).tail (tick_close _)
  exact ⟨lawful_byeHandlers, hr, rfl, rfl, by decide +kernel, (hleft .user .coroutine rfl (by decide)).1, hw, rfl,
    (((hlater w hw).2 1 rfl).1 rfl).2 rfl⟩

/-- The peer closes while the handler of its `exit` is at work: the loop ends as if there had been no `exit`, and the code that the
handler leaves later changes nothing of it. -/
theorem exit_ends_as_closed :
    let closed := (saidBye.run 10).close.run 10
    let left := (closed.release "bye").run 10
    closed.intake = .ended .peerClosed ∧ closed.site.connection.exitCode = none ∧
    left.site.connection.exitCode = some 1 ∧ left.ended? = some .peerClosed :=
  ⟨rfl, rfl, rfl, rfl⟩

end Session

end Parley
