import Parley.Proofs.Conversation.Answers
import Parley.Proofs.Message.Written

/-!
# Shutdown

What `shutdown` leaves behind. When it ends, every other request that is being served has its token fired, and from then on none
begins, so as long as the connection is shutting down no request is served whose token has not fired (`Connection.Subdued`).
This holds however many requests and further `shutdown` come while a handler of `shutdown` is at work, for it is when the
handler ends, not when the payload comes, that the others are cancelled. Each `shutdown` that is accepted is answered once.
-/

namespace Parley

namespace Connection

/-- While the connection is shutting down, every request that is being served has been cancelled. -/
def Subdued (c : Connection) : Prop := c.lifecycle = .shuttingDown → c.incoming.Quiet

/-- No payload leaves a request alive while the connection is shutting down. -/
theorem Received.subdued {c : Connection} {d : Except DecodeFault Message} {s : Step} (h : Received c d s) (hc : c.Subdued) :
    s.1.Subdued := by
  cases h with
  | faulty f => simpa [Subdued, refuse_eq] using hc
  | refused h => simpa [Subdued, send_eq] using hc
  | begun j ha hb ht hm hn =>
    intro hl
    have hl : c.lifecycle = .shuttingDown := hl
    rw [ha] at hl
    cases hl
  | closed ha hb hs =>
    intro _
    rw [completeShutdown_eq]
    exact Incoming.quiet_cancelAllExcept_finish _ _
  | cancelled params h =>
    simp only [receiveCancel]
    split
    · exact fun hl => (hc hl).cancel _
    · exact hc
  | left params h hs =>
    intro hl
    rw [completeExit_eq] at hl
    cases hl
  | answered id v h => simpa [Subdued, receiveReply, resolve, forget] using hc
  | failed id e h => simpa [Subdued, receiveReply, resolve, forget] using hc
  | _ => exact hc

/-- No outcome leaves a request alive while the connection is shutting down. -/
theorem Subdued.complete {c : Connection} (hc : c.Subdued) (j : Job) (o : Outcome) : (c.complete j o).1.Subdued := by
  unfold Connection.complete
  cases j.duty with
  | request id =>
    intro hl
    simp only [finish_eq] at hl ⊢
    exact (hc hl).finish id
  | shutdown id =>
    intro _
    simp only [completeShutdown_eq]
    exact Incoming.quiet_cancelAllExcept_finish _ _
  | exit =>
    intro hl
    simp only [completeExit_eq] at hl
    cases hl
  | builtin => simpa [Subdued, noteFailure_eq] using hc
  | notification => simpa [Subdued, noteFailure_eq] using hc

/-- What comes of a `shutdown` that is accepted: it is answered at once, or its handler begins. -/
theorem Received.of_shutdown {c : Connection} {id : MessageId} {params : Json} {s : Step}
    (h : Received c (.ok (.request id shutdownMethod params)) s) (ha : c.lifecycle = .active)
    (hc : c.incoming.contains id = false) :
    match c.routes.serving? shutdownMethod with
    | none =>
      s.2 = none ∧ s.1.queue = c.queue ++ c.kept [.frame (Reply.success id .null)] ∧ s.1.incoming.contains id = false
    | some (origin, mode) =>
      ∃ j, s.2 = some j ∧ s.1.queue = c.queue ∧ s.1.incoming.tokens = c.incoming.tokens + 1 ∧ j.duty = .shutdown id ∧
        j.origin = origin ∧ j.mode = mode ∧ j.token = .request c.incoming.tokens := by
  cases h with
  | ignored m hl =>
    rw [ha] at hl
    cases hl
  | refused h =>
    cases h with
    | late hl =>
      rw [ha] at hl
      cases hl
    | unserved ha hm hr => exact absurd rfl hm
    | duplicate ha hd hs =>
      rw [hc] at hd
      cases hd
  | begun j ha hb ht hm hn =>
    obtain ⟨-, rfl, rfl⟩ := Incoming.begin?_eq_some hb
    rcases ht with ⟨-, hs, hd, -⟩ | ⟨hs, -⟩
    · rw [hs]
      exact ⟨j, rfl, rfl, rfl, hd, rfl, rfl, hn⟩
    · exact absurd rfl hs
  | @closed i p n incoming ha hb hs =>
    have hi : incoming.contains id = true := by simp [Incoming.contains_begin hb]
    rw [hs]
    refine ⟨rfl, ?_, ?_⟩
    · simp [completeShutdown_eq, hi, kept, Reply.ofOutcome, Except.map]
    · simp [completeShutdown_eq, Incoming.contains_finish]

end Connection

namespace Conversation

/-- No move leaves a request alive while the connection is shutting down. -/
theorem subdued_step {v : Conversation} (h : v.connection.Subdued) (m : Move) : (v.step m).connection.Subdued := by
  rcases m.kinds with ho | ⟨payload, rfl⟩ | ⟨n, o, rfl⟩ | rfl
  · have hs := (step_of_isOurs ho v).1
    rw [Connection.Subdued, hs.lifecycle, hs.incoming]
    exact h
  · exact (Connection.receive_received v.connection payload).subdued h
  · simp only [step]
    split
    · exact h.complete _ o
    · exact h
  · intro _ id n hf
    simp [step, Connection.teardown, Connection.enqueue_eq, Incoming.purge, Incoming.close] at hf

/-- A subdued connection stays so. -/
theorem subdued_run {v : Conversation} (h : v.connection.Subdued) (ms : List Move) : (v.run ms).connection.Subdued :=
  run_preserves (P := fun w => w.connection.Subdued) (fun _ m h => subdued_step h m) ms v h

/-- The only later job with the ticket of a request that has just begun is the one that began with it. -/
theorem eq_of_ticket_run {v : Conversation} (h : v.Tied) {j : Job} {id : MessageId} {n : Nat}
    (hi : v.connection.incoming.contains id = false) {w : Conversation} (hw : w.jobs = v.jobs ++ [j])
    (hn : n < w.connection.incoming.tokens) {ms : List Move} {j' : Job} (hj : j' ∈ (w.run ms).jobs)
    (ht : j'.ticket? = some (id, .request n)) : j' = j := by
  obtain ⟨i, hd, hp⟩ := Option.map_eq_some_iff.mp ht
  obtain ⟨rfl, htoken⟩ := Prod.mk.inj hp
  rcases mem_jobs_run hj with hj | ⟨before, m, after, rfl, hb⟩
  · rw [hw, List.mem_append, List.mem_singleton] at hj
    refine hj.resolve_left fun hj => ?_
    obtain ⟨t, -, hf⟩ := h.find? hj hd
    rw [Incoming.contains_eq_true_iff.mpr ⟨t, hf⟩] at hi
    cases hi
  · have hk : (w.run before).connection.incoming.tokens = n := Token.request.inj ((token_of_begins hb hd).symm.trans htoken)
    have hl := tokens_le_run w before
    omega

/-- What the sender of a `shutdown` is told: null if its handler succeeds, and the failure otherwise. -/
def farewellReply (id : MessageId) : Outcome → Message
  | .ok _ => Reply.success id .null
  | .error f => Reply.failure (some id) (f.toResponseError (some id))

/-- Shutdown leaves no live work, for all handlers, in two parts.
1. At every point of every run at which the connection is shutting down, the token of every id in use has fired.
2. Each `shutdown` that is accepted is answered once, unless all is torn down. Without a handler it is answered with null at once.
   With one, its job begins and nothing is queued; later the job is open or has ended once, and what is queued when it ends is
   null if the handler succeeded, and an error otherwise. The queue takes it as long as the writer is there. -/
theorem shutdown_leaves_no_live_work (routes : Registry Mode) (catalogue : Catalogue) :
    let first := start routes catalogue
    (∀ ms id n, (first.run ms).connection.lifecycle = .shuttingDown →
      (first.run ms).connection.incoming.entries.find? id = some n →
      (first.run ms).connection.isFired (.request n) = true) ∧
    ∀ before payload after id params,
      let v := first.run before
      let w := v.step (.receive payload)
      v.connection.reads payload = .ok (.request id Connection.shutdownMethod params) →
      v.connection.lifecycle = .active → v.connection.incoming.contains id = false →
      Move.teardown ∉ before → Move.teardown ∉ after →
      match routes.serving? Connection.shutdownMethod with
      | none =>
        v.own (.receive payload) = v.connection.kept [.frame (farewellReply id (.ok .null))] ∧ w.jobs = v.jobs ∧
          w.connection.incoming.contains id = false
      | some (origin, mode) =>
        ∃ j, j.duty = .shutdown id ∧ j.origin = origin ∧ j.mode = mode ∧ j.token = .request v.connection.incoming.tokens ∧
          v.own (.receive payload) = [] ∧ w.jobs = v.jobs ++ [j] ∧
          (w.run after).jobs.countP (fun j' => j'.ticket? = j.ticket?) +
            (w.trace after).countP (fun e => (e.1.closes e.2).any fun j' => j'.ticket? = j.ticket?) = 1 ∧
          ∀ u n o j', (u, .finish n o) ∈ w.trace after → u.jobs[n]? = some j' → j'.ticket? = j.ticket? →
            j' = j ∧ u.own (.finish n o) = u.connection.kept [.frame (farewellReply id o)] ∧
              (u.step (.finish n o)).connection.incoming.contains id = false := by
  intro first
  refine ⟨fun ms id n hl hf => ?_, ?_⟩
  · have hs : first.connection.Subdued := fun h => by cases h
    exact subdued_run hs ms hl id n hf
  · intro before payload after id params v w hp ha hc hb hf
    have hv : v.Tied := (Tied.start routes catalogue).run hb
    have hw : w.Tied := hv.step (by simp)
    have hr := Connection.receive_received v.connection payload
    rw [hp] at hr
    have hs := hr.of_shutdown ha hc
    have hroutes : (v.connection.opened payload).routes = routes := routes_run first before
    rw [hroutes] at hs
    cases hsv : routes.serving? Connection.shutdownMethod with
    | none =>
      rw [hsv] at hs
      obtain ⟨hj, hq, hi⟩ := hs
      exact ⟨own_receive hq, by simp [w, step, absorb, hj], hi⟩
    | some target =>
      rw [hsv] at hs
      obtain ⟨j, hj, hq, hn, hd, ho, hm, ht⟩ := hs
      have hjobs : w.jobs = v.jobs ++ [j] := by simp [w, step, absorb, hj]
      have hlt : v.connection.incoming.tokens < w.connection.incoming.tokens := by
        have hn : w.connection.incoming.tokens = v.connection.incoming.tokens + 1 := hn
        omega
      -- The job is known by its ticket, an id with a token that no job had before; so tickets are what is counted.
      have hti : j.ticket? = some (id, .request v.connection.incoming.tokens) := by simp [Job.ticket?, hd, ht, Duty.id?]
      refine ⟨j, hd, ho, hm, ht, own_receive (by simpa using hq), hjobs, ?_, ?_⟩
      · have hnew : v.jobs.countP (fun j' => j'.ticket? = some (id, .request v.connection.incoming.tokens)) = 0 := by
          rw [List.countP_eq_zero]
          intro j' hj' he
          obtain ⟨i, hi, he⟩ := Option.map_eq_some_iff.mp (of_decide_eq_true he)
          obtain ⟨rfl, -⟩ := Prod.mk.inj he
          obtain ⟨t, -, hf⟩ := hv.find? hj' hi
          rw [Incoming.contains_eq_true_iff.mpr ⟨t, hf⟩] at hc
          cases hc
        have hcount := countP_ticket_run w after id hlt
        rw [hjobs, List.countP_append, hnew, List.countP_singleton, hti] at hcount
        rw [hti]
        simpa using hcount
      · intro u n o j' hu hn hj'
        obtain ⟨between, rest, rfl, rfl⟩ := mem_trace_iff.mp hu
        obtain rfl := eq_of_ticket_run hv hc hjobs hlt (List.mem_of_getElem? hn) (hj'.trans hti)
        have hu : (w.run between).Tied := hw.run fun hm => hf (List.mem_append_left _ hm)
        have hid : j'.duty.id? = some id := by rw [hd]; rfl
        have hown := hu.own_finish hn hid o
        rw [hd] at hown
        refine ⟨rfl, hown.1.trans ?_, hown.2⟩
        cases o <;> rfl

/-- `shutdown` is served in steps, and so is one more method. -/
def patientRoutes : Registry Mode :=
  { features := (({} : Table String Mode).insert Connection.shutdownMethod .coroutine).insert "slow" .coroutine }

/-- The payload of a `shutdown`. -/
def firstShutdown : Bytes := (Message.request (.num 1) Connection.shutdownMethod .null).encode

/-- While the handler of a first `shutdown` is at work, a request and another `shutdown` come; then the first handler fails. -/
def overlapping : List Move :=
  [.receive (Message.request (.num 2) "slow" .null).encode,
   .receive (Message.request (.num 3) Connection.shutdownMethod .null).encode,
   .finish 0 (.error (.failed "no")), .receive (Message.request (.num 4) "slow" .null).encode]

/-- In `overlapping` the requests that came while the first handler was at work are cancelled when it fails, and the first
`shutdown` is answered once. -/
theorem shutdown_leaves_no_live_work_overlapping :
    (((start patientRoutes {}).run (.receive firstShutdown :: overlapping)).connection.lifecycle = .shuttingDown ∧
      ((start patientRoutes {}).run (.receive firstShutdown :: overlapping)).connection.incoming.entries.find? (.num 3) = some 2 ∧
      ((start patientRoutes {}).run (.receive firstShutdown :: overlapping)).connection.isFired (.request 2) = true) ∧
    ∃ j, j.duty = .shutdown (.num 1) ∧ ((start patientRoutes {}).step (.receive firstShutdown)).jobs = [j] ∧
      (((start patientRoutes {}).step (.receive firstShutdown)).run overlapping).jobs.countP
          (fun j' => j'.ticket? = j.ticket?) +
        (((start patientRoutes {}).step (.receive firstShutdown)).trace overlapping).countP
          (fun e => (e.1.closes e.2).any fun j' => j'.ticket? = j.ticket?) = 1 := by
  have h := shutdown_leaves_no_live_work patientRoutes {}
  have hl : ((start patientRoutes {}).run (.receive firstShutdown :: overlapping)).connection.lifecycle = .shuttingDown := by
    decide +kernel
  have hf : ((start patientRoutes {}).run (.receive firstShutdown :: overlapping)).connection.incoming.entries.find? (.num 3) =
      some 2 := by
    decide +kernel
  have hp : (start patientRoutes {}).connection.reads firstShutdown =
      .ok (.request (.num 1) Connection.shutdownMethod .null) :=
    congrArg Prod.fst (Message.decode_request (c := {}) (rfl : (MessageId.num 1).IsAccepted) rfl rfl {})
  refine ⟨⟨hl, hf, h.1 (.receive firstShutdown :: overlapping) (.num 3) 2 hl hf⟩, ?_⟩
  obtain ⟨j, hd, -, -, -, -, hj, hc, -⟩ :=
    h.2 [] firstShutdown overlapping (.num 1) .null hp rfl rfl (by simp) (by simp [overlapping])
  exact ⟨j, hd, hj, hc⟩

end Conversation

end Parley
