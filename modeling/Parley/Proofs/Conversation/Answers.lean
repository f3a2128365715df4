import Parley.Proofs.Conversation.Jobs

/-!
# Answers

One answer for each request. `Connection.Balanced` says of two states of a connection that the answers queued between them and
the change in what is being served account for a number of requests; each operation is balanced, so each move is, and so is a
run: what was answered and what is still served are together what was asked (`answers_account`). The rest says which answer each
request gets: the one to a request that is served is the outcome of its own job, and one that comes while its id is in use is
turned down without a trace in what is served.
-/

namespace Parley

/-- A message answers the request of an id. -/
def Message.isAnswerTo (id : MessageId) : Message → Bool
  | .result i _ => i = id
  | .error i _ => i = some id
  | _ => false

/-- An item of the queue answers the request of an id. -/
def Outbound.isAnswerTo (id : MessageId) : Outbound Message → Bool
  | .frame m => m.isAnswerTo id
  | .close => false

namespace Incoming

/-- How many requests of an id are being served: one or none. -/
def count (l : Incoming) (id : MessageId) : Nat := if l.contains id then 1 else 0

/-- A request that begins counts. -/
theorem count_begin {l l' : Incoming} {id : MessageId} {n : Nat} (h : l.begin? id = some (n, l')) (i : MessageId) :
    l'.count i = l.count i + if id = i then 1 else 0 := by
  have hc := (begin?_eq_some h).1
  rw [count, count, contains_begin h]
  by_cases hi : id = i
  · subst hi
    simp [hc]
  · simp [hi, Ne.symm hi]

/-- A request that ends no longer counts. -/
theorem count_finish (l : Incoming) (id i : MessageId) :
    (l.finish id).2.count i + (if id = i then l.count id else 0) = l.count i := by
  rw [count, contains_finish]
  by_cases hi : id = i
  · subst hi
    simp
  · simp [hi, Ne.symm hi, count]

end Incoming

namespace Connection

/-- From one state to a later one, what is queued and what is served of an id account for `n` requests. -/
def Balanced (id : MessageId) (n : Nat) (c c' : Connection) : Prop :=
  ∃ items, c'.queue = c.queue ++ items ∧
    items.countP (Outbound.isAnswerTo id) + c'.incoming.count id = c.incoming.count id + n

/-- Answers of two stretches add up. -/
theorem Balanced.trans {id : MessageId} {n n' : Nat} {c c' c'' : Connection} (h : Balanced id n c c')
    (h' : Balanced id n' c' c'') : Balanced id (n + n') c c'' := by
  obtain ⟨items, hq, hb⟩ := h
  obtain ⟨items', hq', hb'⟩ := h'
  refine ⟨items ++ items', by rw [hq', hq, List.append_assoc], ?_⟩
  rw [List.countP_append]
  omega

/-- Where nothing is queued, what is served accounts for the requests. -/
theorem Balanced.of_served {id : MessageId} {n : Nat} {c c' : Connection} (hq : c'.queue = c.queue)
    (hi : c'.incoming.count id = c.incoming.count id + n) : Balanced id n c c' :=
  ⟨[], by rw [hq, List.append_nil], by simpa using hi⟩

/-- Where one message is queued and what is served stays, the message accounts for the requests. -/
theorem Balanced.of_sent {id : MessageId} {n : Nat} {c c' : Connection} {m : Message} (hq : c'.queue = c.queue ++ [.frame m])
    (hi : c'.incoming = c.incoming) (hn : (if m.isAnswerTo id then 1 else 0) = n) : Balanced id n c c' := by
  refine ⟨_, hq, ?_⟩
  rw [hi, List.countP_singleton, ← hn]
  exact Nat.add_comm _ _

/-- The answer made of an outcome is an answer to its own id only. -/
theorem isAnswerTo_ofOutcome (id i : MessageId) (o : Outcome) :
    (Reply.ofOutcome i o).isAnswerTo id = decide (i = id) := by
  cases o <;> simp [Reply.ofOutcome, Reply.success, Reply.failure, Message.isAnswerTo]

/-- A refusal answers the request that it turns down. -/
theorem Refusal.isAnswerTo {c : Connection} {id : MessageId} {method : String} {params : Json} {m : Message}
    (h : Refusal c id method params m) (i : MessageId) : m.isAnswerTo i = decide (id = i) := by
  cases h with
  | late => simp [Reply.shuttingDown, Reply.failure, Message.isAnswerTo]
  | duplicate => simp [Reply.duplicate, Reply.failure, Message.isAnswerTo]
  | unserved ha hm hr =>
    unfold route at hr
    split at hr
    · split at hr
      · cases hr
        simp [Reply.commandNotNamed, Reply.failure, Message.isAnswerTo]
      · split at hr
        · cases hr
          simp [Reply.commandNotFound, Reply.failure, Message.isAnswerTo]
        · cases hr
    · split at hr
      · cases hr
        simp [Reply.methodNotFound, Reply.failure, Message.isAnswerTo]
      · cases hr

/-- Ending a request trades the request for its answer. -/
theorem finish_balanced {c : Connection} (hw : c.writable = true) (i : MessageId) (o : Outcome) (id : MessageId) :
    Balanced id 0 c (c.finish i o) := by
  rw [finish_eq]
  refine ⟨_, rfl, ?_⟩
  have hf := Incoming.count_finish c.incoming i id
  cases hc : c.incoming.contains i with
  | false => simp [Incoming.finish_of_not_contains hc]
  | true =>
    have h1 : c.incoming.count i = 1 := by simp [Incoming.count, hc]
    simp only [if_true, kept, hw, List.countP_singleton, Outbound.isAnswerTo, isAnswerTo_ofOutcome, decide_eq_true_eq]
    rw [h1] at hf
    omega

/-- Ending `shutdown` trades its request for its answer, and leaves what else is served. -/
theorem completeShutdown_balanced {c : Connection} (hw : c.writable = true) (i : MessageId) (o : Outcome) (id : MessageId) :
    Balanced id 0 c (c.completeShutdown i o) := by
  unfold completeShutdown
  refine Balanced.trans (n := 0) ?_ (finish_balanced ?_ i _ id)
  · exact .of_served rfl rfl
  · exact hw

/-- The outcome of a job trades a request for its answer, if it is one of a request. -/
theorem complete_balanced {c : Connection} (hw : c.writable = true) (j : Job) (o : Outcome) (id : MessageId) :
    Balanced id 0 c (c.complete j o).1 := by
  unfold complete
  cases j.duty with
  | request i => exact finish_balanced hw i o id
  | shutdown i => exact completeShutdown_balanced hw i o id
  | exit =>
    simp only [completeExit_eq, noteFailure_eq]
    exact ⟨_, rfl, by simp [kept, Outbound.isAnswerTo, hw]⟩
  | builtin => exact .of_served (by simp [noteFailure_eq]) (by simp [noteFailure_eq])
  | notification => exact .of_served (by simp [noteFailure_eq]) (by simp [noteFailure_eq])

/-- A payload accounts for the request that it makes, unless it is a request that comes after `exit`. -/
theorem Received.balanced {c : Connection} {d : Except DecodeFault Message} {s : Step} (h : Received c d s)
    (hw : c.writable = true) (id : MessageId) :
    Balanced id (if Message.asked d = some id ∧ ¬(c.lifecycle = .exited ∧ d.isOk) then 1 else 0) c s.1 := by
  cases h with
  | faulty f =>
    rw [refuse_eq]
    refine ⟨_, rfl, ?_⟩
    cases hf : f.replyId <;>
      simp [kept, hw, Message.asked, hf, Outbound.isAnswerTo, Reply.failure, Message.isAnswerTo, Except.isOk, Except.toBool]
    omega
  | ignored m hl => exact .of_served rfl (by simp [hl, Except.isOk, Except.toBool])
  | @refused i method params m hr =>
    have hl : c.lifecycle ≠ .exited := by
      cases hr <;> simp_all
    have hq : (c.send m).queue = c.queue ++ [.frame m] := by simp [send_eq, kept, hw]
    exact .of_sent hq (by rw [send_eq]) (by simp [hr.isAnswerTo, Message.asked, hl])
  | begun j ha hb ht hm hn =>
    refine .of_served rfl ?_
    rw [Incoming.count_begin hb]
    simp [Message.asked, ha]
  -- A `shutdown` without a handler begins and ends at once: two stretches, one after the other.
  | @closed i params n incoming ha hb hs =>
    have h : Balanced id (if i = id then 1 else 0) c { c with incoming } := .of_served rfl (Incoming.count_begin hb id)
    have hs := h.trans (completeShutdown_balanced (c := { c with incoming }) hw i (.ok .null) id)
    simpa [Message.asked, ha] using hs
  | cancelled params hl =>
    unfold receiveCancel
    refine .of_served ?_ ?_
    · split <;> rfl
    · split <;> simp [Incoming.count, Message.asked]
  | left params hl hs =>
    rw [completeExit_eq]
    exact ⟨_, rfl, by simp [kept, Outbound.isAnswerTo, hw, Message.asked]⟩
  | leaving hl hs => exact .of_served rfl (by simp [Message.asked])
  | noted job hc he hl hd => exact .of_served rfl (by simp [Message.asked])
  | answered i v hl => exact .of_served rfl (by simp [Message.asked, receiveReply, forget, resolve])
  | failed i e hl => exact .of_served rfl (by simp [Message.asked, receiveReply, forget, resolve])
  | unattributed e hl => exact .of_served rfl (by simp [Message.asked])

/-- What asks for no answer gets none: a request to close is all that may be queued. -/
theorem Received.queued_of_not_asked {c : Connection} {d : Except DecodeFault Message} {s : Step} (h : Received c d s)
    (ha : Message.asked d = none) : ∃ items, s.1.queue = c.queue ++ items ∧ ∀ item ∈ items, item = .close := by
  cases h with
  | faulty f =>
    have hf : f.replyId = none := ha
    exact ⟨[], by simp [refuse_eq, hf, kept], by simp⟩
  | refused | begun | closed => cases ha
  | cancelled params h =>
    refine ⟨[], ?_, by simp⟩
    simp only [receiveCancel]
    split <;> simp
  | left params h hs => exact ⟨c.kept [.close], by simp [completeExit_eq], by simp [kept]⟩
  | answered id v h => exact ⟨[], by simp [receiveReply, resolve, forget], by simp⟩
  | failed id e h => exact ⟨[], by simp [receiveReply, resolve, forget], by simp⟩
  | _ => exact ⟨[], by simp, by simp⟩

/-- A request whose id is in use is turned down with one answer, and what is served stays as it is. -/
theorem Received.refused_of_contains {c : Connection} {id : MessageId} {method : String} {params : Json} {s : Step}
    (h : Received c (.ok (.request id method params)) s) (hl : c.lifecycle ≠ .exited) (hc : c.incoming.contains id = true) :
    ∃ m, Refusal c id method params m ∧ s = (c.send m, none) := by
  cases h with
  | ignored m h => exact absurd h hl
  | refused h => exact ⟨_, h, rfl⟩
  | begun j ha hb ht hm hn =>
    rw [(Incoming.begin?_eq_some hb).1] at hc
    cases hc
  | closed ha hb hs =>
    rw [(Incoming.begin?_eq_some hb).1] at hc
    cases hc

/-- A request that is to be served is turned down only because its id is in use. -/
theorem Refusal.eq_duplicate {c : Connection} {id : MessageId} {method : String} {params : Json} {m : Message}
    (h : Refusal c id method params m) (ha : c.lifecycle = .active)
    (hs : method = shutdownMethod ∨ ∃ target, c.route id method params = .ok target) : m = Reply.duplicate id := by
  cases h with
  | late h =>
    rw [ha] at h
    cases h
  | duplicate => rfl
  | unserved ha hm hr =>
    rcases hs with hs | ⟨target, ht⟩
    · exact absurd hs hm
    · rw [hr] at ht
      cases ht

end Connection

/-- The outcome that the sender of a request is told: `shutdown` is answered without the value. -/
def Duty.told : Duty → Outcome → Outcome
  | .shutdown _, o => o.map fun _ => .null
  | _, o => o

namespace Connection

/-- The outcome of a job is queued as the answer to its request, which is no longer served. -/
theorem complete_answers {c : Connection} {j : Job} {id : MessageId} (hd : j.duty.id? = some id)
    (hc : c.incoming.contains id = true) (o : Outcome) :
    (c.complete j o).1.queue = c.queue ++ c.kept [.frame (Reply.ofOutcome id (j.duty.told o))] ∧
      (c.complete j o).1.incoming.contains id = false := by
  unfold complete
  cases hj : j.duty with
  | request i =>
    rw [hj] at hd
    obtain rfl := Option.some.inj hd
    simp [finish_eq, hc, Duty.told, Incoming.contains_finish]
  | shutdown i =>
    rw [hj] at hd
    obtain rfl := Option.some.inj hd
    simp [completeShutdown_eq, hc, Duty.told, Incoming.contains_finish]
  | exit | builtin | notification =>
    rw [hj] at hd
    cases hd

/-- The outcome of a job that answers no request queues a request to close at most. -/
theorem complete_queued {c : Connection} {j : Job} (hd : j.duty.id? = none) (o : Outcome) :
    ∃ items, (c.complete j o).1.queue = c.queue ++ items ∧ ∀ item ∈ items, item = .close := by
  unfold complete
  cases hj : j.duty with
  | request | shutdown =>
    rw [hj] at hd
    cases hd
  | exit => exact ⟨c.kept [.close], by simp [completeExit_eq, noteFailure_eq, kept], by simp [kept]⟩
  | builtin | notification => exact ⟨[], by simp [noteFailure_eq], by simp⟩

end Connection

namespace Conversation

/-- The move is a payload that asks for an answer under an id. A request that can be read is not counted after `exit`. -/
def owes (v : Conversation) (id : MessageId) : Move → Bool
  | .receive payload =>
    Message.asker? payload = some id ∧ ¬(v.connection.lifecycle = .exited ∧ (v.connection.reads payload).isOk)
  | _ => false

/-- What a payload makes the connection queue. -/
theorem own_receive {v : Conversation} {payload : Bytes} {items : List (Outbound Message)}
    (h : (v.connection.receive payload).1.queue = v.connection.queue ++ items) : v.own (.receive payload) = items := by
  simp [own, step, absorb, h]

/-- What the outcome of a job makes the connection queue. -/
theorem own_finish {v : Conversation} {n : Nat} {j : Job} (hj : v.jobs[n]? = some j) {o : Outcome}
    {items : List (Outbound Message)} (h : (v.connection.complete j o).1.queue = v.connection.queue ++ items) :
    v.own (.finish n o) = items := by
  simp [own, step, absorb, hj, h]

/-- A move accounts for the request that it makes. -/
theorem step_account {v : Conversation} (hw : v.connection.writable = true) {m : Move} (hm : m ≠ .teardown) (id : MessageId) :
    (v.own m).countP (Outbound.isAnswerTo id) + (v.step m).connection.incoming.count id =
      v.connection.incoming.count id + if v.owes id m then 1 else 0 := by
  rcases m.kinds with ho | ⟨payload, rfl⟩ | ⟨n, o, rfl⟩ | rfl
  · rw [(step_of_isOurs ho v).1.incoming]
    cases m <;> simp_all [own, owes, Move.isOurs]
  · obtain ⟨items, hq, hb⟩ := (Connection.receive_received v.connection payload).balanced hw id
    rw [own_receive hq]
    rw [Connection.reads, Message.asked_decode] at hb
    simp only [owes, decide_eq_true_eq]
    exact hb
  · cases hj : v.jobs[n]? with
    | none => simp [own, step, hj, owes]
    | some j =>
      obtain ⟨items, hq, hb⟩ := Connection.complete_balanced hw j o id
      rw [own_finish hj hq]
      simpa [step, hj, absorb, owes] using hb
  · exact absurd rfl hm

/-- A run accounts for the requests that are made in it. -/
theorem run_account {v : Conversation} {ms : List Move} (hw : (v.run ms).connection.writable = true)
    (hm : Move.teardown ∉ ms) (id : MessageId) :
    (v.output ms).countP (Outbound.isAnswerTo id) + (v.run ms).connection.incoming.count id =
      v.connection.incoming.count id + (v.trace ms).countP fun e => e.1.owes id e.2 := by
  induction ms generalizing v with
  | nil => simp [output]
  | cons m ms ih =>
    rw [List.mem_cons, not_or] at hm
    have hs := step_account (writable_of_step (writable_of_run hw)) (Ne.symm hm.1) id
    have hr := ih hw hm.2
    simp only [output, trace_cons, List.flatMap_cons, List.countP_append, List.countP_cons, run_cons] at hr ⊢
    omega

/-! ## Which answer -/

/-- A payload is turned down with an answer, and what is served and the open jobs stay as they are. -/
def TurnsDown (v : Conversation) (payload : Bytes) (m : Message) : Prop :=
  v.own (.receive payload) = [.frame m] ∧
    (v.step (.receive payload)).connection.incoming = v.connection.incoming ∧
    (v.step (.receive payload)).jobs = v.jobs

/-- A request whose id is in use is turned down, as a duplicate if it would be served otherwise. -/
theorem turnsDown_of_contains {v : Conversation} (hw : v.connection.writable = true) {payload : Bytes} {id : MessageId}
    {method : String} {params : Json} (hp : v.connection.reads payload = .ok (.request id method params))
    (hc : v.connection.incoming.contains id = true) (hl : v.connection.lifecycle ≠ .exited) :
    ∃ m, m.isAnswerTo id = true ∧ v.TurnsDown payload m ∧
      (v.connection.lifecycle = .active →
        (method = Connection.shutdownMethod ∨ ∃ target, v.connection.route id method params = .ok target) →
        m = Reply.duplicate id) := by
  have hr := Connection.receive_received v.connection payload
  rw [hp] at hr
  obtain ⟨m, hm, hs⟩ := hr.refused_of_contains hl hc
  refine ⟨m, by simp [hm.isAnswerTo], ⟨own_receive ?_, ?_, ?_⟩, hm.eq_duplicate⟩
  · simp [hs, Connection.send_eq, Connection.kept, hw]
  · simp [step, absorb, hs, Connection.send_eq]
  · simp [step, absorb, hs]

/-- The outcome of an open job is what the connection queues for the request that the job is for. -/
theorem Tied.own_finish {v : Conversation} (h : v.Tied) {n : Nat} {j : Job} {id : MessageId} (hj : v.jobs[n]? = some j)
    (hd : j.duty.id? = some id) (o : Outcome) :
    v.own (.finish n o) = v.connection.kept [.frame (Reply.ofOutcome id (j.duty.told o))] ∧
      (v.step (.finish n o)).connection.incoming.contains id = false := by
  obtain ⟨t, -, hf⟩ := h.find? (List.mem_of_getElem? hj) hd
  have hc := Connection.complete_answers hd (Incoming.contains_eq_true_iff.mpr ⟨t, hf⟩) o
  refine ⟨Conversation.own_finish hj hc.1, ?_⟩
  simpa [Conversation.step, hj, absorb] using hc.2

/-- The outcome of an open job answers the request that the job is for, which is no longer served then. -/
theorem Tied.answers {v : Conversation} (h : v.Tied) (hw : v.connection.writable = true) {n : Nat} {j : Job} {id : MessageId}
    (hj : v.jobs[n]? = some j) (hd : j.duty.id? = some id) (o : Outcome) :
    v.own (.finish n o) = [.frame (Reply.ofOutcome id (j.duty.told o))] ∧
      (v.step (.finish n o)).connection.incoming.contains id = false := by
  simpa [Connection.kept, hw] using h.own_finish hj hd o

/-- A payload that asks for no answer gets none. -/
theorem own_of_not_asked {v : Conversation} {payload : Bytes} (ha : Message.asker? payload = none) :
    ∀ item ∈ v.own (.receive payload), item = .close := by
  have hr := Connection.receive_received v.connection payload
  obtain ⟨items, hq, hi⟩ := hr.queued_of_not_asked (by rw [Connection.reads, Message.asked_decode, ha])
  rw [own_receive hq]
  exact hi

/-- The outcome of a job that is for no request is no answer. -/
theorem own_of_no_id {v : Conversation} {n : Nat} {j : Job} (hj : v.jobs[n]? = some j) (hd : j.duty.id? = none) (o : Outcome) :
    ∀ item ∈ v.own (.finish n o), item = .close := by
  obtain ⟨items, hq, hi⟩ := Connection.complete_queued (c := v.connection) hd o
  rw [own_finish hj hq]
  exact hi

/-- One answer for each request, at every point of every run in which nothing is torn down and the writer stays, in five parts.
1. Under each id, the answers queued and what is still served are together the payloads that asked for an answer, those after
   `exit` that could be read left out.
2. A request whose id is in use is turned down with an answer of its own, as a duplicate if it would be served otherwise; what
   is served under the id and its job stay as they are.
3. An open job for a request was begun by a payload of the run that made the request. It is the instance that is being served,
   and whatever its outcome is, this outcome is what the connection queues as the answer under the id, which is free then.
4. No two open jobs are for the same id, and each request being served has one.
5. Neither a payload that asks for no answer nor the outcome of a job that is for no request is answered: a request to close
   is all that may be queued. -/
theorem one_answer_for_each_request (routes : Registry Mode) (catalogue : Catalogue) (ms : List Move)
    (hw : ((start routes catalogue).run ms).connection.writable = true) (hm : Move.teardown ∉ ms) :
    let first := start routes catalogue
    let last := first.run ms
    (∀ id, (first.output ms).countP (Outbound.isAnswerTo id) + last.connection.incoming.count id =
      (first.trace ms).countP fun e => e.1.owes id e.2) ∧
    (∀ payload id method params, last.connection.reads payload = .ok (.request id method params) →
      last.connection.incoming.contains id = true → last.connection.lifecycle ≠ .exited →
      ∃ m, m.isAnswerTo id = true ∧ last.TurnsDown payload m ∧
        (last.connection.lifecycle = .active →
          (method = Connection.shutdownMethod ∨ ∃ target, last.connection.route id method params = .ok target) →
          m = Reply.duplicate id)) ∧
    (∀ n j id, last.jobs[n]? = some j → j.duty.id? = some id →
      first.BegunBy ms id j ∧
      (∃ t, j.token = .request t ∧ last.connection.incoming.entries.find? id = some t) ∧
      ∀ o, last.own (.finish n o) = [.frame (Reply.ofOutcome id (j.duty.told o))] ∧
        (last.step (.finish n o)).connection.incoming.contains id = false) ∧
    ((last.jobs.filterMap (·.duty.id?)).Nodup ∧
      ∀ id, last.connection.incoming.contains id = true → ∃ j ∈ last.jobs, j.duty.id? = some id) ∧
    (∀ payload, Message.asker? payload = none → ∀ item ∈ last.own (.receive payload), item = .close) ∧
    ∀ n j, last.jobs[n]? = some j → j.duty.id? = none → ∀ o, ∀ item ∈ last.own (.finish n o), item = .close := by
  intro first last
  have ht : last.Tied := (Tied.start routes catalogue).run hm
  refine ⟨fun id => ?_, ?_, ?_, ⟨ht.nodup, fun id => ht.exists_job⟩, fun payload => own_of_not_asked, fun n j => own_of_no_id⟩
  · have ha := run_account hw hm id
    have h0 : first.connection.incoming.count id = 0 := rfl
    rw [h0, Nat.zero_add] at ha
    exact ha
  · intro payload id method params hp hc hl
    exact turnsDown_of_contains hw hp hc hl
  · intro n j id hj hd
    have hmem := List.mem_of_getElem? hj
    exact ⟨begunBy_of_mem_jobs hmem hd, ht.find? hmem hd, ht.answers hw hj hd⟩

/-- One method, served in steps. -/
def slowRoutes : Registry Mode := { features := ({} : Table String Mode).insert "slow" .coroutine }

/-- The id `1` is used again while it is in use, and the text `1` beside it; the second of the two jobs ends first. -/
def reusedId : List Move :=
  [.receive (Message.request (.num 1) "slow" .null).encode, .receive (Message.request (.str "1") "slow" .null).encode,
   .receive (Message.request (.num 1) "slow" .null).encode, .receive (Message.request (.num 2) "gone" .null).encode,
   .finish 1 (.ok (.bool true))]

/-- In `reusedId` the id `1` is asked for twice: one request is turned down, the other is still served. -/
theorem one_answer_for_each_request_reusedId :
    ((start slowRoutes {}).run reusedId).connection.writable = true ∧ Move.teardown ∉ reusedId ∧
    ((start slowRoutes {}).output reusedId).countP (Outbound.isAnswerTo (.num 1)) +
        ((start slowRoutes {}).run reusedId).connection.incoming.count (.num 1) =
      ((start slowRoutes {}).trace reusedId).countP (fun e => e.1.owes (.num 1) e.2) ∧
    ((start slowRoutes {}).trace reusedId).countP (fun e => e.1.owes (.num 1) e.2) = 2 :=
  ⟨by decide +kernel, by simp [reusedId],
    (one_answer_for_each_request slowRoutes {} reusedId (by decide +kernel) (by simp [reusedId])).1 (.num 1),
    by decide +kernel⟩

end Conversation

end Parley
