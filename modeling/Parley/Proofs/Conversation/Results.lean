import Parley.Proofs.Conversation.Gate
import Parley.Proofs.Message.Envelope

/-!
# The shapes of results

The shape that the result of a request of ours must have is remembered beside the ledger, in a table of its own, and both tables
change with every request, cancellation and answer. They stay in step (`Connection.InStep`): what is remembered is the shape of a
request that waits, and until `exit` the shape of each request that waits is remembered. After `exit` an answer uses up its shape
although its request waits on, so only the first half holds from there. With it, no result is handed on unchecked
(`results_in_step`).
-/

namespace Parley

namespace Connection

/-- The shape that the result of a request of ours must have, by the method that the request waits with. -/
def declared? (c : Connection) (id : MessageId) : Option Shape :=
  (c.outgoing.pending.find? id).bind fun p => c.catalogue.result? p.method

/-- What is remembered of results agrees with the requests that wait. -/
structure InStep (c : Connection) : Prop where
  /-- What is remembered belongs to a request that waits. -/
  within : ∀ id shape, c.expected.find? id = some shape → c.declared? id = some shape
  /-- Until `exit`, what belongs to a request that waits is remembered. -/
  full : c.lifecycle ≠ .exited → ∀ id, c.expected.find? id = c.declared? id

/-- Where nothing waits, nothing is remembered. -/
theorem InStep.find?_eq_none {c : Connection} (h : c.InStep) {id : MessageId} (hp : c.outgoing.pending.find? id = none) :
    c.expected.find? id = none := by
  cases he : c.expected.find? id with
  | none => rfl
  | some shape =>
    have hd := h.within id shape he
    simp [declared?, hp] at hd

/-- An operation keeps the tables in step if, for each id, it changes neither, or leaves what is declared, or forgets after `exit`. -/
theorem InStep.update {c c' : Connection} (h : c.InStep) (hc : c'.catalogue = c.catalogue)
    (hl : c.lifecycle = .exited → c'.lifecycle = .exited)
    (hi : ∀ id, (c'.expected.find? id = c.expected.find? id ∧ c'.outgoing.pending.find? id = c.outgoing.pending.find? id) ∨
      c'.expected.find? id = c'.declared? id ∨ (c'.lifecycle = .exited ∧ c'.expected.find? id = none)) : c'.InStep := by
  have hd : ∀ id, c'.outgoing.pending.find? id = c.outgoing.pending.find? id → c'.declared? id = c.declared? id := by
    intro id hp
    rw [declared?, declared?, hp, hc]
  constructor
  · intro id shape he
    rcases hi id with ⟨hs, hp⟩ | hs | ⟨-, hs⟩
    · rw [hd id hp]
      exact h.within id shape (hs ▸ he)
    · exact hs ▸ he
    · rw [hs] at he
      cases he
  · intro hn id
    rcases hi id with ⟨hs, hp⟩ | hs | ⟨hx, -⟩
    · rw [hd id hp, hs]
      exact h.full (fun hx => hn (hl hx)) id
    · exact hs
    · exact absurd hx hn

/-- What comes of a payload that was read forgets nothing that was not forgotten with the reading. -/
theorem Received.expected {c : Connection} {d : Except DecodeFault Message} {s : Step} (h : Received c d s)
    (hd : ∀ id, Message.told d = some id → c.expected.find? id = none) : s.1.expected = c.expected := by
  cases h with
  | faulty f => simp [refuse_eq]
  | refused h => simp [send_eq]
  | closed ha hb hs => simp [completeShutdown_eq]
  | cancelled params hl =>
    simp only [receiveCancel]
    split <;> rfl
  | left params hl hs => simp [completeExit_eq]
  | answered id v hl => exact Table.erase_of_find?_eq_none (hd id rfl)
  | failed id e hl => exact Table.erase_of_find?_eq_none (hd id rfl)
  | _ => rfl

/-- A payload forgets what was remembered for the request that it answers, and nothing else. -/
theorem find?_expected_receive (c : Connection) (payload : Bytes) (id : MessageId) :
    (c.receive payload).1.expected.find? id = if Message.replier? payload = some id then none else c.expected.find? id := by
  have ho : ∀ i, (c.opened payload).expected.find? i = if Message.replier? payload = some i then none else c.expected.find? i := by
    intro i
    rw [opened, Message.expected_decode]
    cases Message.replier? payload with
    | none => simp
    | some id => simp [Table.find?_erase, eq_comm]
  rw [(receive_received c payload).expected fun i hi => ?_, ho]
  rw [reads, Message.told_decode] at hi
  rw [ho, if_pos hi]

/-- The outcome of a job forgets nothing. -/
theorem complete_expected (c : Connection) (j : Job) (o : Outcome) : (c.complete j o).1.expected = c.expected := by
  unfold complete
  cases j.duty with
  | request id => simp [finish_eq]
  | shutdown id => simp [completeShutdown_eq]
  | exit => simp [completeExit_eq, noteFailure_eq]
  | builtin => simp [noteFailure_eq]
  | notification => simp [noteFailure_eq]

/-- Until `exit`, what answers a request of ours settles it. -/
theorem settlement?_of_told {c : Connection} (hl : c.lifecycle ≠ .exited) {d : Except DecodeFault Message} {id : MessageId}
    (h : Message.told d = some id) : ∃ r, c.settlement? d = some (id, r) := by
  unfold Message.told at h
  split at h
  · cases h
    exact ⟨_, if_neg hl⟩
  · cases h
    exact ⟨_, if_neg hl⟩
  · cases h
    exact ⟨_, rfl⟩
  · cases h

/-- What is settled well was read as a result. -/
theorem eq_result_of_settlement? {c : Connection} {d : Except DecodeFault Message} {id : MessageId} {value : Json}
    (h : c.settlement? d = some (id, .ok value)) : c.lifecycle ≠ .exited ∧ d = .ok (.result id value) := by
  unfold settlement? at h
  split at h
  · split at h
    · cases h
    · rename_i hl
      cases h
      exact ⟨hl, rfl⟩
  · split at h <;> cases h
  · cases h
  · cases h

/-- A payload keeps the tables in step. -/
theorem InStep.receive {c : Connection} (h : c.InStep) (payload : Bytes) (hl : c.lifecycle = .exited →
    (c.receive payload).1.lifecycle = .exited) : (c.receive payload).1.InStep := by
  have ho : (c.receive payload).1.outgoing = c.outgoing.settle (c.settlement? (c.reads payload)) :=
    (receive_received c payload).outgoing
  have ht : Message.told (c.reads payload) = Message.replier? payload := Message.told_decode _ _ _
  refine h.update (receive_sameSetup c payload).catalogue hl fun id => ?_
  rw [find?_expected_receive]
  by_cases hr : Message.replier? payload = some id
  · rw [if_pos hr]
    by_cases hx : c.lifecycle = .exited
    · exact .inr (.inr ⟨hl hx, rfl⟩)
    · obtain ⟨r, hs⟩ := settlement?_of_told hx (ht.trans hr)
      refine .inr (.inl ?_)
      simp [declared?, ho, hs, Outgoing.settle, Outgoing.find?_resolve]
  · rw [if_neg hr, ho]
    refine .inl ⟨rfl, ?_⟩
    cases hs : c.settlement? (c.reads payload) with
    | none => rfl
    | some e =>
      have hi : id ≠ e.1 := fun hi => hr (hi ▸ ht ▸ told_of_settlement? hs)
      simp [Outgoing.settle, Outgoing.find?_resolve, hi]

/-- A request under a fresh id keeps the tables in step, whether or not it is sent. -/
theorem InStep.requestAs {c : Connection} (h : c.InStep) {id : MessageId} (hn : c.outgoing.pending.find? id = none)
    (method : String) (params : Json) : (c.requestAs id method params).2.InStep := by
  have he := h.find?_eq_none hn
  have hs := Outgoing.sent_new hn method c.writable
  rw [requestAs_eq]
  refine h.update rfl (fun hx => hx) fun i => ?_
  by_cases hi : i = id
  · subst hi
    refine .inr (.inl ?_)
    cases hr : c.outgoing.register? i method with
    | none =>
      have hc := Outgoing.register?_eq_none_iff.mp hr
      rw [hc] at hs
      simp only [Bool.true_or, if_true] at hs
      simp [declared?, hs.1, he]
    | some r =>
      have hc := (Outgoing.register?_eq_some hr).1
      cases hw : c.writable with
      | true =>
        simp only [hc, hw, Bool.not_true, Bool.or_self, Bool.false_eq_true, if_false] at hs
        cases hm : c.catalogue.result? method <;> simp [declared?, hs, expect_eq, hm, he, Table.find?_insert]
      | false =>
        simp only [hc, hw, Bool.not_false, Bool.or_true, if_true] at hs
        simp [declared?, hs.1, Table.find?_erase]
  · refine .inl ⟨?_, Outgoing.find?_sent_of_ne _ hi _ _⟩
    cases hr : c.outgoing.register? id method with
    | none => rfl
    | some r =>
      cases hw : c.writable <;> cases hm : c.catalogue.result? method <;>
        simp [expect_eq, hm, Table.find?_insert, Table.find?_erase, hi]

end Connection

namespace Conversation

open Connection (InStep)

/-- A connection that has left stays so. -/
theorem exited_step {v : Conversation} (h : v.connection.lifecycle = .exited) (m : Move) :
    (v.step m).connection.lifecycle = .exited := by
  have hr := rank_le_step v m
  rw [h] at hr
  cases hl : (v.step m).connection.lifecycle with
  | exited => rfl
  | active | shuttingDown =>
    rw [hl] at hr
    exact absurd hr (by decide)

/-- Every move whose request, if it makes one, has a fresh id keeps the tables in step. -/
theorem inStep_step {v : Conversation} (h : v.connection.InStep) {m : Move}
    (hf : ∀ id, m.requestId? = some id → v.connection.outgoing.pending.find? id = none) : (v.step m).connection.InStep := by
  have hl := fun hx => exited_step (v := v) hx m
  cases m with
  | receive payload => exact h.receive payload hl
  | finish n o =>
    simp only [step]
    split
    · rename_i j hj
      refine h.update (Connection.complete_sameSetup _ _ _).catalogue ?_ fun id => .inl ⟨?_, ?_⟩
      · simpa only [step, hj] using hl
      · exact congrArg (Table.find? · id) (Connection.complete_expected _ _ _)
      · exact congrArg (·.pending.find? id) (Connection.complete_outgoing _ _ _)
    · exact h
  | request id method params =>
    have hm : { v.connection with minted := v.connection.minted + 1 }.InStep :=
      h.update rfl (fun hx => hx) fun _ => .inl ⟨rfl, rfl⟩
    exact hm.requestAs (hf id rfl) method params
  | cancel id =>
    simp only [step, Connection.cancelRequest_eq]
    refine h.update rfl (fun hx => hx) fun i => ?_
    -- The id goes from both tables.
    by_cases hi : i = id
    · exact .inr (.inl (by simp [Connection.declared?, Outgoing.find?_resolve, Table.find?_erase, hi]))
    · exact .inl (by simp [Outgoing.find?_resolve, Table.find?_erase, hi])
  | notify method params =>
    simp only [step, Connection.notify, Connection.send_eq]
    exact h.update rfl (fun hx => hx) fun _ => .inl ⟨rfl, rfl⟩
  | post m =>
    simp only [step, Connection.send_eq]
    exact h.update rfl (fun hx => hx) fun _ => .inl ⟨rfl, rfl⟩
  | report | take | dropWriter => exact h.update rfl (fun hx => hx) fun _ => .inl ⟨rfl, rfl⟩
  | teardown =>
    simp only [step, Connection.teardown, Connection.enqueue_eq]
    exact h.update rfl (fun hx => hx) fun _ => .inr (.inl rfl)

/-- A run whose requests have ids of their own, none of which waits yet, keeps the tables in step. -/
theorem inStep_run {v : Conversation} (h : v.connection.InStep) {ms : List Move} (hn : (Move.requestIds ms).Nodup)
    (hf : ∀ id ∈ Move.requestIds ms, v.connection.outgoing.pending.find? id = none) : (v.run ms).connection.InStep := by
  induction ms generalizing v with
  | nil => exact h
  | cons m ms ih =>
    have hm : (Move.requestIds (m :: ms)) = m.requestId?.toList ++ Move.requestIds ms := by
      cases hr : m.requestId? <;> simp [Move.requestIds, hr]
    rw [hm] at hn hf
    obtain ⟨-, hn, hd⟩ := List.nodup_append.mp hn
    refine ih (inStep_step h fun id hr => hf id (by simp [hr])) hn fun id hi => ?_
    have hne : m.requestId? ≠ some id := fun hr => hd id (by simp [hr]) id hi rfl
    rw [find?_step hne, hf id (List.mem_append_right _ hi), ite_self]

/-- Before the first move nothing waits and nothing is remembered. -/
theorem inStep_start (routes : Registry Mode) (catalogue : Catalogue) : (start routes catalogue).connection.InStep :=
  ⟨fun _ _ h => (nomatch h), fun _ _ => rfl⟩

/-- The first outcome of a request is an outcome of one of the moves, and there is none before it. -/
theorem firstFate_eq_some {v : Conversation} {id : MessageId} {ms : List Move} {r : PeerReply}
    (h : v.firstFate id ms = some r) :
    ∃ before m after, ms = before ++ m :: after ∧ v.firstFate id before = none ∧ (v.run before).fate id m = some r := by
  induction ms generalizing v with
  | nil => cases h
  | cons m ms ih =>
    rw [firstFate_cons] at h
    cases hf : v.fate id m with
    | some r' =>
      rw [hf] at h
      cases h
      exact ⟨[], m, ms, rfl, rfl, hf⟩
    | none =>
      rw [hf] at h
      obtain ⟨before, m', after, rfl, hb, hm⟩ := ih h
      exact ⟨m :: before, m', after, rfl, by rw [firstFate_cons, hf]; exact hb, hm⟩

/-- A move that settles a request well is a payload that was read as its result, before `exit`. -/
theorem fate_eq_ok {v : Conversation} {id : MessageId} {m : Move} {value : Json} (h : v.fate id m = some (.ok value)) :
    v.connection.lifecycle ≠ .exited ∧ ∃ payload, m = .receive payload ∧ v.connection.reads payload = .ok (.result id value) := by
  cases m with
  | receive payload =>
    simp only [fate] at h
    split at h
    · rename_i i r hs
      split at h
      · rename_i hi
        cases h
        subst hi
        obtain ⟨hl, hd⟩ := Connection.eq_result_of_settlement? hs
        exact ⟨hl, payload, rfl, hd⟩
      · cases h
    · cases h
  | request i method params =>
    simp only [fate] at h
    split at h <;> cases h
  | cancel i =>
    simp only [fate] at h
    split at h <;> cases h
  | teardown => cases h
  | _ => cases h

/-- A request that is answered with a value waits until a payload is read as its result, which happens before `exit`. -/
theorem reads_of_answer {v : Conversation} (hs : v.connection.outgoing.Sound) {id : MessageId}
    (hn : v.connection.outgoing.pending.find? id = none) {method : String} {params : Json} {ms : List Move}
    (hm : id ∉ Move.requestIds ms) {value : Json}
    (ha : (v.run (.request id method params :: ms)).connection.outgoing.answer? v.connection.outgoing.handles =
      some (.reply (.ok value))) :
    ∃ before payload after, ms = before ++ .receive payload :: after ∧
      let w := v.run (.request id method params :: before)
      w.connection.lifecycle ≠ .exited ∧
        w.connection.outgoing.pending.find? id = some ⟨method, v.connection.outgoing.handles⟩ ∧
        w.connection.reads payload = .ok (.result id value) := by
  have hl := run_sound hs (.request id method params :: ms)
  have hq := request_settles hn method params hm
  cases hr : v.firstFate id (.request id method params :: ms) with
  | none =>
    rw [hr] at hq
    have hw := hl.answer?_of_pending hq
    rw [hw] at ha
    cases ha
  | some r =>
    rw [hr] at hq
    have hw := hl.answer?_eq_some_iff.mpr hq.2
    rw [hw] at ha
    cases ha
    obtain ⟨before, m, after, he, hb, hf⟩ := firstFate_eq_some hr
    obtain ⟨hx, payload, rfl, hd⟩ := fate_eq_ok hf
    cases before with
    | nil => cases he
    | cons m before =>
      obtain ⟨rfl, ht⟩ := List.cons.inj he
      have ht : ms = before ++ .receive payload :: after := ht
      have hi : id ∉ Move.requestIds before := fun hi =>
        hm (by rw [ht, Move.requestIds_append]; exact List.mem_append_left _ hi)
      have hp := request_settles hn method params hi
      rw [hb] at hp
      exact ⟨before, payload, after, ht, hx, hp, hd⟩

/-- An id that was used before a point is not used behind it. -/
theorem not_mem_of_nodup {before after : List Move} {m : Move} {id : MessageId}
    (h : (Move.requestIds (before ++ m :: after)).Nodup) (hb : id ∈ Move.requestIds before) : id ∉ Move.requestIds after := by
  rw [Move.requestIds_append] at h
  intro ha
  obtain ⟨m', hm, hi⟩ := List.mem_filterMap.mp ha
  have hc : id ∈ Move.requestIds (m :: after) := List.mem_filterMap.mpr ⟨m', List.mem_cons_of_mem m hm, hi⟩
  exact (List.nodup_append.mp h).2.2 id hb id hc rfl

/-- The results of our requests are checked, in every run whose requests have ids of their own, in four parts.
1. Until `exit` a shape is remembered for an id exactly if a request waits under it whose method has a result of that shape.
2. In every state, what is remembered belongs to a request that waits: no shape outlives its request.
3. When a request is answered with a value, the value is valid for the result of its method.
4. A payload that answers a request which was cancelled is read as if nothing were expected: it is held against no shape.
-/
theorem results_in_step (routes : Registry Mode) (catalogue : Catalogue) (ms : List Move)
    (hf : (Move.requestIds ms).Nodup) :
    let first := start routes catalogue
    let last := first.run ms
    (last.connection.lifecycle ≠ .exited → ∀ id shape, last.connection.expected.find? id = some shape ↔
      ∃ p, last.connection.outgoing.pending.find? id = some p ∧ catalogue.result? p.method = some shape) ∧
    (∀ id shape, last.connection.expected.find? id = some shape →
      ∃ p, last.connection.outgoing.pending.find? id = some p ∧ catalogue.result? p.method = some shape) ∧
    (∀ before id method params after, ms = before ++ .request id method params :: after → ∀ value,
      last.connection.outgoing.answer? ((first.run before).connection.requestAs id method params).1 = some (.reply (.ok value)) →
      Message.Valid (catalogue.result? method) value) ∧
    ∀ before id after, ms = before ++ .cancel id :: after → id ∈ Move.requestIds before →
      ∀ payload, Message.replier? payload = some id →
        last.connection.reads payload = (Message.decode catalogue {} payload).1 := by
  intro first last
  have hi : ∀ ms, (Move.requestIds ms).Nodup → (first.run ms).connection.InStep := fun ms hn =>
    inStep_run (inStep_start routes catalogue) hn fun _ _ => rfl
  have hc : last.connection.catalogue = catalogue := catalogue_run first ms
  have hd : ∀ id shape, last.connection.declared? id = some shape ↔
      ∃ p, last.connection.outgoing.pending.find? id = some p ∧ catalogue.result? p.method = some shape := by
    intro id shape
    rw [Connection.declared?, hc, Option.bind_eq_some_iff]
  refine ⟨?_, ?_, ?_, ?_⟩
  · intro hl id shape
    rw [(hi ms hf).full hl, hd]
  · intro id shape he
    exact (hd id shape).mp ((hi ms hf).within id shape he)
  · intro before id method params after he value ha
    subst he
    obtain ⟨hb, hm⟩ := fresh_of_nodup hf
    have hn : (first.run before).connection.outgoing.pending.find? id = none := find?_run_of_none hb rfl
    rw [Connection.requestAs_fst] at ha
    simp only [last, run_append] at ha
    obtain ⟨middle, payload, rest, rfl, hx, hp, hr⟩ := reads_of_answer (run_sound Outgoing.sound_empty before) hn hm ha
    rw [← run_append] at hx hp hr
    -- the tables are in step where the payload is read, so the shape it is held against is that of the method
    have hk : (Move.requestIds (before ++ .request id method params :: middle)).Nodup := by
      rw [← List.cons_append, ← List.append_assoc, Move.requestIds_append] at hf
      exact (List.nodup_append.mp hf).1
    have hs := (hi _ hk).full hx id
    rw [Connection.declared?, hp, catalogue_run, Option.bind_some] at hs
    change _ = catalogue.result? method at hs
    obtain ⟨fields, -, hv⟩ := Message.decode_eq_ok_iff.mp hr
    cases hv with
    | result _ _ _ _ _ hv => exact hs ▸ hv
  · intro before id after he hm payload hp
    subst he
    have hn : last.connection.outgoing.pending.find? id = none := by
      simp only [last, run_append, run_cons]
      refine find?_run_of_none (not_mem_of_nodup hf hm) ?_
      rw [find?_step (by simp [Move.requestId?])]
      simp [fate]
    rw [Connection.reads, hc]
    refine Message.decode_fst_congr fun i hr => ?_
    obtain rfl := Option.some.inj (hp.symm.trans hr)
    rw [(hi _ hf).find?_eq_none hn]
    rfl

/-- A catalogue that knows one request, whose result is a whole number. -/
def sums : Catalogue := { requests := [("sum", ⟨.any, Shape.i64⟩)] }

/-- Three requests: the first is answered with a text, the second is cancelled and answered late with a truth value, and the third
is answered with a number. -/
def threeSums : List Move :=
  [.request (.str "a") "sum" .null, .receive (Message.result (.str "a") (.str "six")).encode,
   .request (.str "b") "sum" .null, .cancel (.str "b"), .receive (Message.result (.str "b") (.bool true)).encode,
   .request (.str "c") "sum" .null, .receive (Message.result (.str "c") (.int 6)).encode]

/-- In `threeSums` the text is refused as the result of the first request, the truth value is read although it is no number, and
the number, which the third request is answered with, is valid. -/
theorem results_in_step_threeSums :
    let last := (start {} sums).run threeSums
    (Move.requestIds threeSums).Nodup ∧
    (∃ m, last.connection.outgoing.answer? 0 = some (.reply (.error (.deserialization m)))) ∧
    last.connection.reads (Message.result (.str "b") (.bool true)).encode = .ok (.result (.str "b") (.bool true)) ∧
    last.connection.outgoing.answer? 2 = some (.reply (.ok (.int 6))) ∧
    Message.Valid (sums.result? "sum") (.int 6) := by
  have hn : (Move.requestIds threeSums).Nodup := by decide
  obtain ⟨-, -, hv, hl⟩ := results_in_step {} sums threeSums hn
  refine ⟨hn, ⟨_, rfl⟩, ?_, rfl, ?_⟩
  · exact (hl (threeSums.take 3) (.str "b") (threeSums.drop 4) rfl (by decide) _ rfl).trans rfl
  · exact hv (threeSums.take 5) (.str "c") "sum" .null (threeSums.drop 6) rfl (.int 6) rfl

end Conversation

end Parley
