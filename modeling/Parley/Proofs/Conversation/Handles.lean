import Parley.Proofs.Conversation.Basic

/-!
# Handles

What becomes of the requests of our side. A request that waits is settled by the first move that has an outcome for its id
(`Conversation.fate`): the peer's answer, one that cannot be read, a cancellation, a failed send, the teardown. Every move keeps
the ledger sound, so that no handle is answered twice, and no move changes an answer.
-/

namespace Parley

namespace Connection

/-- The request of ours that a decoded payload settles, and its outcome. After `exit` only an answer that cannot be read
settles one. -/
def settlement? (c : Connection) : Except DecodeFault Message → Option (MessageId × PeerReply)
  | .ok (.result id v) => if c.lifecycle = .exited then none else some (id, .ok v)
  | .ok (.error (some id) e) => if c.lifecycle = .exited then none else some (id, .error (.response e))
  | .error (.invalidResponse id m) => some (id, .error (.deserialization (.mismatch m)))
  | _ => none

/-- What is settled is what the payload answers. -/
theorem told_of_settlement? {c : Connection} {d : Except DecodeFault Message} {e : MessageId × PeerReply}
    (h : c.settlement? d = some e) : Message.told d = some e.1 := by
  unfold settlement? at h
  split at h
  · split at h
    · cases h
    · cases h
      rfl
  · split at h
    · cases h
    · cases h
      rfl
  · cases h
    rfl
  · cases h

/-- A payload that answers a request of ours is read as its result, as its error, or as an answer that cannot be read. -/
theorem reads_of_replier? {c : Connection} {payload : Bytes} {id : MessageId} (h : Message.replier? payload = some id) :
    (∃ v, c.reads payload = .ok (.result id v)) ∨ (∃ e, c.reads payload = .ok (.error (some id) e)) ∨
      ∃ m, c.reads payload = .error (.invalidResponse id m) := by
  have ht : Message.told (c.reads payload) = some id := (Message.told_decode _ _ _).trans h
  cases hd : c.reads payload with
  | ok m =>
    rw [hd] at ht
    cases m <;> simp_all [Message.told]
  | error f =>
    rw [hd] at ht
    cases f <;> simp_all [Message.told]

/-- A payload settles the request of ours that it answers, and no other. -/
theorem Received.outgoing {c : Connection} {d : Except DecodeFault Message} {s : Step} (h : Received c d s) :
    s.1.outgoing = c.outgoing.settle (c.settlement? d) := by
  cases h with
  | faulty f => cases f <;> simp [refuse_eq, afterFault, settlement?, Outgoing.settle]
  | ignored m hl =>
    cases m with
    | error id e => cases id <;> simp [settlement?, hl, Outgoing.settle]
    | _ => simp [settlement?, hl, Outgoing.settle]
  | refused h => simp [send_eq, settlement?, Outgoing.settle]
  | closed ha hb hs => simp [completeShutdown_eq, settlement?, Outgoing.settle]
  | cancelled params hl =>
    simp only [receiveCancel, settlement?, Outgoing.settle]
    split <;> rfl
  | left params hl hs => simp [completeExit_eq, settlement?, Outgoing.settle]
  | answered id v hl => simp [receiveReply, resolve, forget, settlement?, Outgoing.settle, hl]
  | failed id e hl => simp [receiveReply, resolve, forget, settlement?, Outgoing.settle, hl]
  | _ => simp [settlement?, Outgoing.settle]

/-- The outcome of a job leaves the requests of ours as they are. -/
theorem complete_outgoing (c : Connection) (j : Job) (o : Outcome) : (c.complete j o).1.outgoing = c.outgoing := by
  unfold complete
  cases j.duty with
  | request id => simp [finish_eq]
  | shutdown id => simp [completeShutdown_eq]
  | exit => simp [completeExit_eq, noteFailure_eq]
  | builtin => simp [noteFailure_eq]
  | notification => simp [noteFailure_eq]

end Connection

namespace Conversation

/-- The outcome that a move has for the request of ours of an id: the peer answers it, well or not, it is cancelled, it cannot
be sent, or everything is released. -/
def fate (v : Conversation) (id : MessageId) : Move → Option PeerReply
  | .receive payload =>
    match v.connection.settlement? (v.connection.reads payload) with
    | some (i, r) => if i = id then some r else none
    | none => none
  | .cancel i => if i = id then some (.error .cancelled) else none
  | .request i _ _ => if i = id ∧ v.connection.isClosed then some (.error .closed) else none
  | .teardown => some (.error .closed)
  | _ => none

/-- The requests of ours after a move. -/
theorem step_outgoing (v : Conversation) (m : Move) :
    (v.step m).connection.outgoing =
      match m with
      | .receive payload => v.connection.outgoing.settle (v.connection.settlement? (v.connection.reads payload))
      | .request id method _ => v.connection.outgoing.sent id method v.connection.writable
      | .cancel id => v.connection.outgoing.settle (some (id, .error .cancelled))
      | .teardown => v.connection.outgoing.closeAll.2
      | _ => v.connection.outgoing := by
  cases m with
  | receive payload => exact (Connection.receive_received v.connection payload).outgoing
  | finish n o =>
    simp only [step]
    split
    · exact Connection.complete_outgoing _ _ _
    · rfl
  | request id method params => simp [step, Connection.requestAs_eq]
  | cancel id => simp [step, Connection.cancelRequest_eq, Outgoing.settle]
  | notify method params => simp [step, Connection.notify, Connection.send_eq]
  | post m => simp [step, Connection.send_eq]
  | report | take | dropWriter => rfl
  | teardown => simp [step, Connection.teardown, Connection.enqueue_eq]

/-- Every move keeps the ledger sound. -/
theorem step_sound {v : Conversation} (h : v.connection.outgoing.Sound) (m : Move) : (v.step m).connection.outgoing.Sound := by
  rw [step_outgoing]
  cases m with
  | receive payload => exact h.settle _
  | request id method params => exact h.sent id method _
  | cancel id => exact h.settle _
  | teardown => exact h.closeAll
  | _ => exact h

/-- A move gives answers, and takes none away. -/
theorem answers_step (v : Conversation) (m : Move) :
    v.connection.outgoing.answers <+: (v.step m).connection.outgoing.answers := by
  rw [step_outgoing]
  cases m with
  | receive payload => exact Outgoing.answers_settle _ _
  | request id method params => exact Outgoing.answers_sent _ _ _ _
  | cancel id => exact Outgoing.answers_settle _ _
  | teardown => exact List.prefix_append _ _
  | _ => exact List.prefix_refl _

/-- A ledger that is closed stays closed. -/
theorem closed_step {v : Conversation} (h : v.connection.outgoing.closed = true) (m : Move) :
    (v.step m).connection.outgoing.closed = true := by
  rw [step_outgoing]
  cases m with
  | receive payload => rwa [Outgoing.closed_settle]
  | request id method params => exact (Outgoing.closed_sent_eq _ _ _ _).trans h
  | cancel id => rwa [Outgoing.closed_settle]
  | teardown => rfl
  | _ => exact h

/-- A move makes a handle if it is a request. -/
theorem handles_step (v : Conversation) (m : Move) :
    (v.step m).connection.outgoing.handles = v.connection.outgoing.handles + m.requestId?.toList.length := by
  rw [step_outgoing]
  cases m with
  | receive payload => exact Outgoing.handles_settle _ _
  | request id method params => exact Outgoing.handles_sent _ _ _ _
  | cancel id => exact Outgoing.handles_settle _ _
  | _ => rfl

/-- What waits under an id is settled by a move that has an outcome for it, and stays otherwise. -/
theorem find?_step {v : Conversation} {m : Move} {id : MessageId} (hm : m.requestId? ≠ some id) :
    (v.step m).connection.outgoing.pending.find? id =
      if (v.fate id m).isSome then none else v.connection.outgoing.pending.find? id := by
  rw [step_outgoing]
  cases m with
  | receive payload =>
    cases hs : v.connection.settlement? (v.connection.reads payload) with
    | none => simp [fate, hs, Outgoing.settle]
    | some e => by_cases hi : id = e.1 <;> simp [fate, hs, hi, eq_comm, Outgoing.settle, Outgoing.find?_resolve]
  | request i method params =>
    have hi : i ≠ id := fun h => hm (by rw [h]; rfl)
    simp [fate, hi, Outgoing.find?_sent_of_ne _ (Ne.symm hi)]
  | cancel i => by_cases hi : id = i <;> simp [fate, hi, eq_comm, Outgoing.settle, Outgoing.find?_resolve]
  | teardown => rfl
  | _ => rfl

/-- What a move settles gets the outcome that the move has for it. -/
theorem mem_answers_step {v : Conversation} {m : Move} {id : MessageId} (hm : m.requestId? ≠ some id) {p : Pending}
    (hp : v.connection.outgoing.pending.find? id = some p) {r : PeerReply} (hf : v.fate id m = some r) :
    (p.handle, .reply r) ∈ (v.step m).connection.outgoing.answers := by
  rw [step_outgoing]
  cases m with
  | receive payload =>
    simp only [fate] at hf
    split at hf
    · rename_i i r' hs
      split at hf
      · rename_i hi
        obtain rfl := Option.some.inj hf
        subst hi
        simp [hs, Outgoing.settle, Outgoing.resolve_eq_of_some hp, Outgoing.give]
      · cases hf
    · cases hf
  | request i method params =>
    have hi : i ≠ id := fun h => hm (by rw [h]; rfl)
    simp [fate, hi] at hf
  | cancel i =>
    simp only [fate] at hf
    split at hf
    · rename_i hi
      obtain rfl := Option.some.inj hf
      subst hi
      simp [Outgoing.settle, Outgoing.resolve_eq_of_some hp, Outgoing.give]
    · cases hf
  | teardown =>
    obtain rfl := Option.some.inj hf
    exact Outgoing.mem_answers_closeAll hp
  | _ => cases hf

/-! ## Runs -/

/-- The handles of requests of ours are sound at every point of a run. -/
theorem run_sound {v : Conversation} (h : v.connection.outgoing.Sound) (ms : List Move) :
    (v.run ms).connection.outgoing.Sound :=
  run_preserves (P := fun w => w.connection.outgoing.Sound) (fun _ m h => step_sound h m) ms v h

/-- A run gives answers, and takes none away. -/
theorem answers_run (v : Conversation) (ms : List Move) :
    v.connection.outgoing.answers <+: (v.run ms).connection.outgoing.answers :=
  run_preserves (P := fun w => v.connection.outgoing.answers <+: w.connection.outgoing.answers)
    (fun w m h => h.trans (answers_step w m)) ms v (List.prefix_refl _)

/-- A connection that was released stays so. -/
theorem closed_run {v : Conversation} (h : v.connection.outgoing.closed = true) (ms : List Move) :
    (v.run ms).connection.outgoing.closed = true :=
  run_preserves (P := fun w => w.connection.outgoing.closed = true) (fun _ m h => closed_step h m) ms v h

/-- A run with a teardown closes the ledger. -/
theorem closed_of_teardown {v : Conversation} {ms : List Move} (h : .teardown ∈ ms) :
    (v.run ms).connection.outgoing.closed = true := by
  obtain ⟨before, after, rfl⟩ := List.append_of_mem h
  rw [run_append, run_cons]
  exact closed_run (by rw [step_outgoing]; rfl) after

/-- A run makes a handle for each of its requests. -/
theorem handles_run (v : Conversation) (ms : List Move) :
    (v.run ms).connection.outgoing.handles = v.connection.outgoing.handles + (Move.requestIds ms).length := by
  induction ms generalizing v with
  | nil => rfl
  | cons m ms ih =>
    rw [run_cons, ih, handles_step]
    cases hm : m.requestId? <;> simp [Move.requestIds, hm]
    omega

/-- The first outcome that a run has for the request of ours of an id. -/
def firstFate (v : Conversation) (id : MessageId) (ms : List Move) : Option PeerReply :=
  (v.trace ms).findSome? fun e => e.1.fate id e.2

/-- The first move that settles a request is the first of the row, or is found behind it. -/
theorem firstFate_cons (v : Conversation) (id : MessageId) (m : Move) (ms : List Move) :
    v.firstFate id (m :: ms) = (v.fate id m).or ((v.step m).firstFate id ms) := by
  rw [firstFate, trace_cons, List.findSome?_cons]
  cases v.fate id m <;> rfl

/-- Where nothing waits under an id, nothing does until a request is made under it. -/
theorem find?_run_of_none {v : Conversation} {ms : List Move} {id : MessageId} (hm : id ∉ Move.requestIds ms)
    (hn : v.connection.outgoing.pending.find? id = none) : (v.run ms).connection.outgoing.pending.find? id = none := by
  induction ms generalizing v with
  | nil => exact hn
  | cons m ms ih =>
    obtain ⟨hid, hms⟩ := Move.not_mem_requestIds_cons hm
    exact ih hms (by rw [find?_step hid, hn, ite_self])

/-- A request that waits is settled by the first outcome that the run has for it, and waits on if there is none. -/
theorem run_settles {v : Conversation} {ms : List Move} {id : MessageId} (hm : id ∉ Move.requestIds ms) {p : Pending}
    (hp : v.connection.outgoing.pending.find? id = some p) :
    match v.firstFate id ms with
    | none => (v.run ms).connection.outgoing.pending.find? id = some p
    | some r =>
      (v.run ms).connection.outgoing.pending.find? id = none ∧
        (p.handle, .reply r) ∈ (v.run ms).connection.outgoing.answers := by
  induction ms generalizing v with
  | nil => exact hp
  | cons m ms ih =>
    obtain ⟨hid, hms⟩ := Move.not_mem_requestIds_cons hm
    have hs := find?_step (v := v) hid
    rw [firstFate_cons, run_cons]
    cases hf : v.fate id m with
    | none =>
      rw [hf] at hs
      exact ih hms (hs.trans hp)
    | some r =>
      rw [hf] at hs
      exact ⟨find?_run_of_none hms hs, (answers_run _ _).subset (mem_answers_step hid hp hf)⟩

/-- A request under a fresh id is settled by the first outcome that the run has for it, which may be that it cannot be sent. -/
theorem request_settles {v : Conversation} {id : MessageId} (hn : v.connection.outgoing.pending.find? id = none)
    (method : String) (params : Json) {ms : List Move} (hm : id ∉ Move.requestIds ms) :
    let last := v.run (.request id method params :: ms)
    match v.firstFate id (.request id method params :: ms) with
    | none => last.connection.outgoing.pending.find? id = some ⟨method, v.connection.outgoing.handles⟩
    | some r =>
      last.connection.outgoing.pending.find? id = none ∧
        (v.connection.outgoing.handles, .reply r) ∈ last.connection.outgoing.answers := by
  have hs := Outgoing.sent_new hn method v.connection.writable
  have ho : (v.step (.request id method params)).connection.outgoing =
    v.connection.outgoing.sent id method v.connection.writable := step_outgoing v _
  have hf : v.fate id (.request id method params) = if v.connection.isClosed then some (.error .closed) else none := by
    simp [fate]
  rw [← ho] at hs
  change if v.connection.isClosed then _ else _ at hs
  rw [firstFate_cons, hf]
  simp only [run_cons]
  cases hc : v.connection.isClosed with
  | true =>
    rw [if_pos hc] at hs
    exact ⟨find?_run_of_none hm hs.1, (answers_run _ _).subset hs.2⟩
  | false =>
    rw [if_neg (by simp [hc])] at hs
    exact run_settles hm hs

/-- An id that stands once among the requests is fresh before and behind its place. -/
theorem fresh_of_nodup {before after : List Move} {id : MessageId} {method : String} {params : Json}
    (h : (Move.requestIds (before ++ .request id method params :: after)).Nodup) :
    id ∉ Move.requestIds before ∧ id ∉ Move.requestIds after := by
  have hr : (Move.request id method params).requestId? = some id := rfl
  rw [Move.requestIds, List.filterMap_append, List.filterMap_cons_some hr, List.nodup_append, List.nodup_cons] at h
  obtain ⟨-, ⟨ha, -⟩, hb⟩ := h
  exact ⟨fun hm => hb id hm id List.mem_cons_self rfl, ha⟩

/-- What comes late for a request, a cancellation or an answer, changes nothing. -/
theorem outgoing_of_late {v : Conversation} {id : MessageId} (hn : v.connection.outgoing.pending.find? id = none) {m : Move}
    (hm : m = .cancel id ∨ ∃ payload, m = .receive payload ∧ Message.replier? payload = some id) :
    (v.step m).connection.outgoing = v.connection.outgoing := by
  rcases hm with rfl | ⟨payload, rfl, hp⟩
  · rw [step_outgoing]
    exact Outgoing.resolve_eq_of_none hn _
  · rw [step_outgoing]
    simp only
    cases hs : v.connection.settlement? (v.connection.reads payload) with
    | none => rfl
    | some e =>
      have ht := Connection.told_of_settlement? hs
      rw [Connection.reads, Message.told_decode, hp] at ht
      obtain rfl := Option.some.inj ht
      exact Outgoing.resolve_eq_of_none hn _

/-- The requests of our side are completed once, in every run whose requests have ids of their own, in five parts.
1. A request gets the next handle. The handle has the first outcome that the run has for the id, from the request on, and no
   answer as long as there is none; the request waits in the ledger exactly as long.
2. When the handle has its answer, no cancellation of the id and no payload that answers it changes anything in the ledger.
3. No handle is answered twice, and the answer of a handle stays whatever comes later.
4. In a ledger that is closed nothing waits, whatever comes later.
5. A payload that carries the id of a request as an answer is read as its result, as its error, or as an answer that cannot
   be read. -/
theorem requests_complete_once (routes : Registry Mode) (catalogue : Catalogue) (ms : List Move)
    (hf : (Move.requestIds ms).Nodup) :
    let first := start routes catalogue
    let last := first.run ms
    (∀ before id method params after, ms = before ++ .request id method params :: after →
      let v := first.run before
      let handle := (v.connection.requestAs id method params).1
      handle = (Move.requestIds before).length ∧
      last.connection.outgoing.answer? handle = (v.firstFate id (.request id method params :: after)).map .reply ∧
      (last.connection.outgoing.pending.find? id =
        if last.connection.outgoing.answer? handle = none then some ⟨method, handle⟩ else none) ∧
      (last.connection.outgoing.answer? handle ≠ none → ∀ m,
        m = .cancel id ∨ (∃ payload, m = .receive payload ∧ Message.replier? payload = some id) →
        (last.step m).connection.outgoing = last.connection.outgoing)) ∧
    (last.connection.outgoing.answered.Nodup ∧ ∀ handle a, last.connection.outgoing.answer? handle = some a →
      ∀ later, (last.run later).connection.outgoing.answer? handle = some a) ∧
    (last.connection.outgoing.closed = true → ∀ later, (last.run later).connection.outgoing.closed = true ∧
      (last.run later).connection.outgoing.pending.entries = []) ∧
    ∀ payload id, Message.replier? payload = some id →
      (∃ value, last.connection.reads payload = .ok (.result id value)) ∨
      (∃ e, last.connection.reads payload = .ok (.error (some id) e)) ∨
      ∃ m, last.connection.reads payload = .error (.invalidResponse id m) := by
  intro first last
  have hs : last.connection.outgoing.Sound := run_sound Outgoing.sound_empty ms
  refine ⟨?_, ⟨hs.nodup, ?_⟩, ?_, fun payload id h => Connection.reads_of_replier? h⟩
  · intro before id method params after he v handle
    have hv : handle = v.connection.outgoing.handles := Connection.requestAs_fst _ _ _ _
    obtain ⟨hb, ha⟩ := fresh_of_nodup (he ▸ hf)
    have hn : v.connection.outgoing.pending.find? id = none := find?_run_of_none hb rfl
    have hl : last = v.run (.request id method params :: after) := by rw [← run_append, ← he]
    have hq := request_settles hn method params ha
    rw [← hl, ← hv] at hq
    refine ⟨by rw [hv, handles_run]; exact Nat.zero_add _, ?_⟩
    cases hr : v.firstFate id (.request id method params :: after) with
    | none =>
      rw [hr] at hq
      have hw : last.connection.outgoing.answer? handle = none := hs.answer?_of_pending hq
      exact ⟨hw, by rw [if_pos hw]; exact hq, fun h => absurd hw h⟩
    | some r =>
      rw [hr] at hq
      have hw : last.connection.outgoing.answer? handle = some (.reply r) := hs.answer?_eq_some_iff.mpr hq.2
      exact ⟨hw, by rw [if_neg (by simp [hw])]; exact hq.1, fun _ m hm => outgoing_of_late hq.1 hm⟩
  · intro handle a ha later
    have hm := (answers_run last later).subset (hs.answer?_eq_some_iff.mp ha)
    exact (run_sound hs later).answer?_eq_some_iff.mpr hm
  · intro hc later
    have hc := closed_run hc later
    exact ⟨hc, by rw [(run_sound hs later).closed hc]; rfl⟩

/-- Two requests: the first is cancelled and answered late, the second is answered before the teardown. -/
def lateAnswer : List Move :=
  [.request (.str "a") "sum" .null, .cancel (.str "a"), .receive (Message.result (.str "a") .null).encode,
   .request (.str "b") "sum" .null, .receive (Message.result (.str "b") (.bool true)).encode, .teardown]

/-- In `lateAnswer` the cancellation settles the first request, and the answer that comes late changes nothing. -/
theorem requests_complete_once_lateAnswer :
    (Move.requestIds lateAnswer).Nodup ∧
    ((start {} {}).run lateAnswer).connection.outgoing.answer? ((start {} {}).connection.requestAs (.str "a") "sum" .null).1 =
      ((start {} {}).firstFate (.str "a") lateAnswer).map .reply ∧
    (start {} {}).firstFate (.str "a") lateAnswer = some (.error .cancelled) :=
  ⟨by decide, ((requests_complete_once {} {} lateAnswer (by decide)).1 [] _ _ _ _ rfl).2.1, rfl⟩

end Conversation

end Parley
