import Parley.Ledger.Outgoing

/-!
# What the ledger of our requests keeps

Each handle made so far is answered or waits, and only one of the two (`Sound`). Every operation keeps this, so a handle gets one
answer at most, and what it got stays. Beside it stands what each operation does to what waits and to the answers.
-/

namespace Parley.Outgoing

/-- The handles that were answered. -/
def answered (l : Outgoing) : List Nat := l.answers.map (·.1)

/-- The handles that wait. -/
def waiting (l : Outgoing) : List Nat := l.pending.values.map (·.handle)

/-- Each handle is answered or waits, and only one of the two; nothing waits in a closed table. -/
structure Sound (l : Outgoing) : Prop where
  handles : (l.answered ++ l.waiting).Perm (List.range l.handles)
  closed : l.closed = true → l.pending = {}

/-! ## The operations -/

/-- An answer that nobody waits for changes nothing. -/
theorem resolve_eq_of_none {l : Outgoing} {id : MessageId} (h : l.pending.find? id = none) (r : PeerReply) :
    (l.resolve id r).2 = l := by
  simp [resolve, h]

/-- An answer is given to the handle that waits for it, which waits no more. -/
theorem resolve_eq_of_some {l : Outgoing} {id : MessageId} {p : Pending} (h : l.pending.find? id = some p) (r : PeerReply) :
    (l.resolve id r).2 = { l.give p.handle (.reply r) with pending := l.pending.erase id } := by
  simp [resolve, h]

@[simp] theorem handles_resolve (l : Outgoing) (id : MessageId) (r : PeerReply) : (l.resolve id r).2.handles = l.handles := by
  unfold resolve
  split <;> rfl

@[simp] theorem closed_resolve (l : Outgoing) (id : MessageId) (r : PeerReply) : (l.resolve id r).2.closed = l.closed := by
  unfold resolve
  split <;> rfl

/-- Answering a request takes no answer away. -/
theorem answers_resolve (l : Outgoing) (id : MessageId) (r : PeerReply) : l.answers <+: (l.resolve id r).2.answers := by
  unfold resolve
  split
  · exact List.prefix_append _ _
  · exact List.prefix_refl _

/-- What waits after a request was answered. -/
theorem find?_resolve (l : Outgoing) (id : MessageId) (r : PeerReply) (i : MessageId) :
    (l.resolve id r).2.pending.find? i = if i = id then none else l.pending.find? i := by
  cases h : l.pending.find? id with
  | none =>
    rw [resolve_eq_of_none h]
    split
    · rename_i hi
      rw [hi, h]
    · rfl
  | some p =>
    rw [resolve_eq_of_some h]
    exact Table.find?_erase _ _ _

/-- A request is registered while the table is open: what was registered under its id is dropped, and its handle is new. -/
theorem register?_eq_some {l l' : Outgoing} {id : MessageId} {method : String} {handle : Nat}
    (h : l.register? id method = some (handle, l')) :
    l.closed = false ∧ handle = l.handles ∧
      l' = { l with
        pending := l.pending.insert id ⟨method, l.handles⟩
        handles := l.handles + 1
        answers := l.answers ++ ((l.pending.find? id).map fun old => (old.handle, Answer.dropped)).toList } := by
  unfold register? at h
  split at h
  · cases h
  · rename_i hc
    simp only [Option.some.injEq, Prod.mk.injEq] at h
    obtain ⟨rfl, rfl⟩ := h
    cases hf : l.pending.find? id <;> simp_all [give]

/-- A table refuses requests exactly when it is closed. -/
theorem register?_eq_none_iff {l : Outgoing} {id : MessageId} {method : String} :
    l.register? id method = none ↔ l.closed = true := by
  unfold register?
  split <;> simp_all

/-- What is there after a request was answered, if one is. -/
def settle (l : Outgoing) : Option (MessageId × PeerReply) → Outgoing
  | some (id, r) => (l.resolve id r).2
  | none => l

@[simp] theorem handles_settle (l : Outgoing) (e : Option (MessageId × PeerReply)) : (l.settle e).handles = l.handles := by
  cases e <;> simp [settle]

@[simp] theorem closed_settle (l : Outgoing) (e : Option (MessageId × PeerReply)) : (l.settle e).closed = l.closed := by
  cases e <;> simp [settle]

/-- Answering a request takes no answer away. -/
theorem answers_settle (l : Outgoing) (e : Option (MessageId × PeerReply)) : l.answers <+: (l.settle e).answers := by
  cases e with
  | none => exact List.prefix_refl _
  | some e => exact answers_resolve l e.1 e.2

/-- What is there after a request was made: it waits if it can be sent, and has failed otherwise. -/
def sent (l : Outgoing) (id : MessageId) (method : String) (writable : Bool) : Outgoing :=
  match l.register? id method with
  | none => (l.settled (.error .closed)).2
  | some (_, l) => if writable then l else (l.resolve id (.error .closed)).2

/-- What waits under the other ids after a request was made. -/
theorem find?_sent_of_ne (l : Outgoing) {id i : MessageId} (hi : i ≠ id) (method : String) (writable : Bool) :
    (l.sent id method writable).pending.find? i = l.pending.find? i := by
  unfold sent
  cases hr : l.register? id method with
  | none => rfl
  | some r =>
    obtain ⟨-, -, hl⟩ := register?_eq_some hr
    have hf : r.2.pending.find? i = l.pending.find? i := by
      rw [hl]
      simp [Table.find?_insert, hi]
    cases writable with
    | true => exact hf
    | false => simpa [find?_resolve, hi] using hf

/-- A new request gets the next handle. It waits, unless it failed from the start. -/
theorem sent_new {l : Outgoing} {id : MessageId} (hn : l.pending.find? id = none) (method : String) (writable : Bool) :
    if l.closed || !writable then
      (l.sent id method writable).pending.find? id = none ∧
        (l.handles, .reply (.error .closed)) ∈ (l.sent id method writable).answers
    else (l.sent id method writable).pending.find? id = some ⟨method, l.handles⟩ := by
  unfold sent
  cases hr : l.register? id method with
  | none =>
    rw [register?_eq_none_iff] at hr
    simp [hr, hn, settled, give]
  | some r =>
    obtain ⟨hc, -, hl⟩ := register?_eq_some hr
    have hf : r.2.pending.find? id = some ⟨method, l.handles⟩ := by
      rw [hl]
      simp [Table.find?_insert]
    cases writable with
    | true => simpa [hc] using hf
    | false => simp [hc, resolve_eq_of_some hf, give, Table.find?_erase]

/-- A request takes no answer away. -/
theorem answers_sent (l : Outgoing) (id : MessageId) (method : String) (writable : Bool) :
    l.answers <+: (l.sent id method writable).answers := by
  unfold sent
  cases hr : l.register? id method with
  | none => exact List.prefix_append _ _
  | some r =>
    obtain ⟨-, -, hl⟩ := register?_eq_some hr
    have ha : l.answers <+: r.2.answers := by
      rw [hl]
      exact List.prefix_append _ _
    cases writable with
    | true => exact ha
    | false => exact ha.trans (answers_resolve _ _ _)

/-- A ledger is closed by a teardown alone. -/
theorem closed_sent_eq (l : Outgoing) (id : MessageId) (method : String) (writable : Bool) :
    (l.sent id method writable).closed = l.closed := by
  unfold sent
  cases hr : l.register? id method with
  | none => rfl
  | some r =>
    obtain ⟨-, -, hl⟩ := register?_eq_some hr
    have hc : r.2.closed = l.closed := by rw [hl]
    cases writable with
    | true => exact hc
    | false => simpa using hc

/-- A request makes one handle. -/
theorem handles_sent (l : Outgoing) (id : MessageId) (method : String) (writable : Bool) :
    (l.sent id method writable).handles = l.handles + 1 := by
  unfold sent
  cases hr : l.register? id method with
  | none => rfl
  | some r =>
    obtain ⟨-, -, hl⟩ := register?_eq_some hr
    have hh : r.2.handles = l.handles + 1 := by rw [hl]
    cases writable with
    | true => exact hh
    | false => simpa using hh

/-- Closing the table fails each request that waits. -/
theorem mem_answers_closeAll {l : Outgoing} {id : MessageId} {p : Pending} (h : l.pending.find? id = some p) :
    (p.handle, .reply (.error .closed)) ∈ l.closeAll.2.answers :=
  List.mem_append_right _ (List.mem_map.mpr ⟨p, Table.mem_values_iff.mpr ⟨id, h⟩, rfl⟩)

/-! ## Handles -/

theorem sound_empty : Sound {} := ⟨.refl _, fun _ => rfl⟩

/-- Giving an answer to a request that waits. -/
theorem Sound.give {l : Outgoing} (h : l.Sound) {id : MessageId} {p : Pending} (hp : l.pending.find? id = some p) (a : Answer) :
    Sound { l.give p.handle a with pending := l.pending.erase id } := by
  refine ⟨?_, fun hc => ?_⟩
  · have hw : l.waiting.Perm (p.handle :: (l.pending.erase id).values.map (·.handle)) := (Table.values_perm_erase hp).map _
    refine List.Perm.trans ?_ h.handles
    simp only [answered, waiting, Outgoing.give, List.map_append, List.map_cons, List.map_nil, List.append_assoc]
    exact hw.symm.append_left _
  · rw [h.closed hc] at hp
    cases hp

/-- Adding a handle that waits, for an id under which none does. -/
theorem Sound.add {l : Outgoing} (h : l.Sound) (hc : l.closed = false) {id : MessageId} (hp : l.pending.find? id = none)
    (method : String) :
    Sound { l with pending := l.pending.insert id ⟨method, l.handles⟩, handles := l.handles + 1 } := by
  refine ⟨?_, fun ho => by rw [hc] at ho; cases ho⟩
  simp only [answered, waiting, Table.insert, Table.values, Table.erase_of_find?_eq_none hp, List.map_append, List.range_succ,
    ← List.append_assoc]
  exact h.handles.append_right _

/-- Answering a request. -/
theorem Sound.resolve {l : Outgoing} (h : l.Sound) (id : MessageId) (r : PeerReply) : (l.resolve id r).2.Sound := by
  cases hp : l.pending.find? id with
  | none => rwa [resolve_eq_of_none hp]
  | some p =>
    rw [resolve_eq_of_some hp]
    exact h.give hp _

/-- Answering a request, if one is answered. -/
theorem Sound.settle {l : Outgoing} (h : l.Sound) (e : Option (MessageId × PeerReply)) : (l.settle e).Sound := by
  cases e with
  | none => exact h
  | some e => exact h.resolve e.1 e.2

/-- Registering a request. -/
theorem Sound.register {l l' : Outgoing} (h : l.Sound) {id : MessageId} {method : String} {handle : Nat}
    (hr : l.register? id method = some (handle, l')) : l'.Sound := by
  obtain ⟨hc, -, rfl⟩ := register?_eq_some hr
  cases hp : l.pending.find? id with
  | none => simpa [hp] using h.add hc hp method
  | some old =>
    have hn : (l.pending.erase id).find? id = none := by simp [Table.find?_erase]
    simpa [Outgoing.give] using (h.give hp .dropped).add hc hn method

/-- Making a handle that is answered from the start. -/
theorem Sound.settled {l : Outgoing} (h : l.Sound) (r : PeerReply) : (l.settled r).2.Sound := by
  refine ⟨?_, h.closed⟩
  simp only [Outgoing.settled, answered, waiting, Outgoing.give, List.map_append, List.map_cons, List.map_nil, List.range_succ,
    List.append_assoc]
  have hc : ([l.handles] ++ l.waiting).Perm (l.waiting ++ [l.handles]) := List.perm_append_comm
  have hw := hc.append_left l.answered
  rw [← List.append_assoc l.answered l.waiting] at hw
  exact hw.trans (h.handles.append_right _)

/-- Making a request. -/
theorem Sound.sent {l : Outgoing} (h : l.Sound) (id : MessageId) (method : String) (writable : Bool) :
    (l.sent id method writable).Sound := by
  unfold Outgoing.sent
  cases hr : l.register? id method with
  | none => exact h.settled _
  | some r =>
    cases writable with
    | true => exact h.register hr
    | false => exact (h.register hr).resolve id _

/-- Closing the table. -/
theorem Sound.closeAll {l : Outgoing} (h : l.Sound) : l.closeAll.2.Sound := by
  refine ⟨?_, fun _ => rfl⟩
  have hh := h.handles
  simpa [Outgoing.closeAll, answered, waiting, Table.values, Function.comp_def] using hh

/-- A handle has one answer at most. -/
theorem Sound.nodup {l : Outgoing} (h : l.Sound) : l.answered.Nodup :=
  (List.nodup_append.mp (h.handles.nodup_iff.mpr List.nodup_range)).1

/-- The answer of a handle is the one that was given to it. -/
theorem Sound.answer?_eq_some_iff {l : Outgoing} (h : l.Sound) {handle : Nat} {a : Answer} :
    l.answer? handle = some a ↔ (handle, a) ∈ l.answers :=
  (Table.mem_entries_iff (t := ⟨l.answers, h.nodup⟩)).symm

/-- A handle that waits has no answer. -/
theorem Sound.answer?_of_pending {l : Outgoing} (h : l.Sound) {id : MessageId} {p : Pending}
    (hp : l.pending.find? id = some p) : l.answer? p.handle = none := by
  refine Option.eq_none_iff_forall_ne_some.mpr fun a ha => ?_
  have hn := (List.nodup_append.mp (h.handles.nodup_iff.mpr List.nodup_range)).2.2
  have hm : p.handle ∈ l.answered := List.mem_map.mpr ⟨_, h.answer?_eq_some_iff.mp ha, rfl⟩
  have hw : p.handle ∈ l.waiting := List.mem_map.mpr ⟨p, Table.mem_values_iff.mpr ⟨id, hp⟩, rfl⟩
  exact hn _ hm _ hw rfl

end Parley.Outgoing
