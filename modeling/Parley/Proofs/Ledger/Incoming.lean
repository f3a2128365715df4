import Parley.Ledger.Incoming

/-!
# What the ledger of the peer's requests keeps

What each operation does to the requests being served, and to the tokens. An id is begun only while it is not in use, and it is
in use from then on until it is finished or all are purged; cancelling leaves the requests as they are. A token fires when its
request is cancelled, alone or with others, and stays fired; to begin and to end a request leaves every token as it is.
-/

namespace Parley.Incoming

/-- An id is in use exactly when it has a token. -/
theorem contains_eq_true_iff {l : Incoming} {id : MessageId} : l.contains id = true ↔ ∃ n, l.entries.find? id = some n := by
  rw [contains, Table.contains, Option.isSome_iff_exists]

/-- An id that is in use is not begun again. -/
theorem begin?_eq_none_iff {l : Incoming} {id : MessageId} : l.begin? id = none ↔ l.contains id = true := by
  unfold begin?
  split <;> simp_all

/-- A request begins with the next token, under an id that is not in use. -/
theorem begin?_eq_some {l l' : Incoming} {id : MessageId} {n : Nat} (h : l.begin? id = some (n, l')) :
    l.contains id = false ∧ n = l.tokens ∧
      l' = { l with entries := l.entries.insert id l.tokens, tokens := l.tokens + 1 } := by
  unfold begin? at h
  split at h
  · cases h
  · rename_i hc
    simp only [Option.some.injEq, Prod.mk.injEq] at h
    exact ⟨by simpa using hc, h.1.symm, h.2.symm⟩

/-- The token of an id after a request has begun. -/
theorem find?_begin {l l' : Incoming} {id : MessageId} {n : Nat} (h : l.begin? id = some (n, l')) (i : MessageId) :
    l'.entries.find? i = if i = id then some n else l.entries.find? i := by
  obtain ⟨-, rfl, rfl⟩ := begin?_eq_some h
  exact Table.find?_insert _ _ _ _

/-- The ids in use after a request has begun. -/
theorem contains_begin {l l' : Incoming} {id : MessageId} {n : Nat} (h : l.begin? id = some (n, l')) (i : MessageId) :
    l'.contains i = (decide (i = id) || l.contains i) := by
  rw [contains, Table.contains, find?_begin h]
  by_cases hi : i = id <;> simp [hi, contains, Table.contains]

/-- The token of an id after a request has ended. -/
theorem find?_finish (l : Incoming) (id i : MessageId) :
    (l.finish id).2.entries.find? i = if i = id then none else l.entries.find? i :=
  Table.find?_erase _ _ _

/-- The ids in use after a request has ended. -/
theorem contains_finish (l : Incoming) (id i : MessageId) :
    (l.finish id).2.contains i = (!decide (i = id) && l.contains i) := by
  rw [contains, Table.contains, find?_finish]
  by_cases hi : i = id <;> simp [hi, contains, Table.contains]

/-- Ending what is not served changes nothing. -/
theorem finish_of_not_contains {l : Incoming} {id : MessageId} (h : l.contains id = false) : (l.finish id).2 = l := by
  have hn : l.entries.find? id = none := by simpa [contains, Table.contains] using h
  simp [finish, Table.erase_of_find?_eq_none hn]

@[simp] theorem cancel_entries (l : Incoming) (id : MessageId) : (l.cancel id).2.entries = l.entries := by
  unfold cancel
  split <;> rfl

@[simp] theorem cancelAllExcept_entries (l : Incoming) (id : MessageId) : (l.cancelAllExcept id).2.entries = l.entries := rfl

@[simp] theorem contains_cancel (l : Incoming) (id i : MessageId) : (l.cancel id).2.contains i = l.contains i := by
  simp [contains]

@[simp] theorem contains_cancelAllExcept (l : Incoming) (id i : MessageId) :
    (l.cancelAllExcept id).2.contains i = l.contains i := rfl

@[simp] theorem cancel_tokens (l : Incoming) (id : MessageId) : (l.cancel id).2.tokens = l.tokens := by
  unfold cancel
  split <;> rfl

/-! ## Tokens -/

/-- Every token of a connection that was cancelled has fired. -/
theorem isFired_of_closed {l : Incoming} (h : l.closed = true) (t : Token) : l.isFired t = true := by
  cases t <;> simp [isFired, h]

/-- To begin a request fires nothing. -/
theorem isFired_begin {l l' : Incoming} {id : MessageId} {n : Nat} (h : l.begin? id = some (n, l')) (t : Token) :
    l'.isFired t = l.isFired t := by
  obtain ⟨-, -, rfl⟩ := begin?_eq_some h
  cases t <;> rfl

/-- To end a request fires nothing. -/
@[simp] theorem isFired_finish (l : Incoming) (id : MessageId) (t : Token) : (l.finish id).2.isFired t = l.isFired t := by
  cases t <;> rfl

/-- To cancel a request fires its token and no other. -/
theorem isFired_cancel (l : Incoming) (id : MessageId) (t : Token) :
    (l.cancel id).2.isFired t = true ↔ l.isFired t = true ∨ ∃ n, l.entries.find? id = some n ∧ t = .request n := by
  unfold cancel
  cases hf : l.entries.find? id with
  | none => simp
  | some n => cases t <;> simp [isFired, or_left_comm, or_comm]

/-- To cancel all requests but one fires their tokens and no other. -/
theorem isFired_cancelAllExcept (l : Incoming) (keep : MessageId) (t : Token) :
    (l.cancelAllExcept keep).2.isFired t = true ↔
      l.isFired t = true ∨ ∃ id n, id ≠ keep ∧ l.entries.find? id = some n ∧ t = .request n := by
  have hv (n : Nat) : n ∈ (l.entries.erase keep).values ↔ ∃ id, id ≠ keep ∧ l.entries.find? id = some n := by
    rw [Table.mem_values_iff]
    refine exists_congr fun id => ?_
    rw [Table.find?_erase]
    by_cases hk : id = keep <;> simp [hk]
  cases t with
  | connection => simp [isFired, cancelAllExcept]
  | request n =>
    simp only [isFired, cancelAllExcept, List.contains_append, Bool.or_eq_true, List.contains_iff_mem, hv, Token.request.injEq]
    constructor
    · rintro (hc | ⟨id, hk, hf⟩ | hm)
      · exact .inl (.inl hc)
      · exact .inr ⟨id, n, hk, hf, rfl⟩
      · exact .inl (.inr hm)
    · rintro ((hc | hm) | ⟨id, n', hk, hf, rfl⟩)
      · exact .inl hc
      · exact .inr (.inr hm)
      · exact .inr (.inl ⟨id, hk, hf⟩)

/-- Every request that is being served has been cancelled. -/
def Quiet (l : Incoming) : Prop := ∀ id n, l.entries.find? id = some n → l.isFired (.request n) = true

/-- What is cancelled stays so when a request ends. -/
theorem Quiet.finish {l : Incoming} (h : l.Quiet) (id : MessageId) : (l.finish id).2.Quiet := by
  intro i n hf
  rw [find?_finish] at hf
  split at hf
  · cases hf
  · rw [isFired_finish]
    exact h i n hf

/-- What is cancelled stays so when a request is cancelled. -/
theorem Quiet.cancel {l : Incoming} (h : l.Quiet) (id : MessageId) : (l.cancel id).2.Quiet := by
  intro i n hf
  rw [cancel_entries] at hf
  exact (isFired_cancel l id _).mpr (.inl (h i n hf))

/-- When all requests but one are cancelled and this one ends, those that are left are cancelled. -/
theorem quiet_cancelAllExcept_finish (l : Incoming) (id : MessageId) : ((l.cancelAllExcept id).2.finish id).2.Quiet := by
  intro i n hf
  rw [find?_finish] at hf
  split at hf
  · cases hf
  · rename_i hi
    rw [isFired_finish, isFired_cancelAllExcept]
    exact .inr ⟨i, n, hi, hf, rfl⟩

end Parley.Incoming
