/-!
# Tables

A table maps keys to values. It is a list of entries in which a key stands once: `insert` takes the old entry of its key away
and puts the new one at the end. `find?_insert` and `find?_erase` say what the operations do to what is found, and
`mem_entries_iff` that the entries are what is found.
-/

namespace Parley

/-- A finite map, its entries in the order of their last insertion. -/
structure Table (κ ν : Type) where
  entries : List (κ × ν)
  /-- No key stands twice. -/
  nodup : (entries.map (·.1)).Nodup
  deriving Repr

namespace Table

variable {κ ν μ : Type} [DecidableEq κ]

omit [DecidableEq κ] in
/-- The table without entries. -/
def empty : Table κ ν := ⟨[], .nil⟩

instance : EmptyCollection (Table κ ν) := ⟨empty⟩

/-- The value of a key. -/
def find? (t : Table κ ν) (k : κ) : Option ν :=
  (t.entries.find? fun e => e.1 = k).map (·.2)

/-- A key has a value. -/
def contains (t : Table κ ν) (k : κ) : Bool := (t.find? k).isSome

/-- The table without a key. -/
def erase (t : Table κ ν) (k : κ) : Table κ ν :=
  ⟨t.entries.filter fun e => e.1 ≠ k, t.nodup.sublist (List.filter_sublist.map _)⟩

/-- What was erased is gone. -/
theorem not_mem_keys_erase (t : Table κ ν) (k : κ) : k ∉ (t.erase k).entries.map (·.1) := by
  simp [erase]

/-- The table with a value for a key. -/
def insert (t : Table κ ν) (k : κ) (v : ν) : Table κ ν :=
  ⟨(t.erase k).entries ++ [(k, v)], by
    rw [List.map_append, List.nodup_append]
    refine ⟨(t.erase k).nodup, by simp, fun a ha b hb hab => ?_⟩
    have hk : a = k := by simpa using hab.trans (by simpa using hb)
    exact not_mem_keys_erase t k (hk ▸ ha)⟩

/-- The table with entries put into it, those apart whose keys have a value. -/
def addMissing (t : Table κ ν) : List (κ × ν) → Table κ ν
  | [] => t
  | e :: es => (if t.contains e.1 then t else t.insert e.1 e.2).addMissing es

omit [DecidableEq κ] in
/-- The keys. -/
def keys (t : Table κ ν) : List κ := t.entries.map (·.1)

omit [DecidableEq κ] in
/-- The values. -/
def values (t : Table κ ν) : List ν := t.entries.map (·.2)

omit [DecidableEq κ] in
/-- The number of entries. -/
def size (t : Table κ ν) : Nat := t.entries.length

omit [DecidableEq κ] in
/-- The table with a function applied to every value. -/
def map (f : ν → μ) (t : Table κ ν) : Table κ μ :=
  ⟨t.entries.map fun e => (e.1, f e.2), by simpa [Function.comp_def] using t.nodup⟩

omit [DecidableEq κ] in
@[simp] theorem entries_empty : ({} : Table κ ν).entries = [] := rfl

@[simp] theorem find?_empty (k : κ) : ({} : Table κ ν).find? k = none := rfl

/-- What is found where something was erased. -/
theorem find?_erase (t : Table κ ν) (k l : κ) :
    (t.erase k).find? l = if l = k then none else t.find? l := by
  simp only [find?, erase]
  generalize t.entries = es
  induction es with
  | nil => simp
  | cons e es ih => by_cases h : e.1 = k <;> by_cases hl : e.1 = l <;> by_cases hk : l = k <;> simp_all

/-- What is found where something was inserted. -/
theorem find?_insert (t : Table κ ν) (k l : κ) (v : ν) :
    (t.insert k v).find? l = if l = k then some v else t.find? l := by
  have h := find?_erase t k l
  simp only [find?, insert, List.find?_append] at h ⊢
  by_cases hl : l = k
  · subst hl
    rw [if_pos rfl] at h ⊢
    have : List.find? (fun e => decide (e.1 = l)) (t.erase l).entries = none := by simpa using h
    simp [this]
  · have hk : ¬ k = l := fun e => hl e.symm
    rw [if_neg hl] at h ⊢
    simp [hk, h]

/-- What is found once entries were put in is one of them or was there before. -/
theorem mem_or_of_find?_addMissing {t : Table κ ν} {es : List (κ × ν)} {k : κ} {v : ν}
    (h : (t.addMissing es).find? k = some v) : (k, v) ∈ es ∨ t.find? k = some v := by
  induction es generalizing t with
  | nil => exact .inr h
  | cons e es ih =>
    rcases ih h with hm | hm
    · exact .inl (List.mem_cons_of_mem _ hm)
    · split at hm
      · exact .inr hm
      · rw [find?_insert] at hm
        split at hm
        · rename_i hk
          obtain rfl := Option.some.inj hm
          exact .inl (hk ▸ List.mem_cons_self)
        · exact .inr hm

/-- What is found in a table that was mapped. -/
theorem find?_map (t : Table κ ν) (f : ν → μ) (k : κ) : (t.map f).find? k = (t.find? k).map f := by
  simp only [find?, map, List.find?_map, Option.map_map]
  rfl

/-- Erasing a key that is not there changes nothing. -/
theorem erase_of_find?_eq_none {t : Table κ ν} {k : κ} (h : t.find? k = none) : t.erase k = t := by
  obtain ⟨es, hn⟩ := t
  have hk : es.filter (fun e => e.1 ≠ k) = es := by
    rw [List.filter_eq_self]
    intro e he
    simp only [find?, Option.map_eq_none_iff, List.find?_eq_none] at h
    simpa using h e he
  simp only [erase, hk]

@[simp] theorem insert_erase (t : Table κ ν) (k : κ) (v : ν) : (t.erase k).insert k v = t.insert k v := by
  simp [insert, erase]

@[simp] theorem erase_insert (t : Table κ ν) (k : κ) (v : ν) : (t.insert k v).erase k = t.erase k := by
  simp [insert, erase]

/-- The entries without the one of a key, when its place is known. -/
theorem filter_key_split {before after : List (κ × ν)} {k : κ} {v : ν} (h : ((before ++ (k, v) :: after).map (·.1)).Nodup) :
    (before ++ (k, v) :: after).filter (fun e => e.1 ≠ k) = before ++ after := by
  rw [List.map_append, List.map_cons, List.nodup_append, List.nodup_cons] at h
  obtain ⟨-, ⟨ha, -⟩, hb⟩ := h
  have hbefore : before.filter (fun e => e.1 ≠ k) = before :=
    List.filter_eq_self.mpr fun e he => decide_eq_true (hb e.1 (List.mem_map_of_mem he) k (List.mem_cons_self))
  have hafter : after.filter (fun e => e.1 ≠ k) = after :=
    List.filter_eq_self.mpr fun e he => decide_eq_true fun hk => ha (hk ▸ List.mem_map.mpr ⟨e, he, rfl⟩)
  rw [List.filter_append, List.filter_cons_of_neg (by simp), hbefore, hafter]

/-- The entries are what is found. -/
theorem mem_entries_iff {t : Table κ ν} {k : κ} {v : ν} : (k, v) ∈ t.entries ↔ t.find? k = some v := by
  have h := t.nodup
  rw [find?]
  generalize t.entries = es at h
  induction es with
  | nil => simp
  | cons e es ih =>
    obtain ⟨hn, h⟩ := List.nodup_cons.mp h
    by_cases he : e.1 = k
    · subst he
      have hne : (e.1, v) ∉ es := fun hm => hn (List.mem_map.mpr ⟨_, hm, rfl⟩)
      simp [hne, Prod.ext_iff, eq_comm]
    · have hne : (k, v) ≠ e := fun hk => he (by rw [← hk])
      simp [he, hne, ih h]

/-- The entries are that of a key and those of the table without it. -/
theorem entries_perm_erase {t : Table κ ν} {k : κ} {v : ν} (h : t.find? k = some v) :
    t.entries.Perm ((k, v) :: (t.erase k).entries) := by
  obtain ⟨before, after, he⟩ := List.append_of_mem (mem_entries_iff.mpr h)
  have hn := t.nodup
  rw [he] at hn
  simp only [erase, he, filter_key_split hn]
  exact List.perm_middle

/-- The values are that of a key and those of the table without it. -/
theorem values_perm_erase {t : Table κ ν} {k : κ} {v : ν} (h : t.find? k = some v) : t.values.Perm (v :: (t.erase k).values) :=
  (entries_perm_erase h).map _

/-- The values are what is found. -/
theorem mem_values_iff {t : Table κ ν} {v : ν} : v ∈ t.values ↔ ∃ k, t.find? k = some v := by
  simp only [values, List.mem_map, ← mem_entries_iff]
  constructor
  · rintro ⟨⟨k, w⟩, hm, rfl⟩
    exact ⟨k, hm⟩
  · rintro ⟨k, hm⟩
    exact ⟨(k, v), hm, rfl⟩

end Table

end Parley
