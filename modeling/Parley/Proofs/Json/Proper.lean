import Parley.Proofs.Json.RoundTrip

/-!
# Values that can come from a text

What the reader gives is proper (`parse_proper`): its whole numbers fit 64 bits, its objects list each name once and in order, and
nothing in it nests deeper than the reader goes. A proper value is in normal form (`normal_of_proper`), so one that has no float
in it is read from its written form as it is.
-/

namespace Parley

/-- A number that fits 64 bits, signed or unsigned, if it is whole. -/
def JsonNumber.Sized : JsonNumber → Prop
  | .int n => -Nat.pow 2 63 ≤ n ∧ n ≤ Json.maxSignificand
  | .float _ => True

namespace Json

/-- The fields stand in the order of their names, each name once. -/
def Ordered (fields : List (String × Json)) : Prop := fields.Pairwise fun f g => f.1 < g.1

/-- A value whose whole numbers fit 64 bits, whose objects are ordered, and whose arrays and objects nest no deeper. -/
def Proper : Nat → Json → Prop
  | _, .num n => n.Sized
  | depth + 1, .arr items => ∀ v ∈ items, Proper depth v
  | depth + 1, .obj fields => Ordered fields ∧ ∀ f ∈ fields, Proper depth f.2
  | 0, .arr _ | 0, .obj _ => False
  | _, _ => True

mutual
/-- There is no float in the value. -/
def floatFree : Json → Bool
  | .num (.float _) => false
  | .arr items => floatFreeItems items
  | .obj fields => floatFreeFields fields
  | _ => true
/-- There is no float in the items of an array. -/
def floatFreeItems : List Json → Bool
  | [] => true
  | v :: rest => v.floatFree && floatFreeItems rest
/-- There is no float in the fields of an object. -/
def floatFreeFields : List (String × Json) → Bool
  | [] => true
  | (_, v) :: rest => v.floatFree && floatFreeFields rest
end

/-- Items are free of floats if each is. -/
theorem floatFreeItems_eq_all (items : List Json) : floatFreeItems items = items.all floatFree := by
  induction items with
  | nil => rfl
  | cons v items ih => rw [floatFreeItems, List.all_cons, ih]

/-- Fields are free of floats if the value of each is. -/
theorem floatFreeFields_eq_all (fields : List (String × Json)) : floatFreeFields fields = fields.all (·.2.floatFree) := by
  induction fields with
  | nil => rfl
  | cons f fields ih => rw [floatFreeFields, List.all_cons, ih]

/-- What is neither an array nor an object is proper at any depth, a number if it fits. -/
theorem proper_of_scalar {v : Json} (ha : ∀ items, v ≠ .arr items) (ho : ∀ fields, v ≠ .obj fields)
    (hn : ∀ n, v = .num n → n.Sized) (depth : Nat) : v.Proper depth := by
  cases v with
  | arr items => exact absurd rfl (ha items)
  | obj fields => exact absurd rfl (ho fields)
  | num n =>
    have hs := hn n rfl
    cases depth <;> exact hs
  | _ => cases depth <;> trivial

/-- A whole number has no depth. -/
theorem fits_of_sized {n : Int} (h : (JsonNumber.int n).Sized) (depth : Nat) : fits depth (.num (.int n)) = true := by
  simp only [Json.fits, decide_eq_true_eq]
  exact h

/-- A proper value without floats fits its written form. -/
theorem Proper.fits {depth : Nat} {v : Json} (h : v.Proper depth) (hf : v.floatFree = true) : v.fits depth = true := by
  induction depth generalizing v with
  | zero =>
    cases v with
    | num n =>
      cases n with
      | int n => exact fits_of_sized h 0
      | float x => cases hf
    | arr items => cases h
    | obj fields => cases h
    | _ => rfl
  | succ depth ih =>
    cases v with
    | num n =>
      cases n with
      | int n => exact fits_of_sized h (depth + 1)
      | float x => cases hf
    | arr items =>
      rw [floatFree, floatFreeItems_eq_all, List.all_eq_true] at hf
      exact List.all_eq_true.mpr fun v hv => ih (h v hv) (hf v hv)
    | obj fields =>
      rw [floatFree, floatFreeFields_eq_all, List.all_eq_true] at hf
      exact List.all_eq_true.mpr fun f hm => ih (h.2 f hm) (hf f hm)
    | _ => rfl

/-! ## Ordered fields -/

theorem lt_of_not_lt_of_ne {a b : String} (h : ¬a < b) (hn : a ≠ b) : b < a :=
  Std.lt_of_le_of_ne (String.not_lt.mp h) (Ne.symm hn)

/-- A name that comes behind all others is put behind them. -/
theorem insertField_of_lt {name : String} {seen : List (String × Json)} (h : ∀ f ∈ seen, f.1 < name) (v : Json) :
    insertField name v seen = seen ++ [(name, v)] := by
  induction seen with
  | nil => rfl
  | cons f seen ih =>
    have hf : f.1 < name := h f List.mem_cons_self
    have hn : name ≠ f.1 := by
      rintro rfl
      exact String.lt_irrefl _ hf
    rw [insertField, if_neg (String.lt_asymm hf), if_neg hn, ih fun g hg => h g (List.mem_cons_of_mem _ hg), List.cons_append]

theorem mem_insertField {name : String} {v : Json} {fields : List (String × Json)} {f : String × Json}
    (h : f ∈ insertField name v fields) : f = (name, v) ∨ f ∈ fields := by
  induction fields with
  | nil => exact .inl (List.mem_singleton.mp h)
  | cons g fields ih =>
    unfold insertField at h
    split at h
    · exact List.mem_cons.mp h
    · split at h
      · rcases List.mem_cons.mp h with h | h
        · exact .inl h
        · exact .inr (List.mem_cons_of_mem _ h)
      · rcases List.mem_cons.mp h with rfl | h
        · exact .inr List.mem_cons_self
        · exact (ih h).imp_right (List.mem_cons_of_mem _)

/-- Fields that are put in one by one are ordered. -/
theorem Ordered.insertField {fields : List (String × Json)} (h : Ordered fields) (name : String) (v : Json) :
    Ordered (insertField name v fields) := by
  induction fields with
  | nil => exact List.pairwise_singleton _ _
  | cons g fields ih =>
    obtain ⟨hg, hfields⟩ := List.pairwise_cons.mp h
    unfold Json.insertField
    split
    · rename_i hlt
      refine List.pairwise_cons.mpr ⟨fun f hf => ?_, h⟩
      rcases List.mem_cons.mp hf with rfl | hf
      · exact hlt
      · exact String.lt_trans hlt (hg f hf)
    · rename_i hlt
      split
      · rename_i he
        subst he
        exact List.pairwise_cons.mpr ⟨hg, hfields⟩
      · rename_i hn
        refine List.pairwise_cons.mpr ⟨fun f hf => ?_, ih hfields⟩
        rcases mem_insertField hf with rfl | hf
        · exact lt_of_not_lt_of_ne hlt hn
        · exact hg f hf

/-- Ordered fields in normal form stay as they are. -/
theorem normalFields_of_ordered {seen fields : List (String × Json)} (h : Ordered (seen ++ fields))
    (hn : ∀ f ∈ fields, f.2.normal = f.2) : normalFields seen fields = seen ++ fields := by
  induction fields generalizing seen with
  | nil => rw [normalFields, List.append_nil]
  | cons f fields ih =>
    have hlt : ∀ g ∈ seen, g.1 < f.1 := fun g hg => (List.pairwise_append.mp h).2.2 g hg f List.mem_cons_self
    have hi : normalFields (seen ++ [f]) fields = seen ++ [f] ++ fields :=
      ih (by rwa [List.append_assoc]) fun g hg => hn g (List.mem_cons_of_mem _ hg)
    rw [normalFields, hn f List.mem_cons_self, insertField_of_lt hlt, hi, List.append_assoc]
    rfl

/-- Items that are normal stay as they are. -/
theorem normalItems_of_normal {items : List Json} (h : ∀ v ∈ items, v.normal = v) : normalItems items = items := by
  induction items with
  | nil => rfl
  | cons v items ih =>
    rw [normalItems, h v List.mem_cons_self, ih fun w hw => h w (List.mem_cons_of_mem _ hw)]

/-- A proper value is in normal form. -/
theorem normal_of_proper {depth : Nat} {v : Json} (h : v.Proper depth) : v.normal = v := by
  induction depth generalizing v with
  | zero =>
    cases v with
    | arr items => cases h
    | obj fields => cases h
    | _ => rfl
  | succ depth ih =>
    cases v with
    | arr items => rw [normal, normalItems_of_normal fun v hv => ih (h v hv)]
    | obj fields =>
      have hf : normalFields [] fields = [] ++ fields := normalFields_of_ordered h.1 fun f hf => ih (h.2 f hf)
      rw [normal, hf, List.nil_append]
    | _ => rfl

/-- A field of ordered fields is found under its name. -/
theorem lookupField_of_mem {fields : List (String × Json)} (h : Ordered fields) {f : String × Json} (hf : f ∈ fields) :
    lookupField f.1 fields = some f.2 := by
  induction fields with
  | nil => cases hf
  | cons g fields ih =>
    obtain ⟨hg, hfields⟩ := List.pairwise_cons.mp h
    rcases List.mem_cons.mp hf with rfl | hf
    · simp [lookupField]
    · have hne : g.1 ≠ f.1 := by
        intro he
        exact String.lt_irrefl f.1 (by simpa [he] using hg f hf)
      have hi := ih hfields hf
      simp only [lookupField] at hi ⊢
      rw [List.find?_cons_of_neg (by simpa using hne), hi]

/-- What is found among fields is one of them. -/
theorem mem_of_lookupField {name : String} {fields : List (String × Json)} {v : Json} (h : lookupField name fields = some v) :
    (name, v) ∈ fields := by
  obtain ⟨f, hf, rfl⟩ := Option.map_eq_some_iff.mp h
  have hn : f.1 = name := by simpa using List.find?_some hf
  rw [← hn]
  exact List.mem_of_find?_eq_some hf

/-! ## What the reader gives -/

/-- Whatever is read has the property. -/
def Yields {β : Type} (P : β → Prop) (r : Except Stop (β × Bytes)) : Prop := ∀ v rest, r = .ok (v, rest) → P v

theorem yields_error {β : Type} {P : β → Prop} (e : Stop) : Yields P (.error e) := by
  intro v rest h
  cases h

theorem yields_ok {β : Type} {P : β → Prop} {v : β} (h : P v) (rest : Bytes) : Yields P (.ok (v, rest)) := by
  intro w rest' he
  cases he
  exact h

/-- What is read first is handed to what reads on. -/
theorem Yields.bind {β γ : Type} {P : β → Prop} {Q : γ → Prop} {x : Except Stop (β × Bytes)}
    {f : β × Bytes → Except Stop (γ × Bytes)} (hx : Yields P x) (hf : ∀ v rest, P v → Yields Q (f (v, rest))) :
    Yields Q (x >>= f) := by
  cases x with
  | error e => exact yields_error e
  | ok r => exact hf r.1 r.2 (hx r.1 r.2 rfl)

/-- What follows a part of which nothing has to be known. -/
theorem yields_bind {β γ : Type} {Q : γ → Prop} {x : Except Stop (β × Bytes)} {f : β × Bytes → Except Stop (γ × Bytes)}
    (hf : ∀ v rest, Yields Q (f (v, rest))) : Yields Q (x >>= f) :=
  Yields.bind (P := fun _ => True) (fun _ _ _ => trivial) fun v rest _ => hf v rest

/-- Digits are taken as long as there is room for them. -/
theorem takeDigits_le {s : Nat} (h : s ≤ maxSignificand) (bytes : Bytes) : (takeDigits s bytes).1 ≤ maxSignificand := by
  induction bytes generalizing s with
  | nil => exact h
  | cons b bytes ih =>
    rw [takeDigits]
    split
    · rename_i hs
      exact ih hs.2
    · exact h

/-- A whole number of digits that there is room for has the size of a number. -/
theorem wholeNumber_sized {n : Nat} (h : n ≤ maxSignificand) (negative : Bool) : (wholeNumber negative n).Sized := by
  have hm : (maxSignificand : Int) = 2 ^ 64 - 1 := rfl
  have hp : ((Nat.pow 2 63 : Nat) : Int) = 2 ^ 63 := rfl
  unfold wholeNumber
  split
  · split
    · trivial
    · simp only [JsonNumber.Sized]
      omega
  · simp only [JsonNumber.Sized]
    omega

/-- A number with a point has the size of one. -/
theorem floatOf_sized (negative : Bool) (significand : Nat) (e : Int) (rest : Bytes) :
    Yields JsonNumber.Sized (floatOf negative significand e rest) := by
  unfold floatOf
  split
  · exact yields_ok trivial _
  · exact yields_error _

/-- So has one with an exponent. -/
theorem readExponent_sized (negative : Bool) (significand : Nat) (start : Int) (bytes : Bytes) :
    Yields JsonNumber.Sized (readExponent negative significand start bytes) := by
  unfold readExponent
  split
  split
  · exact yields_error _
  · split
    · split
      · exact floatOf_sized _ _ _ _
      · split
        · exact yields_error _
        · exact yields_ok trivial _
    · exact yields_error _

/-- So has whatever is read behind digits that there is no room for. -/
theorem readTail_sized (negative : Bool) (significand : Nat) (e : Int) (bytes : Bytes) :
    Yields JsonNumber.Sized (readTail negative significand e bytes) := by
  unfold readTail
  split
  · split
    · exact readExponent_sized _ _ _ _
    · exact floatOf_sized _ _ _ _
  · exact floatOf_sized _ _ _ _

/-- So has whatever is read behind a point. -/
theorem readFraction_sized (negative : Bool) (significand : Nat) (start : Int) (bytes : Bytes) :
    Yields JsonNumber.Sized (readFraction negative significand start bytes) := by
  unfold readFraction
  simp only
  split
  · exact readTail_sized _ _ _ _
  · split
    · exact yields_error _
    · exact readTail_sized _ _ _ _

/-- So has whatever is read behind the whole part. -/
theorem readNumberTail_sized {n : Nat} (h : n ≤ maxSignificand) (negative : Bool) (bytes : Bytes) :
    Yields JsonNumber.Sized (readNumberTail negative n bytes) := by
  unfold readNumberTail
  split
  · exact readFraction_sized _ _ _ _
  · split
    · exact readExponent_sized _ _ _ _
    · exact yields_ok (wholeNumber_sized h negative) _
  · exact yields_ok (wholeNumber_sized h negative) _

/-- A number that is read fits 64 bits if it is whole. -/
theorem readNumber_sized (negative : Bool) (bytes : Bytes) : Yields JsonNumber.Sized (readNumber negative bytes) := by
  unfold readNumber
  split
  · exact yields_error _
  · split
    · exact yields_error _
    · exact readNumberTail_sized (Nat.zero_le _) _ _
  · rename_i b rest _
    split
    · have hb : b.toNat - 0x30 ≤ maxSignificand :=
        Nat.le_trans (Nat.le_trans (Nat.sub_le _ _) (Nat.le_of_lt b.toNat_lt)) (by decide)
      have hs := takeDigits_le hb rest
      simp only
      split
      · unfold readLong
        split
        · exact readFraction_sized _ _ _ _
        · exact readTail_sized _ _ _ _
      · exact readNumberTail_sized hs _ _
    · exact yields_error _

/-- The items that are read have the property that each of them has. -/
theorem readItems_yields {P : Json → Prop} {item : Bytes → Except Stop (Json × Bytes)} (hi : ∀ bytes, Yields P (item bytes))
    (fuel : Nat) {seen : List Json} (hs : ∀ v ∈ seen, P v) (bytes : Bytes) :
    Yields (fun items => ∀ v ∈ items, P v) (readItems item fuel seen bytes) := by
  induction fuel generalizing seen bytes with
  | zero => exact yields_error _
  | succ fuel ih =>
    unfold readItems
    split
    · exact yields_error _
    · exact yields_ok (fun v hv => hs v (List.mem_reverse.mp hv)) _
    · split
      · refine (hi _).bind fun v rest hv => ih (fun w hw => ?_) rest
        obtain rfl := List.mem_singleton.mp hw
        exact hv
      · split
        · split
          · exact yields_error _
          · exact yields_error _
          · refine (hi _).bind fun v rest hv => ih (fun w hw => ?_) rest
            rcases List.mem_cons.mp hw with rfl | hw
            · exact hv
            · exact hs w hw
        · exact yields_error _

/-- The value of a field that is read has the property that the items have. -/
theorem readField_yields {P : Json → Prop} {item : Bytes → Except Stop (Json × Bytes)} (hi : ∀ bytes, Yields P (item bytes))
    (bytes : Bytes) : Yields (fun f => P f.2) (readField item bytes) := by
  refine yields_bind fun name rest => ?_
  dsimp only
  split
  · exact yields_error _
  · split
    · exact (hi _).bind fun v rest hv => yields_ok (P := fun f : String × Json => P f.2) hv rest
    · exact yields_error _

/-- The fields that are read are ordered, and their values have the property that the items have. -/
theorem readFields_yields {P : Json → Prop} {item : Bytes → Except Stop (Json × Bytes)} (hi : ∀ bytes, Yields P (item bytes))
    (fuel : Nat) (first : Bool) {seen : List (String × Json)} (hs : Ordered seen ∧ ∀ f ∈ seen, P f.2) (bytes : Bytes) :
    Yields (fun fields => Ordered fields ∧ ∀ f ∈ fields, P f.2) (readFields item fuel first seen bytes) := by
  induction fuel generalizing first seen bytes with
  | zero => exact yields_error _
  | succ fuel ih =>
    have hnext (rest : Bytes) : Yields (fun fields => Ordered fields ∧ ∀ f ∈ fields, P f.2)
        (readField item rest >>= fun r => readFields item fuel false (insertField r.1.1 r.1.2 seen) r.2) := by
      refine (readField_yields hi rest).bind fun f rest hf => ih false ⟨hs.1.insertField f.1 f.2, fun g hg => ?_⟩ rest
      rcases mem_insertField hg with rfl | hg
      · exact hf
      · exact hs.2 g hg
    unfold readFields
    split
    · exact yields_error _
    · exact yields_ok (P := fun fields => Ordered fields ∧ ∀ f ∈ fields, P f.2) hs _
    · split
      · split
        · exact hnext _
        · exact yields_error _
      · split
        · split
          · exact yields_error _
          · split
            · exact hnext _
            · split
              · exact yields_error _
              · exact yields_error _
        · exact yields_error _

/-- A value that is read is proper. -/
theorem readValue_proper (depth : Nat) (bytes : Bytes) : Yields (Proper depth) (readValue (depth + 1) bytes) := by
  induction depth using Nat.strongRecOn generalizing bytes with
  | _ depth ih =>
    -- What is neither a list nor a map nor a number is proper at any depth.
    have hword {v : Json} (ha : ∀ items, v ≠ .arr items) (ho : ∀ fields, v ≠ .obj fields) (hn : ∀ n, v ≠ .num n) (rest : Bytes) :
        Yields (Proper depth) (.ok (v, rest)) :=
      yields_ok (proper_of_scalar ha ho (fun n he => absurd he (hn n)) depth) rest
    have hnumber (negative : Bool) (bytes : Bytes) :
        Yields (Proper depth) (readNumber negative bytes >>= fun r => .ok (.num r.1, r.2)) := by
      refine (readNumber_sized negative bytes).bind fun n rest hn => yields_ok ?_ rest
      exact proper_of_scalar (by simp) (by simp) (fun m he => by cases he; exact hn) depth
    unfold readValue
    split
    · exact yields_error _
    · split
      · exact yields_bind fun _ rest => hword (by simp) (by simp) (by simp) rest
      split
      · exact yields_bind fun _ rest => hword (by simp) (by simp) (by simp) rest
      split
      · exact yields_bind fun _ rest => hword (by simp) (by simp) (by simp) rest
      split
      · exact hnumber true _
      split
      · exact hnumber false _
      split
      · exact yields_bind fun _ rest => hword (by simp) (by simp) (by simp) rest
      split
      · split
        · exact yields_error _
        · rename_i hd
          obtain ⟨depth, rfl⟩ := Nat.exists_eq_succ_of_ne_zero hd
          have hi := readItems_yields (ih depth (Nat.lt_succ_self depth))
          refine (hi _ (by simp) _).bind fun items rest hitems => yields_ok ?_ rest
          exact hitems
      split
      · split
        · exact yields_error _
        · rename_i hd
          obtain ⟨depth, rfl⟩ := Nat.exists_eq_succ_of_ne_zero hd
          have hi := readFields_yields (ih depth (Nat.lt_succ_self depth))
          refine (hi _ true ⟨.nil, by simp⟩ _).bind fun fields rest hfields => yields_ok ?_ rest
          exact hfields
      · exact yields_error _

/-- A text is read as a proper value. -/
theorem parse_proper {bytes : Bytes} {v : Json} (h : parse bytes = .ok v) : v.Proper 127 := by
  have hread := readValue_proper 127 bytes
  unfold parse at h
  cases hr : readValue depthLimit bytes with
  | error e =>
    rw [hr] at h
    cases h
  | ok r =>
    obtain ⟨w, rest⟩ := r
    rw [hr] at h
    dsimp only [bind, Except.bind] at h
    cases hs : skip rest with
    | nil =>
      rw [hs] at h
      cases h
      exact hread _ rest hr
    | cons b rest =>
      rw [hs] at h
      cases h

end Json

end Parley
