import Parley.Json.Parser
import Parley.Json.Printer

/-!
# Reading what was written

A value without floats, whose whole numbers fit 64 bits and whose arrays and objects nest at most 127 deep, is read from its
written form as it is, up to the order of the fields of its objects (`parse_print`). Each reader is taken over what its printer
writes, followed by anything that may stand there: a number ends before what is no digit, point or exponent, a string at its
quote, the items of an array at the bracket.
-/

namespace Parley

namespace Utf8

/-- A text is written character by character. -/
theorem encode_ofList (cs : List Char) : encode (String.ofList cs) = cs.flatMap String.utf8EncodeChar := by
  simp [encode, List.utf8Encode]

/-- The bytes of two texts in a row. -/
theorem encode_append (s t : String) : encode (s ++ t) = encode s ++ encode t := by
  simp [encode]

/-- A digit is one byte. -/
theorem utf8EncodeChar_of_isDigit {c : Char} (h : c.isDigit = true) : String.utf8EncodeChar c = [UInt8.ofNat c.toNat] := by
  have hc : c.val.toNat ≤ 57 := by
    simp only [Char.isDigit, Bool.and_eq_true, decide_eq_true_eq] at h
    exact UInt32.le_iff_toNat_le.mp h.2
  have h7 : c.val.toNat ≤ 127 := by omega
  simp only [String.utf8EncodeChar, h7, if_true]
  rfl

/-- Digits are one byte each. -/
theorem encode_digits {cs : List Char} (h : ∀ c ∈ cs, c.isDigit = true) :
    encode (String.ofList cs) = cs.map fun c => UInt8.ofNat c.toNat := by
  rw [encode_ofList]
  induction cs with
  | nil => rfl
  | cons c cs ih =>
    rw [List.flatMap_cons, utf8EncodeChar_of_isDigit (h c List.mem_cons_self), ih fun c hc => h c (List.mem_cons_of_mem _ hc)]
    rfl

end Utf8

namespace Json

/-- What may stand behind a value inside an array or an object, or at the end. -/
def Stops (rest : Bytes) : Prop := ∀ b ∈ rest.head?, b = 0x2c ∨ b = 0x5d ∨ b = 0x7d

theorem Stops.nil : Stops [] := by
  intro b hb
  cases hb

/-- Where a number stops there is no digit. -/
theorem Stops.startsWithDigit {rest : Bytes} (h : Stops rest) : startsWithDigit rest = false := by
  cases rest with
  | nil => rfl
  | cons b rest => rcases h b rfl with rfl | rfl | rfl <;> rfl

/-! ## Numbers -/

/-- The byte of a digit. -/
def digitByte (c : Char) : UInt8 := UInt8.ofNat c.toNat

/-- A digit lies between those of 0 and 9. -/
theorem toNat_of_isDigit {c : Char} (h : c.isDigit = true) : 48 ≤ c.toNat ∧ c.toNat ≤ 57 := by
  simp only [Char.isDigit, Bool.and_eq_true, decide_eq_true_eq] at h
  exact ⟨UInt32.le_iff_toNat_le.mp h.1, UInt32.le_iff_toNat_le.mp h.2⟩

theorem toNat_digitByte {c : Char} (h : c.isDigit = true) : (digitByte c).toNat = c.toNat := by
  have hc := (toNat_of_isDigit h).2
  rw [digitByte, UInt8.toNat_ofNat']
  omega

theorem isDigit_digitByte {c : Char} (h : c.isDigit = true) : isDigit (digitByte c) = true := by
  obtain ⟨hl, hu⟩ := toNat_of_isDigit h
  simp only [isDigit, Bool.and_eq_true, decide_eq_true_eq, UInt8.le_iff_toNat_le, toNat_digitByte h]
  exact ⟨hl, hu⟩

/-- A digit is no byte that stands elsewhere than those of 0 and 9. -/
theorem digitByte_ne {c : Char} (h : c.isDigit = true) {b : UInt8} (hb : b.toNat < 48 ∨ 57 < b.toNat) : digitByte c ≠ b := by
  have hc := toNat_of_isDigit h
  rw [ne_eq, ← UInt8.toNat_inj, toNat_digitByte h]
  omega

theorem isSpace_digitByte {c : Char} (h : c.isDigit = true) : isSpace (digitByte c) = false := by
  simp [isSpace, digitByte_ne h]

/-- Digits only make a number larger. -/
theorem le_ofDigitChars (cs : List Char) (s : Nat) : s ≤ Nat.ofDigitChars 10 cs s := by
  induction cs generalizing s with
  | nil => exact Nat.le_refl s
  | cons c cs ih =>
    rw [Nat.ofDigitChars_cons]
    exact Nat.le_trans (by omega) (ih _)

/-- Digits are taken as long as there are any and the number they stand for fits. -/
theorem takeDigits_digits {cs : List Char} (hd : ∀ c ∈ cs, c.isDigit = true) {s : Nat} {rest : Bytes}
    (hr : startsWithDigit rest = false) (hm : Nat.ofDigitChars 10 cs s ≤ maxSignificand) :
    takeDigits s (cs.map digitByte ++ rest) = (Nat.ofDigitChars 10 cs s, cs.length, rest) := by
  induction cs generalizing s with
  | nil =>
    cases rest with
    | nil => rfl
    | cons b rest =>
      have hb : isDigit b = false := hr
      simp [takeDigits, hb]
  | cons c cs ih =>
    have hc := hd c List.mem_cons_self
    rw [Nat.ofDigitChars_cons] at hm ⊢
    have hs : s * 10 + (c.toNat - 48) = 10 * s + (c.toNat - '0'.toNat) := by
      rw [Nat.mul_comm]
      rfl
    have hf : 10 * s + (c.toNat - '0'.toNat) ≤ maxSignificand := Nat.le_trans (le_ofDigitChars cs _) hm
    have hi := ih (fun c hc => hd c (List.mem_cons_of_mem _ hc)) hm
    simp only [List.map_cons, List.cons_append, takeDigits, isDigit_digitByte hc, toNat_digitByte hc,
      hs, hf, hi, and_self, if_true, List.length_cons]

/-- The digits of a positive number do not begin with 0. -/
theorem toDigits_eq_cons {n : Nat} (h : 0 < n) : ∃ c cs, Nat.toDigits 10 n = c :: cs ∧ c ≠ '0' := by
  induction n using Nat.strongRecOn with
  | _ n ih =>
    by_cases hn : n < 10
    · refine ⟨n.digitChar, [], Nat.toDigits_of_lt_base hn, ?_⟩
      have hd : ∀ m < 10, 0 < m → m.digitChar ≠ '0' := by decide
      exact hd n hn h
    · obtain ⟨c, cs, he, hc⟩ := ih (n / 10) (by omega) (by omega)
      exact ⟨c, cs ++ [(n % 10).digitChar], by rw [Nat.toDigits_of_base_le (by omega) (by omega), he]; rfl, hc⟩

/-- The bytes of the digits of a number. -/
def digitBytes (n : Nat) : Bytes := (Nat.toDigits 10 n).map digitByte

/-- A numeral in bytes. -/
theorem encode_repr (n : Nat) : Utf8.encode n.repr = digitBytes n :=
  Utf8.encode_digits fun _ hc => Nat.isDigit_of_mem_toDigits (by omega) (by omega) hc

/-- There is a first digit. -/
theorem digitBytes_eq_cons (n : Nat) : ∃ c bs, digitBytes n = digitByte c :: bs ∧ c.isDigit = true := by
  obtain ⟨c, cs, hc⟩ := List.exists_cons_of_ne_nil (Nat.toDigits_ne_nil (n := n) (b := 10))
  have hd : c.isDigit = true := Nat.isDigit_of_mem_toDigits (b := 10) (n := n) (by omega) (by omega) (by simp [hc])
  exact ⟨c, cs.map digitByte, by rw [digitBytes, hc, List.map_cons], hd⟩

/-- A number that is not negative is printed as its digits. -/
theorem print_ofNat (n : Nat) : print (.num (.int (Int.ofNat n))) = digitBytes n := encode_repr n

/-- A negative number is printed behind a sign. -/
theorem print_negSucc (n : Nat) : print (.num (.int (Int.negSucc n))) = 0x2d :: digitBytes (n + 1) := by
  change Utf8.encode ("-" ++ (n + 1).repr) = _
  rw [Utf8.encode_append, encode_repr]
  rfl

/-- A number ends before what may stand behind a value. -/
theorem readNumberTail_of_stops {rest : Bytes} (h : Stops rest) (negative : Bool) (n : Nat) :
    readNumberTail negative n rest = .ok (wholeNumber negative n, rest) := by
  cases rest with
  | nil => rfl
  | cons b rest => rcases h b rfl with rfl | rfl | rfl <;> rfl

/-- The digits of a number are read as the number. -/
theorem readNumber_digitBytes {n : Nat} (hn : n ≤ maxSignificand) {rest : Bytes} (hr : Stops rest) (negative : Bool) :
    readNumber negative (digitBytes n ++ rest) = .ok (wholeNumber negative n, rest) := by
  by_cases h0 : n = 0
  · subst h0
    have hd : digitBytes 0 = [0x30] := rfl
    simp only [hd, List.singleton_append, readNumber, hr.startsWithDigit]
    exact readNumberTail_of_stops hr negative 0
  · obtain ⟨c, cs, he, hc⟩ := toDigits_eq_cons (Nat.pos_of_ne_zero h0)
    have hd : ∀ c' ∈ c :: cs, c'.isDigit = true := by
      intro c' hc'
      rw [← he] at hc'
      exact Nat.isDigit_of_mem_toDigits (by omega) (by omega) hc'
    have hcd := hd c List.mem_cons_self
    have hv : Nat.ofDigitChars 10 cs (c.toNat - 48) = n := by
      have h := Nat.ofDigitChars_toDigits (b := 10) (n := n) (by omega) (by omega)
      rw [he, Nat.ofDigitChars_cons] at h
      simpa using h
    have ht := takeDigits_digits (fun c' hc' => hd c' (List.mem_cons_of_mem _ hc')) hr.startsWithDigit (by rw [hv]; exact hn)
    rw [hv] at ht
    have hb : digitByte c ≠ 0x30 := by
      intro hb
      have hn : (digitByte c).toNat = (0x30 : UInt8).toNat := by rw [hb]
      rw [toNat_digitByte hcd] at hn
      exact hc (Char.toNat_inj.mp hn)
    rw [digitBytes, he, List.map_cons, List.cons_append, readNumber]
    · simp only [isDigit_digitByte hcd, if_true, toNat_digitByte hcd]
      simp only [ht, hr.startsWithDigit]
      exact readNumberTail_of_stops hr negative n
    · exact fun h => hb h

/-! ## Strings -/

/-- The two digits of the escape of a control character, and the character that they stand for. -/
theorem readUnicode_control {b : UInt8} (h : b < 0x20) (rest : Bytes) :
    readUnicode (0x30 :: 0x30 :: (0x30 + b / 16) :: (if b % 16 < 10 then 0x30 + b % 16 else 0x57 + b % 16) :: rest) =
      .ok ([b], rest) := by
  have hd : ∀ n : Fin 32, hexDigit? (0x30 + UInt8.ofNat n / 16) = some (n.val / 16) ∧
      hexDigit? (if UInt8.ofNat n % 16 < 10 then 0x30 + UInt8.ofNat n % 16 else 0x57 + UInt8.ofNat n % 16) = some (n.val % 16) ∧
      codePoint n = [UInt8.ofNat n] := by
    decide +kernel
  have hb : b.toNat < 32 := UInt8.lt_iff_toNat_lt.mp h
  obtain ⟨hx, hy, hc⟩ := hd ⟨b.toNat, hb⟩
  rw [UInt8.ofNat_toNat] at hx hy hc
  have h0 : hexDigit? 0x30 = some 0 := rfl
  have hn : b.toNat / 16 * 16 + b.toNat % 16 = b.toNat := Nat.div_add_mod' _ _
  simp only [readUnicode, readHex, h0, hx, hy, Nat.zero_mul, Nat.zero_add, hn]
  change (if 0xdc00 ≤ b.toNat ∧ b.toNat ≤ 0xdfff then _ else if 0xd800 ≤ b.toNat ∧ b.toNat ≤ 0xdbff then _ else _) = _
  rw [if_neg (by omega), if_neg (by omega), hc]

/-- A byte of a string is read from its escape, in one round. -/
theorem readText_escapeByte (fuel : Nat) (b : UInt8) (rest : Bytes) :
    readText (fuel + 1) (escapeByte b ++ rest) = (readText fuel rest).map fun r => (b :: r.1, r.2) := by
  have hm (part : Bytes) : ((readText fuel rest).bind fun r => .ok (part ++ r.1, r.2)) =
      (readText fuel rest).map fun r => (part ++ r.1, r.2) := by
    cases readText fuel rest <;> rfl
  have he {letter b : UInt8} (h : readEscape (letter :: rest) = .ok ([b], rest)) :
      readText (fuel + 1) (0x5c :: letter :: rest) = (readText fuel rest).map fun r => (b :: r.1, r.2) := by
    rw [readText]
    change (readEscape (letter :: rest)).bind _ = _
    rw [h]
    exact hm [b]
  unfold escapeByte
  -- the seven bytes with a letter of their own
  iterate 7
    split
    · rename_i h
      subst h
      exact he rfl
  rename_i hq hs _ _ _ _ _
  split
  · rename_i hc
    rw [List.cons_append, readText]
    change (readUnicode (0x30 :: 0x30 :: (0x30 + b / 16) :: _ :: rest)).bind _ = _
    rw [readUnicode_control hc]
    exact hm [b]
  · rename_i hc
    rw [List.singleton_append, readText, if_neg hq, if_neg hs, if_neg hc]
    exact hm [b]

/-- The bytes of a string are read up to its quote. -/
theorem readText_escaped {bs : Bytes} {fuel : Nat} (h : bs.length < fuel) (rest : Bytes) :
    readText fuel (bs.flatMap escapeByte ++ 0x22 :: rest) = .ok (bs, rest) := by
  induction bs generalizing fuel with
  | nil =>
    obtain ⟨fuel, rfl⟩ := Nat.exists_eq_add_one.mpr h
    rfl
  | cons b bs ih =>
    rw [List.length_cons] at h
    obtain ⟨fuel, rfl⟩ := Nat.exists_eq_add_one.mpr (Nat.zero_lt_of_lt h)
    rw [List.flatMap_cons, List.append_assoc, readText_escapeByte, ih (Nat.lt_of_succ_lt_succ h)]
    rfl

/-- Where each item leaves a byte, there are no fewer bytes than items. -/
theorem length_le_flatMap {β : Type} {w : β → Bytes} (h : ∀ b, 0 < (w b).length) (bs : List β) :
    bs.length ≤ (bs.flatMap w).length := by
  induction bs with
  | nil => exact Nat.le_refl 0
  | cons b bs ih =>
    have hb := h b
    rw [List.flatMap_cons, List.length_append, List.length_cons]
    omega

/-- No byte is printed as nothing. -/
theorem length_escapeByte_pos (b : UInt8) : 0 < (escapeByte b).length := by
  unfold escapeByte
  repeat' split
  all_goals simp

/-- A string is read from its written form. -/
theorem readString_print (s : String) (rest : Bytes) :
    readString ((Utf8.encode s).flatMap escapeByte ++ 0x22 :: rest) = .ok (s, rest) := by
  have hl : (Utf8.encode s).length < ((Utf8.encode s).flatMap escapeByte ++ 0x22 :: rest).length + 1 := by
    have := length_le_flatMap length_escapeByte_pos (Utf8.encode s)
    rw [List.length_append]
    omega
  rw [readString, readText_escaped hl]
  simp only [bind, Except.bind, Utf8.decode?_encode]

/-! ## Values -/

/-- The value has no floats, its whole numbers fit 64 bits, signed or unsigned, and its arrays and objects nest no deeper. -/
def fits : Nat → Json → Bool
  | _, .num (.int n) => -Nat.pow 2 63 ≤ n ∧ n ≤ maxSignificand
  | _, .num (.float _) => false
  | depth + 1, .arr items => items.all (fits depth)
  | depth + 1, .obj fields => fields.all fun f => fits depth f.2
  | 0, .arr _ | 0, .obj _ => false
  | _, _ => true

mutual
/-- The value with the fields of each object sorted by name, the last of each name. -/
def normal : Json → Json
  | .arr items => .arr (normalItems items)
  | .obj fields => .obj (normalFields [] fields)
  | v => v
/-- The items of an array, each in normal form. -/
def normalItems : List Json → List Json
  | [] => []
  | v :: rest => v.normal :: normalItems rest
/-- Fields put one by one among others that are sorted, each in normal form. -/
def normalFields (seen : List (String × Json)) : List (String × Json) → List (String × Json)
  | [] => seen
  | (name, v) :: rest => normalFields (insertField name v.normal seen) rest
end

@[simp] theorem lookupField_nil (name : String) : lookupField name [] = none := rfl

theorem lookupField_cons (name : String) (f : String × Json) (fields : List (String × Json)) :
    lookupField name (f :: fields) = if f.1 = name then some f.2 else lookupField name fields := by
  by_cases h : f.1 = name <;> simp [lookupField, h]

/-- A field that is put among others is found under its name, and the others under theirs. -/
theorem lookupField_insertField (name known : String) (v : Json) (fields : List (String × Json)) :
    lookupField name (insertField known v fields) = if name = known then some v else lookupField name fields := by
  induction fields with
  | nil =>
    rw [insertField, lookupField_cons]
    simp only [eq_comm]
  | cons f fields ih =>
    unfold insertField
    split
    · rw [lookupField_cons]
      simp only [eq_comm]
    · split
      · rename_i h
        rw [lookupField_cons, lookupField_cons, ← h]
        by_cases hn : known = name
        · simp [hn]
        · simp [hn, Ne.symm hn]
      · rename_i h
        rw [lookupField_cons, lookupField_cons, ih]
        by_cases hn : f.1 = name
        · have hk : name ≠ known := fun hk => h (hk.symm.trans hn.symm)
          simp [hn, hk]
        · simp [hn]

theorem printItems_cons (v : Json) (items : List Json) :
    printItems (v :: items) = v.print ++ (items.flatMap (fun v => 0x2c :: v.print) ++ [0x5d]) := by
  induction items generalizing v with
  | nil => rfl
  | cons w items ih => simp [printItems, ih w]

theorem printFields_cons (f : String × Json) (fields : List (String × Json)) :
    printFields (f :: fields) = printField f ++ (fields.flatMap (fun f => 0x2c :: printField f) ++ [0x7d]) := by
  induction fields generalizing f with
  | nil => rfl
  | cons g fields ih => simp [printFields, ih g]

/-- What is written begins with no blank, and with no closing bracket. -/
theorem print_eq_cons {v : Json} {depth : Nat} (h : v.fits depth = true) :
    ∃ b bs, v.print = b :: bs ∧ isSpace b = false ∧ b ≠ 0x5d := by
  cases v with
  | null => exact ⟨0x6e, _, rfl, rfl, by decide⟩
  | bool b => cases b <;> exact ⟨_, _, rfl, rfl, by decide⟩
  | str s => exact ⟨0x22, _, rfl, rfl, by decide⟩
  | arr items => exact ⟨0x5b, _, rfl, rfl, by decide⟩
  | obj fields => exact ⟨0x7b, _, rfl, rfl, by decide⟩
  | num n =>
    cases n with
    | float x => simp [fits] at h
    | int n =>
      cases n with
      | ofNat n =>
        obtain ⟨c, bs, hb, hd⟩ := digitBytes_eq_cons n
        exact ⟨_, _, (print_ofNat n).trans hb, isSpace_digitByte hd, digitByte_ne hd (by decide)⟩
      | negSucc n => exact ⟨0x2d, digitBytes (n + 1), print_negSucc n, rfl, by decide⟩

/-- What begins with no blank is where the next token is. -/
theorem skip_cons {b : UInt8} (h : isSpace b = false) (rest : Bytes) : skip (b :: rest) = b :: rest := by
  simp [skip, h]

/-- A whole number is read from its written form. -/
theorem readValue_int {n : Int} {depth : Nat} (h : fits depth (.num (.int n)) = true) {rest : Bytes} (hr : Stops rest) :
    readValue (depth + 1) (print (.num (.int n)) ++ rest) = .ok (.num (.int n), rest) := by
  obtain ⟨hl, hu⟩ : -(Nat.pow 2 63 : Int) ≤ n ∧ n ≤ maxSignificand := by simpa [fits] using h
  cases n with
  | ofNat n =>
    have hn : n ≤ maxSignificand := Int.ofNat_le.mp hu
    have hv : wholeNumber false n = .int (Int.ofNat n) := rfl
    obtain ⟨c, bs, hb, hd⟩ := digitBytes_eq_cons n
    have hread := readNumber_digitBytes hn hr false
    rw [hb] at hread
    rw [print_ofNat, hb, List.cons_append, readValue, skip_cons (isSpace_digitByte hd)]
    simp only [digitByte_ne hd (b := 0x6e) (by decide), digitByte_ne hd (b := 0x74) (by decide),
      digitByte_ne hd (b := 0x66) (by decide), digitByte_ne hd (b := 0x2d) (by decide), if_false, isDigit_digitByte hd, if_true]
    rw [← List.cons_append, hread, hv]
    rfl
  | negSucc n =>
    have hn : n + 1 ≤ Nat.pow 2 63 := by omega
    have hv : wholeNumber true (n + 1) = .int (Int.negSucc n) := by
      rw [wholeNumber, if_pos rfl, if_neg (by omega)]
      rfl
    have hread := readNumber_digitBytes (Nat.le_trans hn (by decide)) hr true
    rw [print_negSucc, List.cons_append, readValue, skip_cons rfl]
    change (readNumber true (digitBytes (n + 1) ++ rest)).bind _ = _
    rw [hread, hv]
    rfl

/-- The readers of what is nested in a value read it from its written form. -/
def Reads (item : Bytes → Except Stop (Json × Bytes)) (v : Json) : Prop :=
  (∃ b bs, v.print = b :: bs ∧ isSpace b = false ∧ b ≠ 0x5d) ∧
    ∀ rest, Stops rest → item (v.print ++ rest) = .ok (v.normal, rest)

/-- What stands behind an item: the next one, or the closing bracket. -/
theorem stops_items (items : List Json) (rest : Bytes) :
    Stops (items.flatMap (fun v => 0x2c :: v.print) ++ 0x5d :: rest) := by
  intro b hb
  cases items with
  | nil =>
    obtain rfl := Option.some.inj hb
    exact .inr (.inl rfl)
  | cons v items =>
    obtain rfl := Option.some.inj hb
    exact .inl rfl

/-- Behind a comma comes an item. -/
theorem readItems_comma {item : Bytes → Except Stop (Json × Bytes)} {seen : List Json} (hs : seen ≠ []) {b : UInt8}
    (hb : isSpace b = false) (hc : b ≠ 0x5d) (fuel : Nat) (bs : Bytes) :
    readItems item (fuel + 1) seen (0x2c :: b :: bs) =
      (item (b :: bs)).bind fun r => readItems item fuel (r.1 :: seen) r.2 := by
  have he : seen.isEmpty = false := by simpa using hs
  rw [readItems, skip_cons (b := 0x2c) rfl]
  split
  · rename_i h
    cases h
  · rename_i h
    cases (List.cons.inj h).1
  · rename_i h
    obtain ⟨rfl, rfl⟩ := List.cons.inj h
    rw [he, if_neg (by simp), if_pos rfl, skip_cons hb]
    split
    · rename_i h
      cases h
    · rename_i h
      exact absurd (List.cons.inj h).1 hc
    · rename_i h
      obtain ⟨rfl, rfl⟩ := List.cons.inj h
      rfl

/-- The items behind the first are read up to the bracket. -/
theorem readItems_tail {item : Bytes → Except Stop (Json × Bytes)} {items : List Json} (h : ∀ v ∈ items, Reads item v)
    {fuel : Nat} (hf : items.length < fuel) {seen : List Json} (hs : seen ≠ []) (rest : Bytes) :
    readItems item fuel seen (items.flatMap (fun v => 0x2c :: v.print) ++ 0x5d :: rest) =
      .ok (seen.reverse ++ normalItems items, rest) := by
  induction items generalizing fuel seen with
  | nil =>
    obtain ⟨fuel, rfl⟩ := Nat.exists_eq_add_one.mpr hf
    simp [readItems, skip_cons (b := 0x5d) rfl, normalItems]
  | cons v items ih =>
    rw [List.length_cons] at hf
    obtain ⟨fuel, rfl⟩ := Nat.exists_eq_add_one.mpr (Nat.zero_lt_of_lt hf)
    obtain ⟨⟨b, bs, hp, hb, hc⟩, hv⟩ := h v List.mem_cons_self
    have hi := ih (fun w hw => h w (List.mem_cons_of_mem _ hw)) (Nat.lt_of_succ_lt_succ hf) (List.cons_ne_nil v.normal seen)
    have hr := hv _ (stops_items items rest)
    rw [hp, List.cons_append] at hr
    rw [List.flatMap_cons, List.cons_append, List.cons_append, List.append_assoc, hp, List.cons_append,
      readItems_comma hs hb hc, hr]
    change readItems item fuel (v.normal :: seen) _ = _
    rw [hi]
    simp [normalItems]

/-- The items of an array are read from behind its bracket. -/
theorem readItems_print {item : Bytes → Except Stop (Json × Bytes)} {items : List Json} (h : ∀ v ∈ items, Reads item v)
    {fuel : Nat} (hf : items.length < fuel) (rest : Bytes) :
    readItems item fuel [] (printItems items ++ rest) = .ok (normalItems items, rest) := by
  obtain ⟨fuel, rfl⟩ := Nat.exists_eq_add_one.mpr (Nat.zero_lt_of_lt hf)
  cases items with
  | nil => rfl
  | cons v items =>
    obtain ⟨⟨b, bs, hp, hb, hc⟩, hv⟩ := h v List.mem_cons_self
    have hr := hv _ (stops_items items rest)
    have ht := readItems_tail (fun w hw => h w (List.mem_cons_of_mem _ hw)) (Nat.lt_of_succ_lt_succ hf)
      (List.cons_ne_nil v.normal []) rest
    rw [hp, List.cons_append] at hr
    rw [printItems_cons, List.append_assoc, List.append_assoc, hp, List.cons_append, readItems, skip_cons hb]
    split
    · rename_i h
      cases h
    · rename_i h
      exact absurd (List.cons.inj h).1 hc
    · rename_i h
      obtain ⟨rfl, rfl⟩ := List.cons.inj h
      change (item (b :: (bs ++ _))).bind _ = _
      rw [List.singleton_append, hr]
      exact ht

/-- What stands behind a field: the next one, or the closing brace. -/
theorem stops_fields (fields : List (String × Json)) (rest : Bytes) :
    Stops (fields.flatMap (fun f => 0x2c :: printField f) ++ 0x7d :: rest) := by
  intro b hb
  cases fields with
  | nil =>
    obtain rfl := Option.some.inj hb
    exact .inr (.inr rfl)
  | cons f fields =>
    obtain rfl := Option.some.inj hb
    exact .inl rfl

/-- A field as it is written: a quote, its name, a quote, a colon and its value. -/
theorem printField_append (f : String × Json) (rest : Bytes) :
    printField f ++ rest = 0x22 :: ((Utf8.encode f.1).flatMap escapeByte ++ 0x22 :: 0x3a :: (f.2.print ++ rest)) := by
  obtain ⟨name, v⟩ := f
  simp [printField, printString]

/-- A field is read from behind the opening quote of its name. -/
theorem readField_print {item : Bytes → Except Stop (Json × Bytes)} {f : String × Json} (h : Reads item f.2) {rest : Bytes}
    (hr : Stops rest) :
    readField item ((Utf8.encode f.1).flatMap escapeByte ++ 0x22 :: 0x3a :: (f.2.print ++ rest)) =
      .ok ((f.1, f.2.normal), rest) := by
  rw [readField]
  change (readString _).bind _ = _
  rw [readString_print]
  change (item (f.2.print ++ rest)).bind _ = _
  rw [h.2 rest hr]
  rfl

/-- The fields behind the first are read up to the brace. -/
theorem readFields_tail {item : Bytes → Except Stop (Json × Bytes)} {fields : List (String × Json)}
    (h : ∀ f ∈ fields, Reads item f.2) {fuel : Nat} (hf : fields.length < fuel) (seen : List (String × Json)) (rest : Bytes) :
    readFields item fuel false seen (fields.flatMap (fun f => 0x2c :: printField f) ++ 0x7d :: rest) =
      .ok (normalFields seen fields, rest) := by
  induction fields generalizing fuel seen with
  | nil =>
    obtain ⟨fuel, rfl⟩ := Nat.exists_eq_add_one.mpr hf
    rfl
  | cons f fields ih =>
    rw [List.length_cons] at hf
    obtain ⟨fuel, rfl⟩ := Nat.exists_eq_add_one.mpr (Nat.zero_lt_of_lt hf)
    have hi := ih (fun g hg => h g (List.mem_cons_of_mem _ hg)) (Nat.lt_of_succ_lt_succ hf) (insertField f.1 f.2.normal seen)
    have hr := readField_print (h f List.mem_cons_self) (stops_fields fields rest)
    rw [List.flatMap_cons, List.cons_append, List.cons_append, List.append_assoc, printField_append, readFields,
      skip_cons (b := 0x2c) rfl]
    change (readField item _).bind _ = _
    rw [hr]
    exact hi

/-- The fields of an object are read from behind its brace. -/
theorem readFields_print {item : Bytes → Except Stop (Json × Bytes)} {fields : List (String × Json)}
    (h : ∀ f ∈ fields, Reads item f.2) {fuel : Nat} (hf : fields.length < fuel) (rest : Bytes) :
    readFields item fuel true [] (printFields fields ++ rest) = .ok (normalFields [] fields, rest) := by
  obtain ⟨fuel, rfl⟩ := Nat.exists_eq_add_one.mpr (Nat.zero_lt_of_lt hf)
  cases fields with
  | nil => rfl
  | cons f fields =>
    have hr := readField_print (h f List.mem_cons_self) (stops_fields fields rest)
    have ht := readFields_tail (fun g hg => h g (List.mem_cons_of_mem _ hg)) (Nat.lt_of_succ_lt_succ hf)
      (insertField f.1 f.2.normal []) rest
    rw [printFields_cons, List.append_assoc, List.append_assoc, printField_append, readFields, skip_cons (b := 0x22) rfl]
    change (readField item _).bind _ = _
    rw [List.singleton_append, hr]
    exact ht

/-- Every item is printed as something. -/
theorem length_le_printItems (items : List Json) : items.length ≤ (printItems items).length := by
  cases items with
  | nil => exact Nat.zero_le _
  | cons v items =>
    have h := length_le_flatMap (w := fun v : Json => 0x2c :: v.print) (fun _ => Nat.zero_lt_succ _) items
    rw [printItems_cons, List.length_append, List.length_append, List.length_cons, List.length_singleton]
    omega

/-- Every field is printed as something. -/
theorem length_le_printFields (fields : List (String × Json)) : fields.length ≤ (printFields fields).length := by
  cases fields with
  | nil => exact Nat.zero_le _
  | cons f fields =>
    have h := length_le_flatMap (w := fun f : String × Json => 0x2c :: printField f) (fun _ => Nat.zero_lt_succ _) fields
    rw [printFields_cons, List.length_append, List.length_append, List.length_cons, List.length_singleton]
    omega

/-- A value that is neither an array nor an object is read from its written form. -/
theorem readValue_scalar {v : Json} {depth : Nat} (h : v.fits depth = true) (ha : ∀ items, v ≠ .arr items)
    (ho : ∀ fields, v ≠ .obj fields) {rest : Bytes} (hr : Stops rest) :
    readValue (depth + 1) (v.print ++ rest) = .ok (v.normal, rest) := by
  cases v with
  | null => rfl
  | bool b => cases b <;> rfl
  | num n =>
    cases n with
    | int n => exact readValue_int h hr
    | float x => simp [fits] at h
  | str s =>
    have hp : print (.str s) ++ rest = 0x22 :: ((Utf8.encode s).flatMap escapeByte ++ 0x22 :: rest) := by
      simp [print, printString]
    rw [hp, readValue, skip_cons rfl]
    change (readString _).bind _ = _
    rw [readString_print]
    rfl
  | arr items => exact absurd rfl (ha items)
  | obj fields => exact absurd rfl (ho fields)

/-- A value that nests within the depth is read from its written form, up to the order of fields. -/
theorem readValue_print {depth : Nat} {v : Json} (h : v.fits depth = true) {rest : Bytes} (hr : Stops rest) :
    readValue (depth + 1) (v.print ++ rest) = .ok (v.normal, rest) := by
  induction depth generalizing v rest with
  | zero =>
    refine readValue_scalar h ?_ ?_ hr
    · rintro items rfl
      cases h
    · rintro fields rfl
      cases h
  | succ depth ih =>
    cases v with
    | arr items =>
      have hi : ∀ v ∈ items, Reads (readValue (depth + 1)) v := fun v hv =>
        have hv : v.fits depth = true := List.all_eq_true.mp h v hv
        ⟨print_eq_cons hv, fun rest hr => ih hv hr⟩
      have hl := length_le_printItems items
      have ha : (print (.arr items)) ++ rest = 0x5b :: (printItems items ++ rest) := rfl
      rw [ha, readValue, skip_cons rfl]
      change (readItems (readValue (depth + 1)) _ [] (printItems items ++ rest)).bind _ = _
      rw [readItems_print hi (by rw [List.length_append]; omega)]
      rfl
    | obj fields =>
      have hi : ∀ f ∈ fields, Reads (readValue (depth + 1)) f.2 := fun f hf =>
        have hv : f.2.fits depth = true := List.all_eq_true.mp h f hf
        ⟨print_eq_cons hv, fun rest hr => ih hv hr⟩
      have hl := length_le_printFields fields
      have ha : (print (.obj fields)) ++ rest = 0x7b :: (printFields fields ++ rest) := rfl
      rw [ha, readValue, skip_cons rfl]
      change (readFields (readValue (depth + 1)) _ true [] (printFields fields ++ rest)).bind _ = _
      rw [readFields_print hi (by rw [List.length_append]; omega)]
      rfl
    | _ => exact readValue_scalar h (by simp) (by simp) hr

/-- What was written is read as it was, up to the order of fields. -/
theorem parse_print {v : Json} (h : v.fits 127 = true) : parse v.print = .ok v.normal := by
  have hr := readValue_print h Stops.nil
  rw [List.append_nil] at hr
  simp only [parse, depthLimit, hr]
  rfl

end Json

end Parley
