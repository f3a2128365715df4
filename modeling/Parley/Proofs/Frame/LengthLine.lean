import Parley.Proofs.Frame.Reader
import Parley.Proofs.Json.RoundTrip

/-!
# Header lines that declare a length

A line has the shape of a declaration if `DigitLine` holds of it: the name of the length, and behind it digits between blanks, the
last of which is the line feed. What such a line is read as depends on its digits only, and every other line is some other line
(`lengthLine_eq_iff`). A declaration is ended by its line feed, is not blank, and has no second colon (`lengthLine_shape`).
-/

namespace Parley

namespace Text

/-- No blank is a digit, of whatever script. -/
theorem isDecimalDigit_of_isBlank {c : Char} (h : isBlank c = true) : isDecimalDigit c = false := by
  have hgaps : ∀ r ∈ decimalDigitRanges, 0x20 < r.1 ∧ (r.2 < 0x85 ∨ 0xa0 < r.1) ∧ (r.2 < 0x1680 ∨ 0x1680 < r.1) ∧
      (r.2 < 0x2000 ∨ 0x205f < r.1) ∧ (r.2 < 0x3000 ∨ 0x3000 < r.1) := by decide
  simp only [isBlank, Bool.or_eq_true, Bool.and_eq_true, decide_eq_true_eq, beq_iff_eq] at h
  rw [isDecimalDigit, List.any_eq_false]
  intro r hr hin
  have hgap := hgaps r hr
  simp only [Bool.and_eq_true, decide_eq_true_eq] at hin
  omega

/-- No digit is blank. -/
theorem isBlank_of_isDecimalDigit {c : Char} (h : isDecimalDigit c = true) : isBlank c = false := by
  cases hb : isBlank c with
  | false => rfl
  | true => rw [isDecimalDigit_of_isBlank hb] at h; cases h

end Text

namespace Utf8

/-- A byte of the ASCII range is written for the character of that number only. -/
theorem toNat_of_mem_utf8EncodeChar {c : Char} {b : UInt8} (hm : b ∈ String.utf8EncodeChar c) (hb : b.toNat < 0x80) :
    c.toNat = b.toNat := by
  have hv : c.toNat = c.val.toNat := rfl
  simp only [String.utf8EncodeChar] at hm
  split at hm
  · obtain rfl := List.mem_singleton.mp hm
    rw [hv, UInt8.toNat_ofNat']
    omega
  · -- The bytes of every other character are 0x80 or more.
    exfalso
    split at hm
    · simp only [List.mem_cons, List.not_mem_nil, or_false] at hm
      rcases hm with rfl | rfl <;> simp only [UInt8.toNat_ofNat'] at hb <;> omega
    · split at hm
      · simp only [List.mem_cons, List.not_mem_nil, or_false] at hm
        rcases hm with rfl | rfl | rfl <;> simp only [UInt8.toNat_ofNat'] at hb <;> omega
      · simp only [List.mem_cons, List.not_mem_nil, or_false] at hm
        rcases hm with rfl | rfl | rfl | rfl <;> simp only [UInt8.toNat_ofNat'] at hb <;> omega

end Utf8

namespace Frame

/-! ## The shape of a declaration -/

/-- Digits between blanks, of which the last is a line feed. -/
inductive DigitText : List Char → List Char → Prop
  | mk {before digits after : List Char} (hb : before.all Text.isBlank = true) (hn : digits ≠ [])
      (hd : digits.all Text.isDecimalDigit = true) (ha : after.all Text.isBlank = true) (hl : after.getLast? = some '\n') :
      DigitText (before ++ (digits ++ after)) digits

/-- A line of the shape of a declaration, and its digits: they stand behind the name, in which the case of letters does not matter. -/
inductive DigitLine : Bytes → List Char → Prop
  | mk {name : Bytes} {cs digits : List Char} (hname : name.map lower = lengthName) (hc : DigitText cs digits) :
      DigitLine (name ++ Utf8.encode (String.ofList cs)) digits

/-- Digits that denote a length. -/
def IsLength (digits : List Char) : Prop := digits.all Text.isAsciiDigit = true ∧ Text.numeral digits < Nat.pow 2 64

instance (digits : List Char) : Decidable (IsLength digits) := inferInstanceAs (Decidable (_ ∧ _))

theorem DigitText.blank_or_digit {cs digits : List Char} (h : DigitText cs digits) :
    ∀ c ∈ cs, Text.isBlank c = true ∨ Text.isDecimalDigit c = true := by
  obtain ⟨hb, -, hd, ha, -⟩ := h
  intro c hc
  rcases List.mem_append.mp hc with hc | hc
  · exact .inl (List.all_eq_true.mp hb c hc)
  · rcases List.mem_append.mp hc with hc | hc
    · exact .inr (List.all_eq_true.mp hd c hc)
    · exact .inl (List.all_eq_true.mp ha c hc)

/-- Such a text ends its line. -/
theorem DigitText.getLast? {cs digits : List Char} (h : DigitText cs digits) : cs.getLast? = some '\n' := by
  obtain ⟨-, -, -, -, hl⟩ := h
  simp [List.getLast?_append, hl]

/-- Since no blank is a digit, the digits are the first that are found. -/
theorem DigitText.lengthDigits?_eq {cs digits : List Char} (h : DigitText cs digits) : lengthDigits? cs = some digits := by
  obtain @⟨before, digits, after, hb, hn, hd, ha, hl⟩ := h
  have hfirst : (before ++ (digits ++ after)).dropWhile Text.isBlank = digits ++ after := by
    cases digits with
    | nil => exact absurd rfl hn
    | cons d digits =>
      have hd : Text.isDecimalDigit d = true := by simp only [List.all_cons, Bool.and_eq_true] at hd; exact hd.1
      rw [List.dropWhile_append_of_pos (List.all_eq_true.mp hb)]
      simp [Text.isBlank_of_isDecimalDigit hd]
  cases after with
  | nil => cases hl
  | cons a after =>
    have hstop : Text.isDecimalDigit a = false := by
      simp only [List.all_cons, Bool.and_eq_true] at ha
      exact Text.isDecimalDigit_of_isBlank ha.1
    have htake : (digits ++ a :: after).takeWhile Text.isDecimalDigit = digits := by
      rw [List.takeWhile_append_of_pos (List.all_eq_true.mp hd)]
      simp [hstop]
    have hdrop : (digits ++ a :: after).dropWhile Text.isDecimalDigit = a :: after := by
      rw [List.dropWhile_append_of_pos (List.all_eq_true.mp hd)]
      simp [hstop]
    simp only [lengthDigits?, hfirst, htake, hdrop]
    exact if_pos ⟨hn, ha, hl⟩

/-- Digits are found in a text just if it has nothing else. -/
theorem lengthDigits?_eq_some_iff {cs digits : List Char} : lengthDigits? cs = some digits ↔ DigitText cs digits := by
  constructor
  · intro h
    simp only [lengthDigits?] at h
    split at h
    · rename_i hshape
      obtain rfl := Option.some.inj h
      obtain ⟨hn, ha, hl⟩ := hshape
      have htext : DigitText (cs.takeWhile Text.isBlank ++ _) _ := .mk List.all_takeWhile hn List.all_takeWhile ha hl
      rwa [List.takeWhile_append_dropWhile, List.takeWhile_append_dropWhile] at htext
    · cases h
  · exact DigitText.lengthDigits?_eq

/-- The digits of a line are found behind its name. -/
theorem digitLine_iff {line : Bytes} {digits : List Char} :
    DigitLine line digits ↔ (line.take lengthName.length).map lower = lengthName ∧
      ((Utf8.decode? (line.drop lengthName.length)).bind fun s => lengthDigits? s.toList) = some digits := by
  constructor
  · rintro @⟨name, cs, digits, hname, hc⟩
    have hlen : lengthName.length = name.length := by rw [← hname, List.length_map]
    rw [hlen, List.take_left, List.drop_left, Utf8.decode?_encode]
    exact ⟨hname, by simpa using lengthDigits?_eq_some_iff.mpr hc⟩
  · rintro ⟨hname, htext⟩
    obtain ⟨s, hs, hd⟩ := Option.bind_eq_some_iff.mp htext
    have hline := DigitLine.mk hname (lengthDigits?_eq_some_iff.mp hd)
    rwa [String.ofList_toList, Utf8.encode_of_decode? hs, List.take_append_drop] at hline

/-- All that is read of a header line. -/
inductive LengthLine.Says (line : Bytes) : LengthLine → Prop
  | declares {digits : List Char} (h : DigitLine line digits) (hd : IsLength digits) :
      Says line (.declares (Text.numeral digits))
  | malformed {digits : List Char} (h : DigitLine line digits) (hd : ¬IsLength digits) :
      Says line (.malformed (String.ofList digits))
  | other (h : ∀ digits, ¬DigitLine line digits) : Says line .other

/-- A line says what it says, and that alone. -/
theorem lengthLine_eq_iff {line : Bytes} {x : LengthLine} : lengthLine line = x ↔ LengthLine.Says line x := by
  constructor
  · rintro rfl
    rw [lengthLine]
    split
    · rename_i hname
      split
      · rename_i digits htext
        have hline := digitLine_iff.mpr ⟨hname, htext⟩
        by_cases hd : IsLength digits
        · exact (if_pos hd).symm ▸ .declares hline hd
        · exact (if_neg hd).symm ▸ .malformed hline hd
      · rename_i htext
        refine .other fun digits hline => ?_
        rw [(digitLine_iff.mp hline).2] at htext
        cases htext
    · rename_i hname
      exact .other fun digits hline => hname (digitLine_iff.mp hline).1
  · intro h
    cases h with
    | declares h hd =>
      obtain ⟨hname, htext⟩ := digitLine_iff.mp h
      rw [lengthLine, if_pos hname, htext]
      exact if_pos hd
    | malformed h hd =>
      obtain ⟨hname, htext⟩ := digitLine_iff.mp h
      rw [lengthLine, if_pos hname, htext]
      exact if_neg hd
    | other h =>
      rw [lengthLine]
      split
      · rename_i hname
        split
        · rename_i digits htext
          exact absurd (digitLine_iff.mpr ⟨hname, htext⟩) (h digits)
        · rfl
      · rfl

/-- A line that is about the length has digits. -/
theorem exists_digitLine {line : Bytes} (h : lengthLine line ≠ .other) : ∃ digits, DigitLine line digits := by
  generalize hx : lengthLine line = x at h
  cases lengthLine_eq_iff.mp hx with
  | declares hline hd => exact ⟨_, hline⟩
  | malformed hline hd => exact ⟨_, hline⟩
  | other hline => exact absurd rfl h

/-- A line that is not some other line has the name in front, and behind it blanks and digits up to its line feed. -/
theorem lengthLine_shape {line : Bytes} (h : lengthLine line ≠ .other) :
    (line.take lengthName.length).map lower = lengthName ∧ endsLine line = true ∧ 0x3a ∉ line.drop lengthName.length := by
  obtain ⟨digits, hline⟩ := exists_digitLine h
  refine ⟨(digitLine_iff.mp hline).1, ?_⟩
  obtain @⟨name, cs, digits, hname, hc⟩ := hline
  have hlen : lengthName.length = name.length := by rw [← hname, List.length_map]
  rw [hlen, List.drop_left, Utf8.encode_ofList]
  constructor
  · obtain ⟨text, rfl⟩ := List.getLast?_eq_some_iff.mp hc.getLast?
    have hfeed : String.utf8EncodeChar '\n' = [0x0a] := by decide
    simp [endsLine, hfeed]
  · intro hm
    obtain ⟨c, hm, hb⟩ := List.mem_flatMap.mp hm
    have hcolon : c = ':' := Char.toNat_inj.mp (Utf8.toNat_of_mem_utf8EncodeChar hb (by decide))
    rcases hc.blank_or_digit c hm with hk | hk <;> rw [hcolon] at hk <;> exact absurd hk (by decide)

/-- A line that the stream cut off is some other line. -/
theorem lengthLine_of_not_endsLine {line : Bytes} (h : endsLine line = false) : lengthLine line = .other := by
  refine Decidable.byContradiction fun hn => ?_
  rw [(lengthLine_shape hn).2.1] at h
  cases h

/-- A blank line is some other line. -/
theorem lengthLine_of_blank {line : Bytes} (h : line.all Text.isAsciiBlank = true) : lengthLine line = .other := by
  refine Decidable.byContradiction fun hn => ?_
  obtain ⟨hname, -, -⟩ := lengthLine_shape hn
  have hc : lengthName = 0x63 :: lengthName.tail := by decide +kernel
  cases line with
  | nil =>
    rw [hc] at hname
    cases hname
  | cons b line =>
    have hlen : lengthName.length = 14 + 1 := by decide +kernel
    rw [hlen, List.take_succ_cons, List.map_cons, hc] at hname
    have hlower : lower b = 0x63 := (List.cons.inj hname).1
    simp only [List.all_cons, Bool.and_eq_true, Text.isAsciiBlank, Bool.or_eq_true, beq_iff_eq] at h
    rcases h.1 with (((rfl | rfl) | rfl) | rfl) | rfl <;> exact absurd hlower (by decide)

/-- A line that has the shape of a declaration is not blank. -/
theorem not_blank_of_lengthLine {line : Bytes} (h : lengthLine line ≠ .other) : line.all Text.isAsciiBlank = false := by
  cases hb : line.all Text.isAsciiBlank with
  | true => exact absurd (lengthLine_of_blank hb) h
  | false => rfl

/-- The length that a line declares. -/
def LengthLine.length? : LengthLine → Option Nat
  | .declares n => some n
  | .malformed _ | .other => none

end Frame

end Parley
