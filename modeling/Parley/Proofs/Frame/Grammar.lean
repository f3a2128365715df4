import Mathlib.Data.List.Forall2
import Mathlib.Data.List.Induction
import Mathlib.Data.Nat.Digits.Defs
import Parley.Proofs.Frame.LengthLine

/-!
# The grammar of length declarations

A header line is read by its shape: `Declaration` says which lines declare a length, in characters. They are the lines that match
the pattern `(?i)^Content-Length:\s*(\d+)\s*\r?\n$` (`declaration_iff_matches`). Its blanks can be told apart in more than one
way, since a carriage return and a line feed are blanks, too, but its digits cannot (`Declaration.unique`). What a line is read as
follows from its digits (`lengthLine_follows_grammar`).
-/

namespace Parley

namespace Text

/-! ## Patterns -/

/-- The second text is the first one, in which each letter of the ASCII range has either case. -/
def IsCaseOf (cs ds : List Char) : Prop := List.Forall₂ (fun c d => d = c.toLower ∨ d = c.toUpper) cs ds

/-- A pattern of texts. -/
inductive Pattern where
  | empty
  /-- One character of a class. -/
  | one (p : Char → Bool)
  /-- Any number of characters of a class. -/
  | many (p : Char → Bool)
  | seq (a b : Pattern)
  | opt (a : Pattern)
  /-- A part that is to be picked out. -/
  | group (a : Pattern)

namespace Pattern

/-- A text matches a pattern as a whole, with these parts of it for the groups of the pattern. -/
inductive Matches : Pattern → List Char → List (List Char) → Prop
  | empty : Matches .empty [] []
  | one {p : Char → Bool} {c : Char} (h : p c = true) : Matches (.one p) [c] []
  | many {p : Char → Bool} {cs : List Char} (h : cs.all p = true) : Matches (.many p) cs []
  | seq {a b : Pattern} {cs ds : List Char} {gs hs : List (List Char)} (ha : Matches a cs gs) (hb : Matches b ds hs) :
    Matches (.seq a b) (cs ++ ds) (gs ++ hs)
  | absent {a : Pattern} : Matches (.opt a) [] []
  | present {a : Pattern} {cs : List Char} {gs : List (List Char)} (h : Matches a cs gs) : Matches (.opt a) cs gs
  | group {a : Pattern} {cs : List Char} {gs : List (List Char)} (h : Matches a cs gs) : Matches (.group a) cs (cs :: gs)

/-- One character of a class or more. -/
def many1 (p : Char → Bool) : Pattern := .seq (.one p) (.many p)

/-- A letter in either case of the ASCII range, or another character as it is. -/
def eitherCase (c d : Char) : Bool := d = c.toLower ∨ d = c.toUpper

/-- A text, in which the case of letters does not matter. -/
def word (cs : List Char) : Pattern := cs.foldr (fun c rest => .seq (.one (eitherCase c)) rest) .empty

variable {p : Char → Bool} {a b : Pattern} {cs : List Char} {gs : List (List Char)}

/-- One character of a class. -/
theorem matches_one_iff : (one p).Matches cs gs ↔ ∃ c, p c = true ∧ cs = [c] ∧ gs = [] := by
  constructor
  · intro h
    cases h with
    | one h => exact ⟨_, h, rfl, rfl⟩
  · rintro ⟨c, h, rfl, rfl⟩
    exact .one h

/-- Any number of characters of a class. -/
theorem matches_many_iff : (many p).Matches cs gs ↔ cs.all p = true ∧ gs = [] := by
  constructor
  · intro h
    cases h with
    | many h => exact ⟨h, rfl⟩
  · rintro ⟨h, rfl⟩
    exact .many h

/-- One pattern behind another. -/
theorem matches_seq_iff :
    (seq a b).Matches cs gs ↔ ∃ cs₁ cs₂ gs₁ gs₂, a.Matches cs₁ gs₁ ∧ b.Matches cs₂ gs₂ ∧ cs = cs₁ ++ cs₂ ∧ gs = gs₁ ++ gs₂ := by
  constructor
  · intro h
    cases h with
    | seq ha hb => exact ⟨_, _, _, _, ha, hb, rfl, rfl⟩
  · rintro ⟨cs₁, cs₂, gs₁, gs₂, ha, hb, rfl, rfl⟩
    exact .seq ha hb

/-- A pattern, or nothing. -/
theorem matches_opt_iff : (opt a).Matches cs gs ↔ cs = [] ∧ gs = [] ∨ a.Matches cs gs := by
  constructor
  · intro h
    cases h with
    | absent => exact .inl ⟨rfl, rfl⟩
    | present h => exact .inr h
  · rintro (⟨rfl, rfl⟩ | h)
    · exact .absent
    · exact .present h

/-- What a group stands for is kept before what is kept in it. -/
theorem matches_group_iff : (group a).Matches cs gs ↔ ∃ hs, a.Matches cs hs ∧ gs = cs :: hs := by
  constructor
  · intro h
    cases h with
    | group h => exact ⟨_, h, rfl⟩
  · rintro ⟨hs, h, rfl⟩
    exact .group h

/-- At least one character of a class. -/
theorem matches_many1_iff : (many1 p).Matches cs gs ↔ cs ≠ [] ∧ cs.all p = true ∧ gs = [] := by
  simp only [many1, matches_seq_iff, matches_one_iff, matches_many_iff]
  constructor
  · rintro ⟨_, rest, _, _, ⟨c, hc, rfl, rfl⟩, ⟨hrest, rfl⟩, rfl, rfl⟩
    exact ⟨List.cons_ne_nil _ _, by simp only [List.singleton_append, List.all_cons, hc, hrest, Bool.and_self], rfl⟩
  · rintro ⟨hn, hall, rfl⟩
    cases cs with
    | nil => exact absurd rfl hn
    | cons c rest =>
      rw [List.all_cons, Bool.and_eq_true] at hall
      exact ⟨[c], rest, [], [], ⟨c, hall.1, rfl, rfl⟩, ⟨hall.2, rfl⟩, rfl, rfl⟩

/-- A word in whatever case. -/
theorem matches_word_iff {text : List Char} : (word text).Matches cs gs ↔ IsCaseOf text cs ∧ gs = [] := by
  induction text generalizing cs gs with
  | nil =>
    rw [IsCaseOf, List.forall₂_nil_left_iff]
    constructor
    · rintro ⟨⟩
      exact ⟨rfl, rfl⟩
    · rintro ⟨rfl, rfl⟩
      exact .empty
  | cons c text ih =>
    rw [word, List.foldr_cons, ← word, matches_seq_iff, IsCaseOf, List.forall₂_cons_left_iff]
    simp only [matches_one_iff, ih, IsCaseOf, eitherCase, decide_eq_true_eq]
    constructor
    · rintro ⟨_, ds, _, _, ⟨d, hd, rfl, rfl⟩, ⟨hds, rfl⟩, rfl, rfl⟩
      exact ⟨⟨d, ds, hd, hds, rfl⟩, rfl⟩
    · rintro ⟨⟨d, ds, hd, hds, rfl⟩, rfl⟩
      exact ⟨[d], ds, [], [], ⟨d, hd, rfl, rfl⟩, ⟨hds, rfl⟩, rfl, rfl⟩

end Pattern

/-! ## Numbers -/

/-- The number that decimal digits of the ASCII range denote, the first one the highest. -/
def decimalValue (digits : List Char) : Nat := Nat.ofDigits 10 (digits.reverse.map fun d => d.toNat - '0'.toNat)

/-- The value of digits does not depend on the side from which they are read. -/
theorem numeral_eq_decimalValue (digits : List Char) : numeral digits = decimalValue digits := by
  induction digits using List.reverseRecOn with
  | nil => rfl
  | append_singleton digits d ih =>
    have hzero : '0'.toNat = 48 := rfl
    rw [decimalValue, List.reverse_append, List.reverse_singleton, List.singleton_append, List.map_cons, Nat.ofDigits_cons,
      ← decimalValue, ← ih, numeral, List.foldl_append, ← numeral]
    simp only [List.foldl_cons, List.foldl_nil, hzero]
    omega

end Text

namespace Frame

open Text (Pattern)

/-! ## The name of the header -/

/-- The name of the header with its colon. -/
def headerName : List Char := "Content-Length:".toList

/-- A byte in lower case and its two origins: the letter itself, and the one that stands `0x20` below it. -/
theorem lower_eq_iff {b l u : UInt8} (h : 0x61 ≤ l ∧ l ≤ 0x7a ∧ l = u + 0x20 ∨ (l < 0x41 ∨ 0x7a < l) ∧ u = l) :
    lower b = l ↔ b = l ∨ b = u := by
  have hb := b.toNat_lt
  have hu := u.toNat_lt
  simp only [UInt8.le_iff_toNat_le, UInt8.lt_iff_toNat_lt, ← UInt8.toNat_inj, UInt8.toNat_add, UInt8.reduceToNat] at h
  simp only [lower, UInt8.le_iff_toNat_le, ← UInt8.toNat_inj, UInt8.reduceToNat]
  split_ifs
  · simp only [UInt8.toNat_add, UInt8.reduceToNat]
    omega
  · omega

/-- Each character of the name is one byte in either case, and a byte is taken for it just if it is one of the two. -/
theorem exists_bytes {c : Char} (hc : c ∈ headerName) :
    ∃ l u : UInt8, String.utf8EncodeChar c.toLower = [l] ∧ String.utf8EncodeChar c.toUpper = [u] ∧
      ∀ b, lower b = l ↔ b = l ∨ b = u := by
  have hall : headerName.Forall fun c =>
      let l := UInt8.ofNat c.toLower.toNat
      let u := UInt8.ofNat c.toUpper.toNat
      String.utf8EncodeChar c.toLower = [l] ∧ String.utf8EncodeChar c.toUpper = [u] ∧
        (0x61 ≤ l ∧ l ≤ 0x7a ∧ l = u + 0x20 ∨ (l < 0x41 ∨ 0x7a < l) ∧ u = l) := by decide +kernel
  obtain ⟨hl, hu, hcase⟩ := List.forall_iff_forall_mem.mp hall c hc
  exact ⟨_, _, hl, hu, fun b => lower_eq_iff hcase⟩

/-- Bytes are taken for letters of the name just if they are written for these letters in either case. -/
theorem map_lower_eq_iff {cs : List Char} (hcs : ∀ c ∈ cs, c ∈ headerName) {name : Bytes} :
    name.map lower = cs.flatMap (fun c => String.utf8EncodeChar c.toLower) ↔
      ∃ ds, Text.IsCaseOf cs ds ∧ name = ds.flatMap String.utf8EncodeChar := by
  induction cs generalizing name with
  | nil => simp [Text.IsCaseOf]
  | cons c cs ih =>
    obtain ⟨hc, hrest⟩ := List.forall_mem_cons.mp hcs
    obtain ⟨l, u, hl, hu, hlower⟩ := exists_bytes hc
    rw [List.flatMap_cons, hl, List.singleton_append]
    constructor
    · intro h
      cases name with
      | nil => cases h
      | cons b name =>
        obtain ⟨hb, hname⟩ := List.cons.inj h
        obtain ⟨ds, hds, rfl⟩ := (ih hrest).mp hname
        rcases (hlower b).mp hb with rfl | rfl
        · exact ⟨c.toLower :: ds, .cons (.inl rfl) hds, by rw [List.flatMap_cons, hl, List.singleton_append]⟩
        · exact ⟨c.toUpper :: ds, .cons (.inr rfl) hds, by rw [List.flatMap_cons, hu, List.singleton_append]⟩
    · rintro ⟨_, h, rfl⟩
      cases h with
      | @cons _ d _ ds hd hds =>
        have hsame := (ih hrest).mpr ⟨ds, hds, rfl⟩
        rcases hd with rfl | rfl
        · rw [List.flatMap_cons, hl, List.singleton_append, List.map_cons, hsame, (hlower l).mpr (.inl rfl)]
        · rw [List.flatMap_cons, hu, List.singleton_append, List.map_cons, hsame, (hlower u).mpr (.inr rfl)]

/-- A name is that of the length just if it is written like it but for the case. -/
theorem map_lower_eq_lengthName_iff {name : Bytes} :
    name.map lower = lengthName ↔ ∃ ds, Text.IsCaseOf headerName ds ∧ name = Utf8.encode (String.ofList ds) := by
  have hname : lengthName = headerName.flatMap fun c => String.utf8EncodeChar c.toLower := by decide +kernel
  simp only [hname, map_lower_eq_iff fun c hc => hc, Utf8.encode_ofList]

/-! ## Declarations -/

/-- A line that declares a length, with its digits: the name of the header in either case, blanks, decimal digits of whatever script,
blanks, and the end of the line. -/
inductive Declaration : Bytes → List Char → Prop
  | mk {name before digits after ending : List Char} (hname : Text.IsCaseOf headerName name)
    (hb : ∀ c ∈ before, Text.isBlank c = true) (hn : digits ≠ []) (hd : ∀ c ∈ digits, Text.isDecimalDigit c = true)
    (ha : ∀ c ∈ after, Text.isBlank c = true) (he : ending = ['\n'] ∨ ending = ['\r', '\n']) :
    Declaration (Utf8.encode (String.ofList (name ++ before ++ digits ++ after ++ ending))) digits

/-- The end of the line is two more blanks at most. -/
theorem declaration_iff_digitLine {line : Bytes} {digits : List Char} : Declaration line digits ↔ DigitLine line digits := by
  constructor
  · rintro @⟨name, before, digits, after, ending, hname, hb, hn, hd, ha, he⟩
    have htext : DigitText (before ++ (digits ++ (after ++ ending))) digits := by
      refine .mk (List.all_eq_true.mpr hb) hn (List.all_eq_true.mpr hd) ?_ ?_
      · rw [List.all_append, List.all_eq_true.mpr ha]
        rcases he with rfl | rfl <;> decide
      · rcases he with rfl | rfl <;> simp
    have hline := DigitLine.mk (map_lower_eq_lengthName_iff.mpr ⟨name, hname, rfl⟩) htext
    rwa [← Utf8.encode_append, ← String.ofList_append, ← List.append_assoc, ← List.append_assoc, ← List.append_assoc] at hline
  · rintro @⟨_, _, digits, hletters, @⟨before, _, after, hb, hn, hd, ha, hl⟩⟩
    obtain ⟨name, hname, rfl⟩ := map_lower_eq_lengthName_iff.mp hletters
    obtain ⟨after, rfl⟩ := List.getLast?_eq_some_iff.mp hl
    rw [List.all_append, Bool.and_eq_true] at ha
    have hline := Declaration.mk hname (List.all_eq_true.mp hb) hn (List.all_eq_true.mp hd) (List.all_eq_true.mp ha.1) (.inl rfl)
    rwa [List.append_assoc, List.append_assoc, List.append_assoc, String.ofList_append, Utf8.encode_append] at hline

/-- A line has digits in one way at most. -/
theorem Declaration.unique {line : Bytes} {digits digits' : List Char} (h : Declaration line digits)
    (h' : Declaration line digits') : digits = digits' := by
  have hd := (digitLine_iff.mp (declaration_iff_digitLine.mp h)).2
  have hd' := (digitLine_iff.mp (declaration_iff_digitLine.mp h')).2
  exact Option.some.inj (hd.symm.trans hd')

/-- The pattern `(?i)^Content-Length:\s*(\d+)\s*\r?\n$`. None of its letters has a case outside of the ASCII range. -/
def lengthPattern : Pattern :=
  .seq (.word headerName) <| .seq (.many Text.isBlank) <| .seq (.group (.many1 Text.isDecimalDigit)) <|
    .seq (.many Text.isBlank) <| .seq (.opt (.one (· = '\r'))) (.one (· = '\n'))

/-- A line ends with a line feed, which a carriage return may stand before. -/
theorem matches_ending_iff {cs : List Char} {gs : List (List Char)} :
    (Pattern.seq (.opt (.one (· = '\r'))) (.one (· = '\n'))).Matches cs gs ↔ (cs = ['\n'] ∨ cs = ['\r', '\n']) ∧ gs = [] := by
  simp only [Pattern.matches_seq_iff, Pattern.matches_opt_iff, Pattern.matches_one_iff, decide_eq_true_eq]
  constructor
  · rintro ⟨_, _, _, _, ⟨rfl, rfl⟩ | ⟨_, rfl, rfl, rfl⟩, ⟨_, rfl, rfl, rfl⟩, rfl, rfl⟩
    · exact ⟨.inl rfl, rfl⟩
    · exact ⟨.inr rfl, rfl⟩
  · rintro ⟨rfl | rfl, rfl⟩
    · exact ⟨[], ['\n'], [], [], .inl ⟨rfl, rfl⟩, ⟨_, rfl, rfl, rfl⟩, rfl, rfl⟩
    · exact ⟨['\r'], ['\n'], [], [], .inr ⟨_, rfl, rfl, rfl⟩, ⟨_, rfl, rfl, rfl⟩, rfl, rfl⟩

/-- Declarations are the lines that match the pattern, with what it picks out of them. -/
theorem declaration_iff_matches {line : Bytes} {digits : List Char} :
    Declaration line digits ↔ ∃ cs, line = Utf8.encode (String.ofList cs) ∧ lengthPattern.Matches cs [digits] := by
  constructor
  · rintro @⟨name, before, digits, after, ending, hname, hb, hn, hd, ha, he⟩
    refine ⟨_, rfl, ?_⟩
    have hmatch : lengthPattern.Matches (name ++ (before ++ (digits ++ (after ++ ending)))) [digits] :=
      .seq (Pattern.matches_word_iff.mpr ⟨hname, rfl⟩) <| .seq (.many (List.all_eq_true.mpr hb)) <|
        .seq (.group (Pattern.matches_many1_iff.mpr ⟨hn, List.all_eq_true.mpr hd, rfl⟩)) <|
          .seq (.many (List.all_eq_true.mpr ha)) (matches_ending_iff.mpr ⟨he, rfl⟩)
    rwa [← List.append_assoc, ← List.append_assoc, ← List.append_assoc] at hmatch
  · rintro ⟨cs, rfl, h⟩
    obtain ⟨name, _, _, _, hword, hbehind, rfl, hpicked⟩ := Pattern.matches_seq_iff.mp h
    obtain ⟨hname, rfl⟩ := Pattern.matches_word_iff.mp hword
    obtain ⟨before, _, _, _, hblanks, hrest, rfl, rfl⟩ := Pattern.matches_seq_iff.mp hbehind
    obtain ⟨hb, rfl⟩ := Pattern.matches_many_iff.mp hblanks
    obtain ⟨picked, _, _, _, hgroup, hafter, rfl, rfl⟩ := Pattern.matches_seq_iff.mp hrest
    obtain ⟨_, hdigits, rfl⟩ := Pattern.matches_group_iff.mp hgroup
    obtain ⟨hn, hd, rfl⟩ := Pattern.matches_many1_iff.mp hdigits
    obtain ⟨after, ending, _, _, hblanks', hending, rfl, rfl⟩ := Pattern.matches_seq_iff.mp hafter
    obtain ⟨ha, rfl⟩ := Pattern.matches_many_iff.mp hblanks'
    obtain ⟨he, rfl⟩ := matches_ending_iff.mp hending
    obtain rfl : digits = picked := (List.cons.inj hpicked).1
    have hline := Declaration.mk hname (List.all_eq_true.mp hb) hn (List.all_eq_true.mp hd) (List.all_eq_true.mp ha) he
    rwa [List.append_assoc, List.append_assoc, List.append_assoc] at hline

/-- How a header line is read, in four parts.
1. It declares a length just if it is a declaration whose digits are ASCII and denote that length, which is less than `2 ^ 64`.
2. It is malformed just if it is a declaration with other digits: they are not all ASCII, or denote too large a number.
3. It is some other line just if it is no declaration.
4. The declarations are the lines that match the pattern of the header, which picks their digits out. -/
theorem lengthLine_follows_grammar (line : Bytes) :
    (∀ n, lengthLine line = .declares n ↔
      n < 2 ^ 64 ∧ ∃ digits, Declaration line digits ∧ (∀ d ∈ digits, Text.isAsciiDigit d = true) ∧ Text.decimalValue digits = n) ∧
    (∀ text, lengthLine line = .malformed text ↔
      ∃ digits, Declaration line digits ∧ text = String.ofList digits ∧
        ((∃ d ∈ digits, Text.isAsciiDigit d = false) ∨ 2 ^ 64 ≤ Text.decimalValue digits)) ∧
    (lengthLine line = .other ↔ ∀ digits, ¬Declaration line digits) ∧
    ∀ digits, Declaration line digits ↔ ∃ cs, line = Utf8.encode (String.ofList cs) ∧ lengthPattern.Matches cs [digits] := by
  have hlength (digits : List Char) : IsLength digits ↔
      (∀ d ∈ digits, Text.isAsciiDigit d = true) ∧ Text.decimalValue digits < 2 ^ 64 := by
    rw [IsLength, List.all_eq_true, Text.numeral_eq_decimalValue]
    rfl
  simp only [lengthLine_eq_iff, declaration_iff_digitLine]
  refine ⟨?_, ?_, ?_, fun digits => declaration_iff_digitLine.symm.trans declaration_iff_matches⟩
  · intro n
    constructor
    · intro h
      cases h with
      | @declares digits hline hd =>
        obtain ⟨hascii, hlt⟩ := (hlength digits).mp hd
        rw [Text.numeral_eq_decimalValue]
        exact ⟨hlt, digits, hline, hascii, rfl⟩
    · rintro ⟨hlt, digits, hline, hascii, rfl⟩
      rw [← Text.numeral_eq_decimalValue]
      exact .declares hline ((hlength digits).mpr ⟨hascii, hlt⟩)
  · intro text
    have hnot (digits : List Char) : ¬IsLength digits ↔
        (∃ d ∈ digits, Text.isAsciiDigit d = false) ∨ 2 ^ 64 ≤ Text.decimalValue digits := by
      rw [hlength, not_and_or, Nat.not_lt]
      simp
    constructor
    · intro h
      cases h with
      | @malformed digits hline hd => exact ⟨digits, hline, rfl, (hnot digits).mp hd⟩
    · rintro ⟨digits, hline, rfl, hd⟩
      exact .malformed hline ((hnot digits).mpr hd)
  · constructor
    · intro h
      cases h with
      | other h => exact h
    · exact .other

example : lengthLine (ascii "content-LENGTH:\t007 \r\n") = .declares 7 ∧ lengthLine (ascii "Content-Length: +7\r\n") = .other := by
  decide +kernel

end Frame

end Parley
