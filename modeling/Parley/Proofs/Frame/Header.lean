import Parley.Proofs.Frame.RoundTrip

/-!
# The first line of a stream

The first line of a stream reaches to the first line feed, or to the end of the stream (`FirstLine`), unless it is too long for a
line (`Overlong`). `Framer.Takes` says all that a framer can make of such a line, and nothing else happens (`line_eq_iff`).
-/

namespace Parley.Frame

/-! ## Lines -/

/-- The first line of a stream, and what stands behind it. -/
inductive FirstLine : Bytes → Bytes → Bytes → Prop
  /-- The line ends with the first line feed. -/
  | fed {text : Bytes} (h : 0x0a ∉ text) (hl : text.length < maxLine) (rest : Bytes) :
      FirstLine (text ++ 0x0a :: rest) (text ++ [0x0a]) rest
  /-- The line ends with the stream. -/
  | last {line : Bytes} (h : 0x0a ∉ line) (hn : line ≠ []) (hl : line.length < maxLine) : FirstLine line line []

/-- As many bytes as a line may have are there, and no line feed is among them. -/
structure Overlong (s : Bytes) : Prop where
  long : maxLine ≤ s.length
  unfed : 0x0a ∉ s.take maxLine

/-- Without a line feed the line is as long as it may be. -/
theorem splitLine_of_not_mem {n : Nat} {s : Bytes} (h : 0x0a ∉ s.take n) : splitLine n s = (s.take n, s.drop n) := by
  induction s generalizing n with
  | nil => cases n <;> simp [splitLine]
  | cons b s ih =>
    cases n with
    | zero => simp [splitLine]
    | succ n =>
      rw [List.take_succ_cons, List.mem_cons, not_or] at h
      simp [splitLine, Ne.symm h.1, ih h.2]

theorem endsLine_of_not_mem {line : Bytes} (h : 0x0a ∉ line) : endsLine line = false := by
  simp only [endsLine, decide_eq_false_iff_not]
  exact fun hl => h (List.mem_of_getLast? hl)

namespace FirstLine

variable {s line rest : Bytes}

/-- The first line is the one that is split off. -/
theorem splitLine_eq (h : FirstLine s line rest) : splitLine maxLine s = (line, rest) := by
  cases h with
  | fed h hl rest => exact splitLine_line h hl rest
  | last h hn hl =>
    rw [← List.take_of_length_le (Nat.le_of_lt hl)] at h
    rw [splitLine_of_not_mem h, List.take_of_length_le (Nat.le_of_lt hl), List.drop_of_length_le (Nat.le_of_lt hl)]

theorem eq_append (h : FirstLine s line rest) : s = line ++ rest := by
  cases h <;> simp

theorem line_ne_nil (h : FirstLine s line rest) : line ≠ [] := by
  cases h with
  | fed h hl rest => simp
  | last h hn hl => exact hn

theorem ne_nil (h : FirstLine s line rest) : s ≠ [] := by
  rw [h.eq_append]
  exact List.append_ne_nil_of_left_ne_nil h.line_ne_nil rest

/-- If the stream holds no line feed, it is its first line. -/
theorem eq_nil_of_not_mem (h : FirstLine s line rest) (hs : 0x0a ∉ s) : rest = [] := by
  cases h with
  | fed h hl rest => simp at hs
  | last h hn hl => rfl

/-- It is not as long as a line may be, unless it has ended. -/
theorem not_overlong (h : FirstLine s line rest) : ¬(line.length = maxLine ∧ endsLine line = false) := by
  rintro ⟨hm, he⟩
  cases h with
  | fed h hl rest => simp [endsLine] at he
  | last h hn hl => omega

end FirstLine

/-- A stream begins with a line, or one that is too long. -/
theorem firstLine_or_overlong {s : Bytes} (hs : s ≠ []) : (∃ line rest, FirstLine s line rest) ∨ Overlong s := by
  by_cases hm : 0x0a ∈ s.take maxLine
  · obtain ⟨text, more, ht, hn⟩ := List.eq_append_cons_of_mem hm
    have hl : text.length < maxLine := by
      have hlen := congrArg List.length ht
      rw [List.length_append, List.length_cons, List.length_take] at hlen
      omega
    have hsplit : s = text ++ 0x0a :: (more ++ s.drop maxLine) := by
      conv => lhs; rw [← List.take_append_drop maxLine s, ht]
      simp
    rw [hsplit]
    exact .inl ⟨_, _, .fed hn hl _⟩
  · by_cases hl : maxLine ≤ s.length
    · exact .inr ⟨hl, hm⟩
    · rw [List.take_of_length_le (by omega)] at hm
      exact .inl ⟨s, [], .last hm hs (by omega)⟩

/-! ## What a framer makes of a line -/

/-- All that a framer makes of the first line of a stream. -/
inductive Framer.Takes (f : Framer) (line : Bytes) : LineStep → Prop
  | declares {n : Nat} (hf : f.declared = none) (hl : lengthLine line = .declares n) (hn : n ≤ f.limit) :
      Takes f line (.more { f with declared := some n })
  | tooLarge {n : Nat} (hf : f.declared = none) (hl : lengthLine line = .declares n) (hn : f.limit < n) :
      Takes f line (.fault (.tooLarge n f.limit) f)
  | malformed {digits : String} (hf : f.declared = none) (hl : lengthLine line = .malformed digits) :
      Takes f line (.fault (.invalidLength digits) f)
  | skips (hl : f.declared = none → lengthLine line = .other) (hb : line.all Text.isAsciiBlank = false) : Takes f line (.more f)
  | missing (hf : f.declared = none) (hb : line.all Text.isAsciiBlank = true) : Takes f line (.fault .missingLength f)
  | ends {n : Nat} (hf : f.declared = some n) (hb : line.all Text.isAsciiBlank = true) (hn : n ≤ maxBuffer) :
      Takes f line (.body n { f with declared := none })
  | overflows {n : Nat} (hf : f.declared = some n) (hb : line.all Text.isAsciiBlank = true) (hn : maxBuffer < n) :
      Takes f line (.fault .capacityOverflow { f with declared := none })

/-- What a framer does with a line is what it says. -/
theorem FirstLine.line_eq_iff {s line rest : Bytes} (h : FirstLine s line rest) {f : Framer} {step : LineStep} :
    f.line line = step ↔ f.Takes line step := by
  obtain ⟨declared, limit⟩ := f
  rw [Framer.line, if_neg h.not_overlong]
  constructor
  · rintro rfl
    -- Behind a length only a blank line counts, so the cases are by whether one was declared.
    cases declared with
    | none =>
      simp only [Option.isNone_none, if_true, Framer.otherLine]
      cases hl : lengthLine line with
      | declares n =>
        by_cases hn : limit < n
        · simpa [hn] using .tooLarge rfl hl hn
        · simpa [hn] using .declares rfl hl (Nat.le_of_not_lt hn)
      | malformed digits => exact .malformed rfl hl
      | other =>
        cases hb : line.all Text.isAsciiBlank with
        | true => simpa using .missing rfl hb
        | false => simpa using .skips (fun _ => hl) hb
    | some n =>
      simp only [Option.isNone_some, Bool.false_eq_true, if_false, Framer.otherLine]
      cases hb : line.all Text.isAsciiBlank with
      | true =>
        by_cases hn : maxBuffer < n
        · simpa [hn] using .overflows rfl hb hn
        · simpa [hn] using .ends rfl hb (Nat.le_of_not_lt hn)
      | false => simpa using .skips (by simp) hb
  · intro ht
    cases ht with
    | declares hf hl hn => simp_all
    | tooLarge hf hl hn => simp_all
    | malformed hf hl => simp_all
    | skips hl hb => cases declared <;> simp_all [Framer.otherLine, -List.all_eq_false]
    | missing hf hb => simp_all [Framer.otherLine, lengthLine_of_blank hb]
    | ends hf hb hn => simp_all [Framer.otherLine, Nat.not_lt.mpr hn]
    | overflows hf hb hn => simp_all [Framer.otherLine]

end Parley.Frame
