import Mathlib.Algebra.Group.Nat.Defs
import Mathlib.Data.List.Forall2
import Mathlib.Data.List.Infix
import Parley.Demo.Todo

/-!
# Where the warnings for reminders stand

The lines of a text are the parts between its line feeds (`lines_eq_iff`), and a line with the word of a reminder has one mark, at
the first such word (`forall₂_todoMarks`). An editor counts the columns of a line in units of UTF-16, and a mark counts bytes, so
the mark covers the word just if everything before it in the line is ASCII (`covers_at_iff`, `todo_marks_stand_by_bytes`).
-/

namespace Parley.Demo

/-! ## Lines -/

/-- A line without the carriage return that it ends with, if it does. -/
def dropReturn (line : List Char) : List Char := if line.getLast? = some '\r' then line.dropLast else line

/-- A text has these lines: each is ended by a line feed, which takes a carriage return before it along, and what is left behind
the last line feed is a line as it is, unless nothing is. -/
inductive Lined : List Char → List (List Char) → Prop
  | nil : Lined [] []
  | last {line : List Char} (hn : line ≠ []) (hf : '\n' ∉ line) : Lined line [line]
  | line {line rest : List Char} {ls : List (List Char)} (hf : '\n' ∉ line) (h : Lined rest ls) :
    Lined (line ++ '\n' :: rest) (dropReturn line :: ls)

theorem dropReturn_cons_cons (c d : Char) (line : List Char) : dropReturn (c :: d :: line) = c :: dropReturn (d :: line) := by
  unfold dropReturn
  rw [List.getLast?_cons_cons]
  split <;> rfl

/-- What is taken from a line stands at its end. -/
theorem exists_dropReturn_append (line : List Char) : ∃ ending, dropReturn line ++ ending = line := by
  unfold dropReturn
  split
  · exact List.dropLast_prefix line
  · exact ⟨[], List.append_nil line⟩

/-- A character that does not end the line begins the first line of the rest. -/
theorem lines_cons {c d : Char} {rest : List Char} (hc : c ≠ '\n') (hd : c = '\r' → d ≠ '\n') {line : List Char}
    {ls : List (List Char)} (h : lines (d :: rest) = line :: ls) : lines (c :: d :: rest) = (c :: line) :: ls := by
  rw [lines]
  · simp only [h]
  · exact hc
  · intro rest' hr he
    exact hd hr (List.cons.inj he).1
  · exact List.cons_ne_nil _ _

/-- The first line goes as far as the first line feed. -/
theorem lines_feed {line : List Char} (hf : '\n' ∉ line) (rest : List Char) :
    lines (line ++ '\n' :: rest) = dropReturn line :: lines rest := by
  induction line with
  | nil => rfl
  | cons c line ih =>
    have hc : c ≠ '\n' := fun he => hf (he ▸ List.mem_cons_self)
    cases line with
    | nil =>
      by_cases hr : c = '\r'
      · subst hr
        rfl
      · have hkept : dropReturn [c] = [c] := by simp [dropReturn, hr]
        rw [hkept]
        exact lines_cons hc (fun he => absurd he hr) rfl
    | cons d line =>
      have hd : d ≠ '\n' := fun he => hf (he ▸ List.mem_cons_of_mem _ List.mem_cons_self)
      rw [dropReturn_cons_cons]
      exact lines_cons hc (fun _ => hd) (ih fun hm => hf (List.mem_cons_of_mem _ hm))

/-- What is left behind the last line feed is a line. -/
theorem lines_last {line : List Char} (hn : line ≠ []) (hf : '\n' ∉ line) : lines line = [line] := by
  induction line with
  | nil => exact absurd rfl hn
  | cons c line ih =>
    have hc : c ≠ '\n' := fun he => hf (he ▸ List.mem_cons_self)
    cases line with
    | nil => rw [lines] <;> simp [hc]
    | cons d line =>
      have hd : d ≠ '\n' := fun he => hf (he ▸ List.mem_cons_of_mem _ List.mem_cons_self)
      exact lines_cons hc (fun _ => hd) (ih (List.cons_ne_nil _ _) fun hm => hf (List.mem_cons_of_mem _ hm))

/-- There is only one way to have lines. -/
theorem Lined.lines_eq {cs : List Char} {ls : List (List Char)} (h : Lined cs ls) : lines cs = ls := by
  induction h with
  | nil => rfl
  | last hn hf => exact lines_last hn hf
  | line hf h ih => rw [lines_feed hf, ih]

/-- Every text has lines: those behind its first line feed are the lines of a shorter text. -/
theorem lined_lines (cs : List Char) : Lined cs (lines cs) := by
  induction hk : cs.length using Nat.strong_induction_on generalizing cs with
  | h k ih =>
    by_cases hf : '\n' ∈ cs
    · obtain ⟨line, rest, rfl, hl⟩ := List.eq_append_cons_of_mem hf
      rw [lines_feed hl]
      refine .line hl (ih rest.length ?_ rest rfl)
      rw [← hk, List.length_append, List.length_cons]
      omega
    · by_cases hn : cs = []
      · subst hn
        exact .nil
      · rw [lines_last hn hf]
        exact .last hn hf

/-- The lines of a text are the parts between its line feeds. -/
theorem lines_eq_iff {cs : List Char} {ls : List (List Char)} : lines cs = ls ↔ Lined cs ls :=
  ⟨fun h => h ▸ lined_lines cs, Lined.lines_eq⟩

/-! ## The first reminder of a line -/

/-- A line has its first reminder behind this part of it. -/
structure FirstTodo (line before : List Char) : Prop where
  here : before ++ todoWord <+: line
  first : ∀ b, b ++ todoWord <+: line → before.length ≤ b.length

/-- A line has one first reminder. -/
theorem FirstTodo.unique {line before before' : List Char} (h : FirstTodo line before) (h' : FirstTodo line before') :
    before = before' := by
  have hp := (List.prefix_append before todoWord).trans h.here
  have hp' := (List.prefix_append before' todoWord).trans h'.here
  have hlen : before.length = before'.length := Nat.le_antisymm (h.first _ h'.here) (h'.first _ h.here)
  exact (List.prefix_of_prefix_length_le hp hp' hlen.le).eq_of_length hlen

/-- Where a line does not begin with the word, its first reminder is the first one of the rest. -/
theorem firstTodo_cons {c : Char} {line before : List Char} (hn : ¬todoWord <+: c :: line) :
    FirstTodo (c :: line) before ↔ ∃ b, FirstTodo line b ∧ c :: b = before := by
  have hbegin (b : List Char) (hb : b ++ todoWord <+: c :: line) : ∃ b', b = c :: b' ∧ b' ++ todoWord <+: line := by
    cases b with
    | nil => exact absurd hb hn
    | cons d b' =>
      obtain ⟨rfl, hrest⟩ := List.cons_prefix_cons.mp hb
      exact ⟨b', rfl, hrest⟩
  constructor
  · intro h
    obtain ⟨b, rfl, hb⟩ := hbegin before h.here
    refine ⟨b, ⟨hb, fun b' hb' => ?_⟩, rfl⟩
    exact Nat.le_of_succ_le_succ (h.first (c :: b') (List.cons_prefix_cons.mpr ⟨rfl, hb'⟩))
  · rintro ⟨b, h, rfl⟩
    refine ⟨List.cons_prefix_cons.mpr ⟨rfl, h.here⟩, fun b' hb' => ?_⟩
    obtain ⟨b', rfl, hrest⟩ := hbegin b' hb'
    exact Nat.succ_le_succ (h.first b' hrest)

/-- What is found before a reminder is what stands before the first. -/
theorem beforeTodo_eq_some_iff {line before : List Char} : beforeTodo line = some before ↔ FirstTodo line before := by
  induction line generalizing before with
  | nil =>
    refine ⟨nofun, fun h => ?_⟩
    have hlen := h.here.length_le
    simp [todoWord] at hlen
  | cons c line ih =>
    simp only [beforeTodo, List.isPrefixOf_iff_prefix]
    split
    · rename_i hp
      constructor
      · intro he
        obtain rfl := Option.some.inj he
        exact ⟨hp, fun _ _ => Nat.zero_le _⟩
      · intro h
        rw [List.eq_nil_of_length_eq_zero (Nat.le_zero.mp (h.first [] hp))]
    · rename_i hn
      simp only [Option.map_eq_some_iff, ih, firstTodo_cons hn]

/-- Nothing is found in a line without a reminder. -/
theorem beforeTodo_eq_none_iff {line : List Char} : beforeTodo line = none ↔ ¬todoWord <:+: line := by
  induction line with
  | nil => simp [beforeTodo, todoWord]
  | cons c line ih =>
    simp only [beforeTodo, List.isPrefixOf_iff_prefix, List.infix_cons_iff]
    split
    · rename_i hp
      simp [hp]
    · rename_i hn
      simp [hn, ih]

/-! ## Units and bytes -/

/-- The units that a character takes in UTF-16: two if it lies above the basic plane, and else one. -/
def unitSize (c : Char) : Nat := if c.toNat < 0x10000 then 1 else 2

/-- The length of a text in units of UTF-16. -/
def units : List Char → Nat
  | [] => 0
  | c :: cs => unitSize c + units cs

@[simp] theorem units_nil : units [] = 0 := rfl

@[simp] theorem units_cons (c : Char) (cs : List Char) : units (c :: cs) = unitSize c + units cs := rfl

@[simp] theorem units_append (cs ds : List Char) : units (cs ++ ds) = units cs + units ds := by
  induction cs with
  | nil => rw [List.nil_append, units_nil, Nat.zero_add]
  | cons c cs ih => rw [List.cons_append, units_cons, units_cons, ih, Nat.add_assoc]

/-- Bytes that were counted before are added to those of the text. -/
theorem foldl_utf8Size (n : Nat) (cs : List Char) : cs.foldl (fun n c => n + c.utf8Size) n = n + byteLength cs := by
  induction cs generalizing n with
  | nil => rfl
  | cons c cs ih => rw [byteLength, List.foldl_cons, List.foldl_cons, ih, ih (0 + c.utf8Size), Nat.zero_add, Nat.add_assoc]

@[simp] theorem byteLength_nil : byteLength [] = 0 := rfl

@[simp] theorem byteLength_cons (c : Char) (cs : List Char) : byteLength (c :: cs) = c.utf8Size + byteLength cs := by
  rw [byteLength, List.foldl_cons, foldl_utf8Size, Nat.zero_add]

@[simp] theorem byteLength_append (cs ds : List Char) : byteLength (cs ++ ds) = byteLength cs + byteLength ds := by
  rw [byteLength, List.foldl_append, foldl_utf8Size, ← byteLength]

/-- A character takes at least as many bytes as units, and as many just if it is of the ASCII range. -/
theorem unitSize_le_utf8Size (c : Char) : unitSize c ≤ c.utf8Size ∧ (c.utf8Size = unitSize c ↔ c.toNat < 128) := by
  have hval : c.val.toNat = c.toNat := rfl
  simp only [unitSize, Char.utf8Size, UInt32.le_iff_toNat_le, UInt32.toNat_ofNatLT, hval]
  split_ifs <;> omega

/-- A text has no more units than bytes. -/
theorem units_le_byteLength (cs : List Char) : units cs ≤ byteLength cs := by
  induction cs with
  | nil => exact Nat.le_refl _
  | cons c cs ih =>
    have hc := (unitSize_le_utf8Size c).1
    simp only [units_cons, byteLength_cons]
    omega

/-- A text has as many bytes as units just if it is ASCII. -/
theorem byteLength_eq_units_iff {cs : List Char} : byteLength cs = units cs ↔ ∀ c ∈ cs, c.toNat < 128 := by
  induction cs with
  | nil => simp
  | cons c cs ih =>
    obtain ⟨hle, heq⟩ := unitSize_le_utf8Size c
    have hrest := units_le_byteLength cs
    rw [List.forall_mem_cons, ← heq, ← ih]
    simp only [units_cons, byteLength_cons]
    omega

/-- Nor more characters. -/
theorem length_le_byteLength (cs : List Char) : cs.length ≤ byteLength cs := by
  induction cs with
  | nil => exact Nat.le_refl _
  | cons c cs ih =>
    have hc := c.utf8Size_pos
    simp only [List.length_cons, byteLength_cons]
    omega

/-- A line is no longer than the text that it is a line of. -/
theorem Lined.byteLength_le {cs : List Char} {ls : List (List Char)} (h : Lined cs ls) :
    ∀ line ∈ ls, byteLength line ≤ byteLength cs := by
  induction h with
  | nil => nofun
  | last hn hf =>
    intro l hl
    obtain rfl := List.mem_singleton.mp hl
    exact Nat.le_refl _
  | @line line rest ls hf h ih =>
    intro l hl
    rw [byteLength_append, byteLength_cons]
    rcases List.mem_cons.mp hl with rfl | hl
    · obtain ⟨ending, hending⟩ := exists_dropReturn_append line
      have hsum := congrArg byteLength hending
      rw [byteLength_append] at hsum
      omega
    · have hrest := ih l hl
      omega

/-- A text has no more lines than characters. -/
theorem Lined.length_le {cs : List Char} {ls : List (List Char)} (h : Lined cs ls) : ls.length ≤ cs.length := by
  induction h with
  | nil => exact Nat.le_refl _
  | last hn hf => exact List.length_pos_iff.mpr hn
  | line hf h ih =>
    simp only [List.length_append, List.length_cons]
    omega

/-! ## Marks -/

/-- The column of a line that an editor reads: it counts units, and takes a column behind the end of the line for the end. -/
def columnRead (line : List Char) (column : UInt32) : Nat := min column.toNat (units line)

/-- As an editor reads it, a mark covers the first reminder of this line, which has this number. -/
structure TodoMark.Covers (m : TodoMark) (number : Nat) (line : List Char) : Prop where
  startLine : m.start.line.toNat = number
  stopLine : m.stop.line.toNat = number
  word : ∃ before, FirstTodo line before ∧ columnRead line m.start.column = units before ∧
    columnRead line m.stop.column = units (before ++ todoWord)

/-- A mark behind the bytes before the first reminder of a line covers it just if these are ASCII characters. -/
theorem covers_at_iff {number : Nat} {line before : List Char} (h : FirstTodo line before) (hn : number < 2 ^ 32)
    (hl : byteLength line < 2 ^ 32) :
    (TodoMark.at number (byteLength before)).Covers number line ↔ ∀ c ∈ before, c.toNat < 128 := by
  obtain ⟨after, rfl⟩ := h.here
  have hword : units todoWord = 4 ∧ byteLength todoWord = 4 ∧ todoWord.length = 4 := by decide
  have hle := units_le_byteLength before
  simp only [byteLength_append] at hl
  have hline : (UInt32.ofNat number).toNat = number := by rw [UInt32.toNat_ofNat', Nat.mod_eq_of_lt hn]
  have hstart : (UInt32.ofNat (byteLength before)).toNat = byteLength before := by
    rw [UInt32.toNat_ofNat', Nat.mod_eq_of_lt (by omega)]
  have hstop : (UInt32.ofNat (byteLength before + todoWord.length)).toNat = byteLength before + 4 := by
    rw [hword.2.2, UInt32.toNat_ofNat', Nat.mod_eq_of_lt (by omega)]
  rw [← byteLength_eq_units_iff]
  constructor
  · rintro ⟨-, -, before', hf, hcolumn, -⟩
    obtain rfl := h.unique hf
    simp only [TodoMark.at, columnRead, hstart, units_append] at hcolumn
    omega
  · intro heq
    refine ⟨hline, hline, before, h, ?_, ?_⟩
    · simp only [TodoMark.at, columnRead, hstart, units_append]
      omega
    · simp only [TodoMark.at, columnRead, hstop, units_append]
      omega

/-- The lines of a text that hold a reminder, with their numbers. -/
def remindingLines (n : Nat) (ls : List (List Char)) : List (List Char × Nat) :=
  (ls.zipIdx n).filter fun p => todoWord <:+: p.1

/-- They are lines of the text, and none has a number beyond the lines. -/
theorem mem_remindingLines {n : Nat} {ls : List (List Char)} {p : List Char × Nat} (h : p ∈ remindingLines n ls) :
    p.1 ∈ ls ∧ p.2 < n + ls.length := by
  obtain ⟨-, hlt, hline⟩ := List.mem_zipIdx (List.mem_of_mem_filter h)
  exact ⟨hline ▸ List.getElem_mem _, hlt⟩

/-- The numbers of the lines with reminders go up. -/
theorem pairwise_remindingLines (n : Nat) (ls : List (List Char)) : (remindingLines n ls).Pairwise fun p q => p.2 < q.2 := by
  have hnumbers : ((ls.zipIdx n).map Prod.snd).Pairwise (· < ·) := by
    rw [List.zipIdx_map_snd]
    exact List.pairwise_lt_range'
  exact (List.pairwise_map.mp hnumbers).filter _

/-- Each line that holds a reminder has one mark, in their order, and no other line has one. -/
theorem forall₂_todoMarks (n : Nat) (ls : List (List Char)) :
    List.Forall₂ (fun p m => ∃ before, FirstTodo p.1 before ∧ m = TodoMark.at p.2 (byteLength before)) (remindingLines n ls)
      (todoMarks n ls) := by
  induction ls generalizing n with
  | nil => exact .nil
  | cons line ls ih =>
    rw [remindingLines, List.zipIdx_cons, todoMarks]
    cases hb : beforeTodo line with
    | none =>
      rw [List.filter_cons_of_neg (by simpa using beforeTodo_eq_none_iff.mp hb)]
      exact ih (n + 1)
    | some before =>
      have hholds : todoWord <:+: line := by
        by_contra hn
        rw [beforeTodo_eq_none_iff.mpr hn] at hb
        cases hb
      rw [List.filter_cons_of_pos (by simpa using hholds)]
      exact .cons ⟨before, beforeTodo_eq_some_iff.mp hb, rfl⟩ (ih (n + 1))

/-- Where the warnings for the reminders of a text stand, in three parts.
1. The lines of the text are those that its line feeds make.
2. Each line that holds a reminder has one mark, no other line has one, and the marks stand in the order of their lines. A mark has
   the number of its line, and its columns are the bytes before the first reminder and four more. In a text of less than `2 ^ 32`
   bytes, an editor reads it as covering that reminder just if all that stands before it in the line is ASCII.
3. In such a text the lines of the marks increase. -/
theorem todo_marks_stand_by_bytes (text : String) :
    Lined text.toList (lines text.toList) ∧
    List.Forall₂
      (fun p m => ∃ before, FirstTodo p.1 before ∧ m = TodoMark.at p.2 (byteLength before) ∧
        (byteLength text.toList < 2 ^ 32 → (m.Covers p.2 p.1 ↔ ∀ c ∈ before, c.toNat < 128)))
      (remindingLines 0 (lines text.toList)) (TodoMark.ofText text) ∧
    (byteLength text.toList < 2 ^ 32 → ((TodoMark.ofText text).map fun m => m.start.line).Pairwise (· < ·)) := by
  have hlines := lined_lines text.toList
  have hmarks := forall₂_todoMarks 0 (lines text.toList)
  have hwithin : ∀ p ∈ remindingLines 0 (lines text.toList),
      p.2 < byteLength text.toList ∧ byteLength p.1 ≤ byteLength text.toList := by
    intro p hp
    obtain ⟨hline, hnumber⟩ := mem_remindingLines hp
    have hcount := hlines.length_le
    have hbytes := length_le_byteLength text.toList
    exact ⟨by omega, hlines.byteLength_le p.1 hline⟩
  refine ⟨hlines, ?_, ?_⟩
  · refine ((List.forall₂_and_left _ _).mpr ⟨hwithin, hmarks⟩).imp ?_
    rintro ⟨line, number⟩ m ⟨⟨hn, hl⟩, before, hfirst, rfl⟩
    refine ⟨before, hfirst, rfl, ?_⟩
    intro hsize
    exact covers_at_iff hfirst (by omega) (by omega)
  · intro hsize
    have hsame : (remindingLines 0 (lines text.toList)).map (fun p => UInt32.ofNat p.2) =
        (TodoMark.ofText text).map fun m => m.start.line := by
      rw [← List.forall₂_eq_eq_eq, List.forall₂_map_left_iff, List.forall₂_map_right_iff]
      refine hmarks.imp ?_
      rintro p m ⟨before, -, rfl⟩
      rfl
    rw [← hsame, List.pairwise_map]
    refine (pairwise_remindingLines 0 _).imp_of_mem ?_
    intro p q hp hq hpq
    have hp := (hwithin p hp).1
    have hq := (hwithin q hq).1
    rwa [UInt32.lt_iff_toNat_lt, UInt32.toNat_ofNat', UInt32.toNat_ofNat', Nat.mod_eq_of_lt (by omega),
      Nat.mod_eq_of_lt (by omega)]

/-- Behind a letter of two bytes the mark is beside the reminder, and in the next line it covers it. -/
theorem todo_marks_stand_by_bytes_twoLines :
    byteLength "é TODO\r\nab TODO".toList < 2 ^ 32 ∧ TodoMark.ofText "é TODO\r\nab TODO" = [.at 0 3, .at 1 3] ∧
      ¬(TodoMark.at 0 3).Covers 0 "é TODO".toList ∧ (TodoMark.at 1 3).Covers 1 "ab TODO".toList := by
  have hsize : byteLength "é TODO\r\nab TODO".toList < 2 ^ 32 := by decide +kernel
  have hmarks : TodoMark.ofText "é TODO\r\nab TODO" = [.at 0 3, .at 1 3] := by decide +kernel
  have hlines : remindingLines 0 (lines "é TODO\r\nab TODO".toList) = [("é TODO".toList, 0), ("ab TODO".toList, 1)] := by
    decide +kernel
  obtain ⟨-, hstand, -⟩ := todo_marks_stand_by_bytes "é TODO\r\nab TODO"
  rw [hlines, hmarks, List.forall₂_cons, List.forall₂_cons] at hstand
  obtain ⟨⟨before, hfirst, -, hbeside⟩, ⟨before', hfirst', -, hcovers⟩, -⟩ := hstand
  have hb : beforeTodo "é TODO".toList = some ['é', ' '] := by decide +kernel
  have hb' : beforeTodo "ab TODO".toList = some ['a', 'b', ' '] := by decide +kernel
  obtain rfl := Option.some.inj (hb.symm.trans (beforeTodo_eq_some_iff.mpr hfirst))
  obtain rfl := Option.some.inj (hb'.symm.trans (beforeTodo_eq_some_iff.mpr hfirst'))
  refine ⟨hsize, hmarks, ?_, ?_⟩
  · rw [hbeside hsize, ← List.forall_iff_forall_mem]
    decide
  · rw [hcovers hsize, ← List.forall_iff_forall_mem]
    decide

/-- The only mark of a text is beside its reminder. -/
theorem todo_mark_beside_reminder :
    remindingLines 0 (lines "é TODO".toList) = [("é TODO".toList, 0)] ∧ TodoMark.ofText "é TODO" = [⟨⟨0, 3⟩, ⟨0, 7⟩⟩] ∧
      ¬(⟨⟨0, 3⟩, ⟨0, 7⟩⟩ : TodoMark).Covers 0 "é TODO".toList := by
  refine ⟨by decide +kernel, by decide +kernel, ?_⟩
  rintro ⟨-, -, before, hfirst, hcolumn, -⟩
  have hb : beforeTodo "é TODO".toList = some ['é', ' '] := by decide +kernel
  obtain rfl := Option.some.inj (hb.symm.trans (beforeTodo_eq_some_iff.mpr hfirst))
  exact absurd hcolumn (by decide +kernel)

end Parley.Demo
