import Parley.Proofs.Frame.Calls

/-!
# Header blocks without a body

A header block that declares no length costs what stands in it and nothing else: each of its lines that declares what is no length is
reported, then that the block has none, and what stands behind the block is read as if the stream began there
(`bare_blocks_cost_nothing_else`). That nothing is kept from one result to the next is what `Afresh` says.
-/

namespace Parley.Frame

/-! ## Blocks -/

/-- A header line of a length that is accepted: a text without a line feed, and the line feed that ends it. -/
structure Line where
  text : Bytes
  unfed : 0x0a ∉ text
  short : text.length < maxLine

namespace Line

def bytes (l : Line) : Bytes := l.text ++ [0x0a]

def isBlank (l : Line) : Bool := l.bytes.all Text.isAsciiBlank

/-- The fault of a line that declares a length, but with digits that are none: the number is too large, or not in ASCII digits. -/
def fault? (l : Line) : Option FrameFault :=
  match lengthLine l.bytes with
  | .malformed digits => some (.invalidLength digits)
  | .declares _ | .other => none

/-- The fault of a line names its digits, which denote no length. -/
theorem fault?_eq_some_iff (l : Line) {e : FrameFault} :
    l.fault? = some e ↔ ∃ digits, DigitLine l.bytes digits ∧ ¬IsLength digits ∧ e = .invalidLength (String.ofList digits) := by
  rw [fault?]
  constructor
  · intro h
    generalize hx : lengthLine l.bytes = x at h
    cases lengthLine_eq_iff.mp hx with
    | declares hline hd => cases h
    | malformed hline hd => exact ⟨_, hline, hd, (Option.some.inj h).symm⟩
    | other hline => cases h
  · rintro ⟨digits, hline, hd, rfl⟩
    rw [lengthLine_eq_iff.mpr (.malformed hline hd)]

/-- The first line of a stream that begins with it. -/
theorem firstLine (l : Line) (rest : Bytes) : FirstLine (l.bytes ++ rest) l.bytes rest := by
  have h := FirstLine.fed l.unfed l.short rest
  rwa [List.append_cons] at h

end Line

/-- The line that ends the header block of a frame. -/
def blankLine : Line := ⟨[0x0d], by decide, by decide⟩

theorem isBlank_blankLine : blankLine.isBlank = true := by decide

/-- A header block in which no line declares a length. -/
structure BareBlock where
  lines : List Line
  /-- The line that ends the block. -/
  blank : Line
  lines_bare : ∀ l ∈ lines, l.isBlank = false ∧ (lengthLine l.bytes).length? = none
  blank_isBlank : blank.isBlank = true

namespace BareBlock

def bytes (b : BareBlock) : Bytes := b.lines.flatMap Line.bytes ++ b.blank.bytes

/-- The faults of the lines, and at the end that of the block. -/
def faults (b : BareBlock) : List FrameFault := b.lines.filterMap Line.fault? ++ [.missingLength]

/-- No fault of such a block is fatal. -/
theorem isFatal_of_mem_faults {b : BareBlock} {e : FrameFault} (h : e ∈ b.faults) : e.isFatal = false := by
  rcases List.mem_append.mp h with h | h
  · obtain ⟨l, -, hl⟩ := List.mem_filterMap.mp h
    simp only [Line.fault?] at hl
    split at hl <;> cases hl
    rfl
  · obtain rfl := List.mem_singleton.mp h
    rfl

end BareBlock

/-! ## Nothing is kept -/

/-- Calls each of which finds no length kept, and leaves none. -/
inductive Afresh (limit : Nat) : Bytes → List Reading → Bytes → Prop
  | nil (s : Bytes) : Afresh limit s [] s
  | cons {s t u : Bytes} {x : Reading} {xs : List Reading} (hc : ({ limit } : Framer).Call s x { limit } t)
      (hr : Afresh limit t xs u) : Afresh limit s (x :: xs) u

namespace Afresh

variable {limit : Nat} {s t u : Bytes} {x : Reading} {xs ys : List Reading}

/-- What is read afresh is read by calls. -/
theorem calls (h : Afresh limit s xs t) : ({ limit } : Framer).Calls s xs { limit } t := by
  induction h with
  | nil s => exact .nil _ s
  | cons hc _ ih => exact .cons hc ih

/-- What is read afresh behind what was read afresh is. -/
theorem append (h₁ : Afresh limit s xs t) (h₂ : Afresh limit t ys u) : Afresh limit s (xs ++ ys) u := by
  induction h₁ with
  | nil s => exact h₂
  | cons hc _ ih => exact .cons hc (ih h₂)

/-- The first of the calls are such calls. -/
theorem take (h : Afresh limit s xs t) (k : Nat) : ∃ u, Afresh limit s (xs.take k) u := by
  induction h generalizing k with
  | nil s => exact ⟨s, by simpa using .nil s⟩
  | @cons s t u x xs hc _ ih =>
    cases k with
    | zero => exact ⟨s, .nil s⟩
    | succ k =>
      obtain ⟨v, hv⟩ := ih k
      exact ⟨v, .cons hc hv⟩

/-- A line that is passed over is taken by the first of the calls. -/
theorem skips {line : Bytes} (hs : FirstLine s line t) (hl : lengthLine line = .other)
    (hb : line.all Text.isAsciiBlank = false) (h : Afresh limit t (x :: xs) u) : Afresh limit s (x :: xs) u := by
  cases h with
  | cons hc hr => exact .cons (.more hs (.skips (fun _ => hl) hb) hc) hr

end Afresh

/-- Of a block without a length its faults are read. -/
theorem BareBlock.afresh (limit : Nat) (b : BareBlock) (rest : Bytes) :
    Afresh limit (b.bytes ++ rest) (b.faults.map .fault) rest := by
  obtain ⟨lines, blank, hlines, hblank⟩ := b
  induction lines with
  | nil => exact .cons (.fault (blank.firstLine rest) (.missing rfl hblank)) (.nil rest)
  | cons l lines ih =>
    have hafter := ih fun l' hl' => hlines l' (List.mem_cons_of_mem l hl')
    obtain ⟨hb, hn⟩ := hlines l List.mem_cons_self
    have hfirst := l.firstLine (lines.flatMap Line.bytes ++ blank.bytes ++ rest)
    simp only [bytes, faults, List.flatMap_cons, List.append_assoc] at hafter hfirst ⊢
    cases hl : lengthLine l.bytes with
    | declares n => simp [hl, LengthLine.length?] at hn
    | malformed digits =>
      have hf : l.fault? = some (.invalidLength digits) := by simp [Line.fault?, hl]
      rw [List.filterMap_cons_some hf]
      exact .cons (.fault hfirst (.malformed rfl hl)) hafter
    | other =>
      have hf : l.fault? = none := by simp [Line.fault?, hl]
      rw [List.filterMap_cons_none hf]
      obtain ⟨e, es, hes⟩ := List.exists_cons_of_ne_nil (l := lines.filterMap Line.fault? ++ [.missingLength]) (by simp)
      rw [hes] at hafter ⊢
      exact hafter.skips hfirst hl hb

/-- Of a frame its body is read. -/
theorem afresh_frame {limit : Nat} {body : Bytes} (hb : body.length ≤ room limit) (rest : Bytes) :
    Afresh limit (frame body ++ rest) [.payload body] rest :=
  .cons (Framer.next_eq_some_iff.mp (Framer.next_frame hb true rest)) (.nil rest)

/-- Of frames their bodies are read, in order. -/
theorem afresh_frames {limit : Nat} {bodies : List Bytes} (hb : ∀ body ∈ bodies, body.length ≤ room limit) (rest : Bytes) :
    Afresh limit (bodies.flatMap frame ++ rest) (bodies.map .payload) rest := by
  induction bodies with
  | nil => exact .nil rest
  | cons body bodies ih =>
    rw [List.flatMap_cons, List.append_assoc]
    exact (afresh_frame (hb body List.mem_cons_self) _).append (ih fun b hm => hb b (List.mem_cons_of_mem body hm))

/-! ## Frames among blocks -/

/-- What stands in a stream: a frame, or a header block that declares no length. -/
inductive Item where
  | framed (body : Bytes)
  | bare (block : BareBlock)

namespace Item

def bytes : Item → Bytes
  | .framed body => frame body
  | .bare block => block.bytes

/-- What calls give for it. -/
def readings : Item → List Reading
  | .framed body => [.payload body]
  | .bare block => block.faults.map .fault

/-- Nothing that is read of an item is fatal. -/
theorem isFatal_of_mem_readings {item : Item} {x : Reading} (h : x ∈ item.readings) : x.isFatal = false := by
  cases item with
  | framed body =>
    obtain rfl := List.mem_singleton.mp h
    rfl
  | bare block =>
    obtain ⟨e, he, rfl⟩ := List.mem_map.mp h
    exact BareBlock.isFatal_of_mem_faults he

end Item

/-- Of items what each has is read, in order. -/
theorem afresh_items {limit : Nat} {items : List Item} (hi : ∀ body, .framed body ∈ items → body.length ≤ room limit)
    (rest : Bytes) :
    Afresh limit (items.flatMap Item.bytes ++ rest) (items.flatMap Item.readings) rest := by
  induction items with
  | nil => exact .nil rest
  | cons item items ih =>
    have hafter := ih fun body hb => hi body (List.mem_cons_of_mem item hb)
    rw [List.flatMap_cons, List.flatMap_cons, List.append_assoc]
    refine .append ?_ hafter
    cases item with
    | framed body => exact afresh_frame (hi body List.mem_cons_self) _
    | bare block => exact block.afresh limit _

/-- A stream of frames for which there is room and of header blocks that declare no length, in any order and in whatever pieces, in four
parts.
1. The calls give, in the order of the stream, the body of each frame, and for each block the faults of its lines and then that it
   has no length; from then on the stream is at its end.
2. A line has a fault exactly if it has the shape of a declaration with digits that denote no length, and the fault names these.
3. None of the results is fatal.
4. After each of them the framer is as it was at the beginning, on a reader that delivers what is left of the stream. -/
theorem bare_blocks_cost_nothing_else (limit : Nat) (items : List Item)
    (hi : ∀ body, .framed body ∈ items → body.length ≤ room limit) (r : Reader) (hr : r.Delivers (items.flatMap Item.bytes)) :
    (∀ n, ({ limit } : Framer).polls ((items.flatMap Item.readings).length + n) r =
      items.flatMap Item.readings ++ List.replicate n .ended) ∧
    (∀ (l : Line) (e : FrameFault), l.fault? = some e ↔
      ∃ digits, DigitLine l.bytes digits ∧ ¬IsLength digits ∧ e = .invalidLength (String.ofList digits)) ∧
    (∀ x ∈ items.flatMap Item.readings, x.isFatal = false) ∧
    ∀ k ≤ (items.flatMap Item.readings).length, ∃ (r' : Reader) (taken left : Bytes),
      ({ limit } : Framer).after k r = ({ limit }, r') ∧ r'.Delivers left ∧ items.flatMap Item.bytes = taken ++ left := by
  have hfresh := afresh_items hi []
  rw [List.append_nil] at hfresh
  refine ⟨fun n => ?_, fun l e => l.fault?_eq_some_iff, fun x hx => ?_, fun k hk => ?_⟩
  · obtain ⟨r', -, hd, hp⟩ := hfresh.calls.polls hr n
    rw [hp, Framer.polls_of_delivers_nil n _ hd]
  · obtain ⟨item, -, hx⟩ := List.mem_flatMap.mp hx
    exact Item.isFatal_of_mem_readings hx
  · obtain ⟨left, hleft⟩ := hfresh.take k
    obtain ⟨r', hafter, hd, -⟩ := hleft.calls.polls hr 0
    obtain ⟨taken, htaken⟩ := hleft.calls.suffix
    rw [List.length_take_of_le hk] at hafter
    exact ⟨r', taken, left, hafter, hd, htaken⟩

/-- A block with a line that denotes no length, and one that holds nothing but its end; behind each a frame. -/
def mixedItems : List Item :=
  [.bare
      { lines :=
          [⟨ascii "Content-Length: 99999999999999999999\r", by decide +kernel, by decide +kernel⟩,
            ⟨ascii "X: y", by decide +kernel, by decide +kernel⟩]
        blank := blankLine
        lines_bare := by decide +kernel
        blank_isBlank := isBlank_blankLine },
    .framed (ascii "\x7b\x7d"), .bare ⟨[], ⟨[], by decide, by decide⟩, by decide, by decide⟩, .framed []]

/-- Blocks without a length among frames with and without bodies, which come in pieces. -/
theorem bare_blocks_cost_nothing_else_mixedItems :
    (∀ body, .framed body ∈ mixedItems → body.length ≤ room 2) ∧
    (Reader.ofChunks 7 [mixedItems.flatMap Item.bytes]).Delivers (mixedItems.flatMap Item.bytes) ∧
    ({ limit := 2 } : Framer).polls 6 (.ofChunks 7 [mixedItems.flatMap Item.bytes]) =
      [.fault (.invalidLength "99999999999999999999"), .fault .missingLength, .payload (ascii "\x7b\x7d"), .fault .missingLength,
        .payload [], .ended] := by
  have hi : ∀ body, .framed body ∈ mixedItems → body.length ≤ room 2 := by
    intro body hb
    simp only [mixedItems, List.mem_cons, Item.framed.injEq, reduceCtorEq, List.not_mem_nil, or_false, false_or] at hb
    rcases hb with rfl | rfl <;> decide +kernel
  have hr : (Reader.ofChunks 7 [mixedItems.flatMap Item.bytes]).Delivers (mixedItems.flatMap Item.bytes) := by
    simpa using Reader.delivers_ofChunks (by decide : 0 < 7) [mixedItems.flatMap Item.bytes]
  have hreadings : mixedItems.flatMap Item.readings =
      [.fault (.invalidLength "99999999999999999999"), .fault .missingLength, .payload (ascii "\x7b\x7d"), .fault .missingLength,
        .payload []] := by
    decide +kernel
  have hpolls := (bare_blocks_cost_nothing_else 2 mixedItems hi _ hr).1 1
  rw [hreadings] at hpolls
  exact ⟨hi, hr, hpolls⟩

end Parley.Frame
