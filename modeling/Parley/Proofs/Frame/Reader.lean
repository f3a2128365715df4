import Parley.Frame.Reader

/-!
# Reading in pieces

A framer takes from a buffered reader what `Framer.next` takes from the bytes themselves (`poll_delivers`). So the outcomes of its
calls depend on the bytes of the stream only: neither on the pieces in which they come, nor on the size of the buffer, nor on how
many of them have arrived when a call is made (`polls_of_chunks`).
-/

namespace Parley.Frame

/-! ## Lines -/

/-- Before a line that ends by its line feed more may stand, as long as it is no line feed. -/
theorem endsLine_cons {b : UInt8} (h : b ≠ 0x0a) (line : Bytes) : endsLine (b :: line) = endsLine line := by
  cases line with
  | nil => simp [endsLine, h]
  | cons c line => simp [endsLine, List.getLast?_cons]

/-- There is no line just if there is nothing, or no room. -/
theorem splitLine_eq_nil_iff {n : Nat} {bytes : Bytes} : (splitLine n bytes).1 = [] ↔ n = 0 ∨ bytes = [] := by
  cases n with
  | zero => simp [splitLine]
  | succ n =>
    cases bytes with
    | nil => simp [splitLine]
    | cons b bytes => by_cases hb : b = 0x0a <;> simp [splitLine, hb]

/-- A line is no longer than there is room. -/
theorem length_splitLine_le (n : Nat) (bytes : Bytes) : (splitLine n bytes).1.length ≤ n := by
  induction bytes generalizing n with
  | nil => cases n <;> simp [splitLine]
  | cons b bytes ih =>
    cases n with
    | zero => simp [splitLine]
    | succ n =>
      by_cases hb : b = 0x0a
      · simp [splitLine, hb]
      · simpa [splitLine, hb] using ih n

/-- A line that has ended is the line, whatever comes behind it. -/
theorem splitLine_append_of_endsLine {n : Nat} {bytes : Bytes} (h : endsLine (splitLine n bytes).1 = true) (more : Bytes) :
    splitLine n (bytes ++ more) = ((splitLine n bytes).1, (splitLine n bytes).2 ++ more) := by
  induction bytes generalizing n with
  | nil => cases n <;> simp [splitLine, endsLine] at h
  | cons b bytes ih =>
    cases n with
    | zero => simp [splitLine, endsLine] at h
    | succ n =>
      by_cases hb : b = 0x0a
      · simp [splitLine, hb]
      · have h : endsLine (splitLine n bytes).1 = true := by simpa [splitLine, hb, endsLine_cons hb] using h
        simp [splitLine, hb, ih h]

/-- A line that has not ended goes on in what comes behind it, up to the limit. -/
theorem splitLine_append_of_not_endsLine {n : Nat} {bytes : Bytes} (h : endsLine (splitLine n bytes).1 = false) (more : Bytes) :
    splitLine n (bytes ++ more) =
      ((splitLine n bytes).1 ++ (splitLine (n - (splitLine n bytes).1.length) ((splitLine n bytes).2 ++ more)).1,
        (splitLine (n - (splitLine n bytes).1.length) ((splitLine n bytes).2 ++ more)).2) := by
  induction bytes generalizing n with
  | nil => cases n <;> simp [splitLine]
  | cons b bytes ih =>
    cases n with
    | zero => simp [splitLine]
    | succ n =>
      by_cases hb : b = 0x0a
      · simp [splitLine, hb, endsLine] at h
      · have h : endsLine (splitLine n bytes).1 = false := by simpa [splitLine, hb, endsLine_cons hb] using h
        simp [splitLine, hb, ih h]

/-- A line that has ended, or is as long as a line may be, is the line, whatever comes behind it. -/
theorem splitLine_append_of_full {n : Nat} {bytes : Bytes}
    (h : endsLine (splitLine n bytes).1 = true ∨ (splitLine n bytes).1.length = n) (more : Bytes) :
    splitLine n (bytes ++ more) = ((splitLine n bytes).1, (splitLine n bytes).2 ++ more) := by
  cases he : endsLine (splitLine n bytes).1 with
  | true => exact splitLine_append_of_endsLine he more
  | false =>
    have hm := h.resolve_left (by simp [he])
    rw [splitLine_append_of_not_endsLine he, hm, Nat.sub_self]
    simp [splitLine]

/-! ## The reader -/

/-- A reader that has room, of which no read fails, and that delivers these bytes. -/
def Reader.Delivers (r : Reader) (bytes : Bytes) : Prop :=
  0 < r.capacity ∧ ∃ chunks : List Bytes, r.pieces = chunks.map .data ∧ r.buffer ++ chunks.flatten = bytes

/-- A reader over these pieces, with nothing in its buffer. -/
def Reader.ofChunks (capacity : Nat) (chunks : List Bytes) : Reader := { capacity, pieces := chunks.map .data }

/-- A reader of pieces delivers them all. -/
theorem Reader.delivers_ofChunks {capacity : Nat} (h : 0 < capacity) (chunks : List Bytes) :
    (ofChunks capacity chunks).Delivers chunks.flatten :=
  ⟨h, chunks, rfl, List.nil_append _⟩

namespace Reader.Delivers

variable {r : Reader} {bytes : Bytes}

/-- A reader holds as many bytes as it delivers. -/
theorem size_eq (h : r.Delivers bytes) : r.size = bytes.length := by
  obtain ⟨-, chunks, hp, rfl⟩ := h
  obtain ⟨capacity, buffer, pieces⟩ := r
  subst hp
  induction chunks generalizing buffer with
  | nil => simp [Reader.size]
  | cons chunk chunks ih =>
    have hs : Reader.size ⟨capacity, buffer, (chunk :: chunks).map .data⟩ =
        Reader.size ⟨capacity, buffer ++ chunk, chunks.map .data⟩ := by
      simp [Reader.size]
    rw [hs, ih (buffer ++ chunk), List.flatten_cons, List.append_assoc]

/-- Bytes are delivered from the buffer. -/
theorem advance {part rest : Bytes} (h : r.Delivers bytes) (hb : r.buffer = part ++ rest) :
    ∃ left, bytes = part ++ left ∧ { r with buffer := rest }.Delivers left := by
  obtain ⟨hc, chunks, hp, rfl⟩ := h
  exact ⟨rest ++ chunks.flatten, by rw [hb, List.append_assoc], hc, chunks, hp, rfl⟩

end Reader.Delivers

/-- Pieces without bytes are passed over. -/
theorem dropEmpty_data (chunks : List Bytes) :
    dropEmpty (chunks.map .data) = (chunks.dropWhile (·.isEmpty)).map .data := by
  induction chunks with
  | nil => rfl
  | cons chunk chunks ih =>
    cases chunk with
    | nil => simpa [dropEmpty] using ih
    | cons b chunk => simp [dropEmpty]

/-- Empty pieces deliver nothing. -/
theorem flatten_dropWhile_isEmpty (chunks : List Bytes) : (chunks.dropWhile (·.isEmpty)).flatten = chunks.flatten := by
  induction chunks with
  | nil => rfl
  | cons chunk chunks ih =>
    cases chunk with
    | nil => simpa using ih
    | cons b chunk => simp

/-- Filling the buffer changes nothing in what is delivered, and leaves it empty at the end of the stream only. -/
theorem Reader.Delivers.fill {r : Reader} {bytes : Bytes} (h : r.Delivers bytes) :
    ∃ r', r.fill = .ok r' ∧ r'.Delivers bytes ∧ (r'.buffer = [] → bytes = []) := by
  by_cases hb : r.buffer = []
  · obtain ⟨hc, chunks, hp, rfl⟩ := h
    have hd := flatten_dropWhile_isEmpty chunks
    have he := List.head?_dropWhile_not (fun chunk : Bytes => chunk.isEmpty) chunks
    simp only [Reader.fill, hb, ne_eq, not_true_eq_false, if_false, hp, dropEmpty_data, List.nil_append]
    cases hk : chunks.dropWhile (·.isEmpty) with
    | nil =>
      rw [hk, List.flatten_nil] at hd
      rw [← hd]
      exact ⟨_, rfl, ⟨hc, [], rfl, by simp⟩, fun _ => rfl⟩
    | cons chunk rest =>
      rw [hk] at hd he
      have hn : chunk ≠ [] := by simpa using he
      refine ⟨_, rfl, ⟨hc, chunk.drop r.capacity :: rest, rfl, ?_⟩, fun ht => ?_⟩
      · rw [List.flatten_cons, ← List.append_assoc, List.take_append_drop, ← hd, List.flatten_cons]
      · rcases List.take_eq_nil_iff.mp ht with hz | hz
        · omega
        · exact absurd hz hn
  · exact ⟨r, by rw [Reader.fill, if_pos hb], h, fun he => absurd he hb⟩

/-- A line is copied together from as many pieces as it takes. -/
theorem Reader.Delivers.readLine {fuel : Nat} {r : Reader} {bytes : Bytes} (h : r.Delivers bytes) (hf : bytes.length < fuel)
    (n : Nat) (seen : Bytes) :
    ∃ r', r.readLine fuel n seen = .bytes (seen ++ (splitLine n bytes).1) r' ∧ r'.Delivers (splitLine n bytes).2 := by
  induction fuel generalizing n seen r bytes with
  | zero => omega
  | succ fuel ih =>
    by_cases hn : n = 0
    · subst hn
      exact ⟨r, by simp [Reader.readLine, splitLine], by simpa [splitLine] using h⟩
    · obtain ⟨r', hr, hd, he⟩ := h.fill
      have hs := splitLine_append n r'.buffer
      obtain ⟨left, hl, hd'⟩ := hd.advance hs.symm
      simp only [Reader.readLine, if_neg hn, hr]
      -- Nothing in the buffer means that nothing is left at all: `fill` would have got it.
      by_cases hp : (splitLine n r'.buffer).1 = []
      · obtain rfl := he ((splitLine_eq_nil_iff.mp hp).resolve_left hn)
        cases n with
        | zero => exact absurd rfl hn
        | succ n => exact ⟨r', by simp [hp, splitLine], by simpa [splitLine] using hd⟩
      · obtain ⟨-, chunks, -, hb⟩ := hd
        have hleft : left = (splitLine n r'.buffer).2 ++ chunks.flatten := by
          rw [← hb] at hl
          have hb' : r'.buffer ++ chunks.flatten =
              (splitLine n r'.buffer).1 ++ ((splitLine n r'.buffer).2 ++ chunks.flatten) := by
            rw [← List.append_assoc, hs]
          exact (List.append_cancel_left (hb'.symm.trans hl)).symm
        rw [if_neg hp]
        by_cases hend : endsLine (splitLine n r'.buffer).1 = true
        · have hsplit := splitLine_append_of_endsLine hend chunks.flatten
          rw [hb, ← hleft] at hsplit
          rw [if_pos hend, hsplit]
          exact ⟨_, rfl, hd'⟩
        -- The chunk ends within the line, which goes on in the next one with so much less room.
        · have hend : endsLine (splitLine n r'.buffer).1 = false := by simpa using hend
          have hsplit := splitLine_append_of_not_endsLine hend chunks.flatten
          rw [hb, ← hleft] at hsplit
          have hlen : left.length < fuel := by
            have hpos := List.length_pos_iff.mpr hp
            rw [hl, List.length_append] at hf
            omega
          obtain ⟨r'', hr'', hd''⟩ := ih hd' hlen (n - (splitLine n r'.buffer).1.length) (seen ++ (splitLine n r'.buffer).1)
          rw [hend, if_neg (by simp), hr'', hsplit]
          exact ⟨r'', by rw [List.append_assoc], hd''⟩

/-- A body is copied together from as many pieces as it takes. -/
theorem Reader.Delivers.readExact {fuel : Nat} {r : Reader} {bytes : Bytes} (h : r.Delivers bytes) (hf : bytes.length < fuel)
    (n : Nat) (seen : Bytes) :
    ∃ r', r.readExact fuel n seen = .bytes (seen ++ bytes.take n) r' ∧ r'.Delivers (bytes.drop n) := by
  induction fuel generalizing n seen r bytes with
  | zero => omega
  | succ fuel ih =>
    by_cases hn : n = 0
    · subst hn
      exact ⟨r, by simp [Reader.readExact], by simpa using h⟩
    · obtain ⟨r', hr, hd, he⟩ := h.fill
      obtain ⟨left, hl, hd'⟩ := hd.advance (List.take_append_drop n r'.buffer).symm
      simp only [Reader.readExact, if_neg hn, hr]
      by_cases hp : r'.buffer.take n = []
      · obtain rfl := he ((List.take_eq_nil_iff.mp hp).resolve_left hn)
        exact ⟨r', by simp [hp], by simpa using hd⟩
      · have hle : (r'.buffer.take n).length ≤ n := List.length_take_le n _
        have hlen : left.length < fuel := by
          have hpos := List.length_pos_iff.mpr hp
          rw [hl, List.length_append] at hf
          omega
        obtain ⟨r'', hr'', hd''⟩ := ih hd' hlen (n - (r'.buffer.take n).length) (seen ++ r'.buffer.take n)
        refine ⟨r'', ?_, ?_⟩
        · rw [if_neg hp, hr'', hl, List.take_append, List.take_of_length_le hle, List.append_assoc]
        · rw [hl, List.drop_append, List.drop_of_length_le hle, List.nil_append]
          exact hd''

/-! ## The framer -/

namespace Framer

theorem next_nil (f : Framer) (closed : Bool) : f.next closed [] = if closed then some (.ended, f, []) else none := by
  rw [Framer.next, dif_pos rfl]

/-- What a call does with a line that has come to its end, or to its limit, or is the last of the stream. -/
theorem next_of_line (f : Framer) {closed : Bool} {bytes line rest : Bytes} (h : bytes ≠ [])
    (hs : splitLine maxLine bytes = (line, rest))
    (hl : closed = true ∨ endsLine line = true ∨ line.length = maxLine) :
    f.next closed bytes =
      match f.line line with
      | .more f => f.next closed rest
      | .fault e f => some (.fault e, f, rest)
      | .body n f =>
        if n ≤ rest.length then some (.payload (rest.take n), f, rest.drop n)
        else if closed then some (.ended, f, [])
        else none := by
  have hc : ¬(endsLine line = false ∧ line.length < maxLine ∧ closed = false) := by
    rintro ⟨he, hm, hc⟩
    rcases hl with hl | hl | hl
    · simp [hl] at hc
    · simp [hl] at he
    · omega
  rw [Framer.next, dif_neg h]
  cases hline : f.line line <;> simp only [hs, if_neg hc, hline]

/-- A call on a reader gives what it gives on the bytes, and leaves the reader with the bytes that it leaves. -/
theorem pollLines_delivers {fuel : Nat} (f : Framer) {r : Reader} {bytes : Bytes} (h : r.Delivers bytes)
    (hf : bytes.length < fuel) :
    ∃ x f' rest r', f.next true bytes = some (x, f', rest) ∧ f.pollLines fuel r = (x, f', r') ∧ r'.Delivers rest := by
  induction fuel generalizing f r bytes with
  | zero => omega
  | succ fuel ih =>
    obtain ⟨r', hr, hd⟩ := h.readLine (Nat.lt_succ_of_le (Nat.le_of_eq h.size_eq.symm)) maxLine []
    rw [List.nil_append] at hr
    simp only [pollLines, hr]
    by_cases hb : bytes = []
    · subst hb
      exact ⟨.ended, f, [], r', by simp [next_nil], by simp [splitLine, maxLine], hd⟩
    · have hline : (splitLine maxLine bytes).1 ≠ [] := by
        intro hn
        rcases splitLine_eq_nil_iff.mp hn with hn | hn
        · simp [maxLine] at hn
        · exact hb hn
      have hlt := length_splitLine_lt hb
      rw [if_neg hline, next_of_line f hb rfl (.inl rfl)]
      cases f.line (splitLine maxLine bytes).1 with
      | more f => exact ih f hd (by omega)
      | fault e f => exact ⟨_, _, _, r', rfl, rfl, hd⟩
      | body n f =>
        obtain ⟨r'', hr'', hd''⟩ := hd.readExact (Nat.lt_succ_of_le (Nat.le_of_eq hd.size_eq.symm)) n []
        rw [List.nil_append] at hr''
        simp only [hr'']
        by_cases hn : n ≤ (splitLine maxLine bytes).2.length
        · exact ⟨_, _, _, r'', if_pos hn, by rw [if_pos (List.length_take_of_le hn)], hd''⟩
        · have hlen : ((splitLine maxLine bytes).2.take n).length ≠ n := by
            rw [List.length_take]
            omega
          rw [List.drop_of_length_le (by omega)] at hd''
          exact ⟨.ended, f, [], r'', by simp [hn], if_neg hlen, hd''⟩

/-- A call on a reader comes to what it comes to on the bytes that the reader delivers. -/
theorem poll_delivers (f : Framer) {r : Reader} {bytes : Bytes} (h : r.Delivers bytes) :
    ∃ x f' rest r', f.next true bytes = some (x, f', rest) ∧ f.poll r = (x, f', r') ∧ r'.Delivers rest :=
  f.pollLines_delivers h (Nat.lt_succ_of_le (Nat.le_of_eq h.size_eq.symm))

/-- What a call gives before the end of the stream it gives whatever comes behind. -/
theorem next_append {f f' : Framer} {bytes rest : Bytes} {x : Reading} (h : f.next false bytes = some (x, f', rest))
    (closed : Bool) (more : Bytes) : f.next closed (bytes ++ more) = some (x, f', rest ++ more) := by
  induction hn : bytes.length using Nat.strongRecOn generalizing f bytes with
  | _ n ih =>
    by_cases hb : bytes = []
    · subst hb
      simp [next_nil] at h
    · have hlt := length_splitLine_lt hb
      have hle := length_splitLine_le maxLine bytes
      -- A line that is neither ended nor full would have to wait for more, so there is a whole one.
      by_cases hw : endsLine (splitLine maxLine bytes).1 = false ∧ (splitLine maxLine bytes).1.length < maxLine
      · rw [Framer.next, dif_neg hb] at h
        simp [hw] at h
      · have hl : endsLine (splitLine maxLine bytes).1 = true ∨ (splitLine maxLine bytes).1.length = maxLine := by
          cases he : endsLine (splitLine maxLine bytes).1 with
          | true => exact .inl rfl
          | false =>
            refine .inr ?_
            have hw : ¬(splitLine maxLine bytes).1.length < maxLine := fun hlt => hw ⟨he, hlt⟩
            omega
        have hs := splitLine_append_of_full hl more
        rw [next_of_line f hb rfl (.inr hl)] at h
        rw [next_of_line f (List.append_ne_nil_of_left_ne_nil hb more) hs (.inr hl)]
        cases hline : f.line (splitLine maxLine bytes).1 with
        | more g =>
          rw [hline] at h
          exact ih _ (by omega) h rfl
        | fault e g =>
          rw [hline] at h
          obtain ⟨rfl, rfl, rfl⟩ : Reading.fault e = x ∧ g = f' ∧ (splitLine maxLine bytes).2 = rest := by simpa using h
          rfl
        | body k g =>
          simp only [hline] at h ⊢
          by_cases hk : k ≤ (splitLine maxLine bytes).2.length
          · rw [if_pos hk] at h
            rw [if_pos (by rw [List.length_append]; omega), List.take_append_of_le_length hk, List.drop_append_of_le_length hk]
            obtain ⟨rfl, rfl, rfl⟩ :
                Reading.payload ((splitLine maxLine bytes).2.take k) = x ∧ g = f' ∧
                  (splitLine maxLine bytes).2.drop k = rest := by
              simpa using h
            rfl
          · simp [hk] at h

/-! ## Runs of calls -/

/-- The outcomes of the first calls on a reader. -/
def polls : Nat → Framer → Reader → List Reading
  | 0, _, _ => []
  | n + 1, f, r =>
    let (x, f, r) := f.poll r
    x :: polls n f r

/-- The outcomes of the first calls on the bytes of a stream. -/
def outcomes : Nat → Framer → Bytes → List Reading
  | 0, _, _ => []
  | n + 1, f, bytes =>
    match f.next true bytes with
    | some (x, f, rest) => x :: outcomes n f rest
    | none => []

/-- Every call comes to something. -/
theorem length_polls (n : Nat) (f : Framer) (r : Reader) : (f.polls n r).length = n := by
  induction n generalizing f r with
  | zero => rfl
  | succ n ih => simp [polls, ih]

/-- The calls on a reader give what the calls on its bytes give. -/
theorem polls_delivers (n : Nat) (f : Framer) {r : Reader} {bytes : Bytes} (h : r.Delivers bytes) :
    f.polls n r = f.outcomes n bytes := by
  induction n generalizing f r bytes with
  | zero => rfl
  | succ n ih =>
    obtain ⟨x, f', rest, r', hn, hp, hd⟩ := f.poll_delivers h
    simp only [polls, outcomes, hn, hp, ih f' hd]

/-- A stream in pieces, and the same stream as a whole, in four parts.
1. The calls on a reader over the pieces give what the calls on all their bytes give, each of them something.
2. So they give what they give where the stream comes in one piece, whatever the sizes of the two buffers.
3. On any reader of which no read fails a call gives what `Framer.next` makes of the bytes that are left and of the length that is
   declared, and leaves as many bytes and the same framer.
4. A call that is made when the first of the bytes have arrived, and finds them enough, gives what it gives on all of them. -/
theorem polls_of_chunks (f : Framer) (chunks : List Bytes) (capacity : Nat) (hc : 0 < capacity) :
    (∀ n, f.polls n (.ofChunks capacity chunks) = f.outcomes n chunks.flatten ∧ (f.outcomes n chunks.flatten).length = n) ∧
    (∀ n whole, 0 < whole → f.polls n (.ofChunks capacity chunks) = f.polls n (.ofChunks whole [chunks.flatten])) ∧
    (∀ (g : Framer) (r : Reader) bytes, r.Delivers bytes →
      ∃ x g' rest r', g.next true bytes = some (x, g', rest) ∧ g.poll r = (x, g', r') ∧ r'.Delivers rest) ∧
    (∀ arrived later x f' rest, arrived ++ later = chunks.flatten → f.next false arrived = some (x, f', rest) →
      f.next true chunks.flatten = some (x, f', rest ++ later)) := by
  have hd := Reader.delivers_ofChunks hc chunks
  refine ⟨fun n => ?_, fun n whole hw => ?_, fun g r bytes h => g.poll_delivers h, ?_⟩
  · have hp := polls_delivers n f hd
    exact ⟨hp, by rw [← hp, length_polls]⟩
  · have hd' := Reader.delivers_ofChunks hw [chunks.flatten]
    rw [List.flatten_cons, List.flatten_nil, List.append_nil] at hd'
    rw [polls_delivers n f hd, polls_delivers n f hd']
  · intro arrived later x f' rest hb hn
    rw [← hb]
    exact next_append hn true later

/-- A header block without a length, then a frame, then a frame that the end of the stream cuts short. -/
def cutStream : List Bytes :=
  [ascii "A: b\r", ascii "\n\r", ascii "\nContent-Len", ascii "gth: 2\r\n\r", ascii "\n\x7b",
   ascii "\x7dContent-Length: 12\r\n\r\nabc"]

/-- The pieces of `cutStream` are cut inside a name, between the two bytes that end a line, and inside a body. -/
theorem polls_of_chunks_cutStream :
    0 < 3 ∧ 0 < 8192 ∧ polls 4 {} (.ofChunks 3 cutStream) = polls 4 {} (.ofChunks 8192 [cutStream.flatten]) ∧
    polls 4 {} (.ofChunks 3 cutStream) = [.fault .missingLength, .payload (ascii "\x7b\x7d"), .ended, .ended] := by
  refine ⟨by decide, by decide, ?_, by decide +kernel⟩
  exact (polls_of_chunks {} cutStream 3 (by decide)).2.1 4 8192 (by decide)

end Framer

end Parley.Frame
