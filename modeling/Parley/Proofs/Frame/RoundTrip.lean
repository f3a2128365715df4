import Parley.Proofs.Frame.LengthLine

/-!
# Reading what was framed

A framer takes from a stream of frames the bodies that were framed, in their order, and nothing else (`frames_read_back`). What a
body holds does not matter, since its bytes are counted and not looked at: it may be empty, or look like a header block.
-/

namespace Parley

namespace Text

theorem isDecimalDigit_of_isDigit {c : Char} (h : c.isDigit = true) : isDecimalDigit c = true := by
  have hc := Json.toNat_of_isDigit h
  refine List.any_eq_true.mpr ⟨(0x30, 0x39), List.mem_cons_self, ?_⟩
  simp only [Bool.and_eq_true, decide_eq_true_eq]
  exact hc

theorem isAsciiDigit_of_isDigit {c : Char} (h : c.isDigit = true) : isAsciiDigit c = true := by
  simpa [isAsciiDigit, Char.isDigit, Char.le_def] using h

/-- The digits of a number denote it. -/
theorem numeral_toDigits (n : Nat) : numeral (Nat.toDigits 10 n) = n := by
  have hf : numeral (Nat.toDigits 10 n) = Nat.ofDigitChars 10 (Nat.toDigits 10 n) 0 := by
    simp only [numeral, Nat.ofDigitChars, Nat.mul_comm]
    rfl
  rw [hf, Nat.ofDigitChars_toDigits (by omega) (by omega)]

end Text

namespace Frame

/-! ## Header lines -/

/-- The line that declares a length, up to its line feed. -/
def declaration (n : Nat) : Bytes := ascii "Content-Length: " ++ (Json.digitBytes n ++ [0x0d])

/-- The line behind it, up to its line feed. -/
def contentType : Bytes := ascii "Content-Type: application/vscode-jsonrpc; charset=utf-8\r"

/-- A frame: a line with the length, a line with the type, a blank line, and the body. -/
theorem frame_eq (body : Bytes) :
    frame body = declaration body.length ++ 0x0a :: (contentType ++ 0x0a :: ([0x0d] ++ 0x0a :: body)) := by
  have ht : ascii "\r\nContent-Type: application/vscode-jsonrpc; charset=utf-8\r\n\r\n" =
      0x0d :: 0x0a :: (contentType ++ [0x0a, 0x0d, 0x0a]) := by decide +kernel
  have hn : Utf8.encode (toString body.length) = Json.digitBytes body.length := Json.encode_repr _
  simp only [ascii] at ht
  rw [frame, ascii, Utf8.encode_append, Utf8.encode_append, ht, hn]
  simp [declaration, ascii]

/-- A line that declares a length fits a line. -/
theorem length_declaration_le {n : Nat} (h : n < Nat.pow 2 64) : (declaration n).length ≤ 37 := by
  have hd : (Nat.toDigits 10 n).length ≤ 20 :=
    (Nat.length_toDigits_le_iff (by omega) (by omega)).mpr (Nat.lt_of_lt_of_le h (by decide))
  have hp : (ascii "Content-Length: ").length = 16 := by decide +kernel
  simp only [declaration, Json.digitBytes, List.length_append, List.length_map, List.length_singleton, hp]
  omega

/-- And is one line. -/
theorem not_mem_declaration (n : Nat) : (0x0a : UInt8) ∉ declaration n := by
  have hp : (0x0a : UInt8) ∉ ascii "Content-Length: " := by decide +kernel
  simp only [declaration, Json.digitBytes, List.mem_append, List.mem_map, List.mem_singleton, not_or, not_exists, not_and]
  refine ⟨hp, fun c hc hb => ?_, by decide⟩
  have hd : c.isDigit = true := Nat.isDigit_of_mem_toDigits (by omega) (by omega) hc
  exact Json.digitByte_ne hd (by decide) hb

/-- The declaration of a length is read as the length. -/
theorem lengthLine_declaration {n : Nat} (h : n < Nat.pow 2 64) : lengthLine (declaration n ++ [0x0a]) = .declares n := by
  have hd (c : Char) (hc : c ∈ Nat.toDigits 10 n) : c.isDigit = true :=
    Nat.isDigit_of_mem_toDigits (by omega) (by omega) hc
  have hname : ascii "Content-Length: " = ascii "Content-Length:" ++ [0x20] := by decide +kernel
  have htext : [0x20] ++ (Json.digitBytes n ++ [0x0d] ++ [0x0a]) =
      Utf8.encode (String.ofList ([' '] ++ (Nat.toDigits 10 n ++ ['\r', '\n']))) := by
    have hdigits := Utf8.encode_digits hd
    rw [Utf8.encode_ofList] at hdigits
    rw [Utf8.encode_ofList, List.flatMap_append, List.flatMap_append, hdigits, List.append_assoc]
    rfl
  have hline : DigitLine (declaration n ++ [0x0a]) (Nat.toDigits 10 n) := by
    rw [declaration, hname, List.append_assoc, List.append_assoc, htext]
    refine .mk (by decide +kernel) (.mk (by decide) Nat.toDigits_ne_nil ?_ (by decide) rfl)
    exact List.all_eq_true.mpr fun c hc => Text.isDecimalDigit_of_isDigit (hd c hc)
  have hlength : IsLength (Nat.toDigits 10 n) :=
    ⟨List.all_eq_true.mpr fun c hc => Text.isAsciiDigit_of_isDigit (hd c hc), by rwa [Text.numeral_toDigits]⟩
  have hdeclares := lengthLine_eq_iff.mpr (.declares hline hlength)
  rwa [Text.numeral_toDigits] at hdeclares

/-! ## Frames -/

/-- A line without a line feed in it is split off at the one that ends it. -/
theorem splitLine_line {n : Nat} {line : Bytes} (h : 0x0a ∉ line) (hn : line.length < n) (rest : Bytes) :
    splitLine n (line ++ 0x0a :: rest) = (line ++ [0x0a], rest) := by
  induction line generalizing n with
  | nil =>
    obtain ⟨n, rfl⟩ := Nat.exists_eq_add_one.mpr hn
    simp [splitLine]
  | cons b line ih =>
    rw [List.length_cons] at hn
    obtain ⟨n, rfl⟩ := Nat.exists_eq_add_one.mpr (Nat.zero_lt_of_lt hn)
    obtain ⟨hb, hline⟩ := not_or.mp fun hm => h (List.mem_cons.mpr hm)
    simp [splitLine, Ne.symm hb, ih hline (Nat.lt_of_succ_lt_succ hn)]

/-- The longest body that a framer with a limit gives: there is no buffer for a longer one, whatever the limit is. -/
def room (limit : Nat) : Nat := Nat.min limit maxBuffer

theorem le_limit_of_le_room {n limit : Nat} (h : n ≤ room limit) : n ≤ limit := Nat.le_trans h (Nat.min_le_left _ _)

theorem le_maxBuffer_of_le_room {n limit : Nat} (h : n ≤ room limit) : n ≤ maxBuffer := Nat.le_trans h (Nat.min_le_right _ _)

/-- What a buffer can hold has a length that a header line can declare. -/
theorem lt_of_le_room {n limit : Nat} (h : n ≤ room limit) : n < Nat.pow 2 64 :=
  Nat.lt_of_le_of_lt (le_maxBuffer_of_le_room h) (by decide)

namespace Framer

/-- What a call does with a header line. -/
theorem next_line (f : Framer) (closed : Bool) {line : Bytes} (h : 0x0a ∉ line) (hn : line.length < maxLine) (rest : Bytes) :
    f.next closed (line ++ 0x0a :: rest) =
      match f.line (line ++ [0x0a]) with
      | .more f => f.next closed rest
      | .fault e f => some (.fault e, f, rest)
      | .body n f =>
        if n ≤ rest.length then some (.payload (rest.take n), f, rest.drop n)
        else if closed then some (.ended, f, [])
        else none :=
  f.next_of_line (by simp) (splitLine_line h hn rest) (.inr (.inl (by simp [endsLine])))

/-- The first line that declares a length within the limit decides. -/
theorem line_of_declares {f : Framer} {line : Bytes} {n : Nat} (hf : f.declared = none)
    (hl : lengthLine (line ++ [0x0a]) = .declares n) (hn : n ≤ f.limit) :
    f.line (line ++ [0x0a]) = .more { f with declared := some n } := by
  have he : endsLine (line ++ [0x0a]) = true := by simp [endsLine]
  rw [Framer.line, if_neg (by simp [he]), hf, Option.isNone_none, if_pos rfl, hl]
  exact if_neg (Nat.not_lt.mpr hn)

/-- Behind it every line is a line like any other. -/
theorem line_of_declared {f : Framer} (hf : f.declared ≠ none) (line : Bytes) :
    f.line (line ++ [0x0a]) = f.otherLine (line ++ [0x0a]) := by
  have he : endsLine (line ++ [0x0a]) = true := by simp [endsLine]
  rw [Framer.line, if_neg (by simp [he]), if_neg (by simpa using hf)]

/-- Behind a declaration a blank line ends the block. -/
theorem line_of_blank {n limit : Nat} (hn : n ≤ maxBuffer) {line : Bytes} (hb : (line ++ [0x0a]).all Text.isAsciiBlank = true) :
    (⟨some n, limit⟩ : Framer).line (line ++ [0x0a]) = .body n { limit } := by
  rw [line_of_declared (by simp), otherLine, if_pos hb]
  exact if_neg (Nat.not_lt.mpr hn)

/-- A frame for which there is room is taken as its body, and leaves the framer as it was. -/
theorem next_frame {limit : Nat} {body : Bytes} (hb : body.length ≤ room limit) (closed : Bool) (rest : Bytes) :
    ({ limit } : Framer).next closed (frame body ++ rest) = some (.payload body, { limit }, rest) := by
  have hn := lt_of_le_room hb
  have hlen := length_declaration_le hn
  have hdeclared : ({ limit } : Framer).line (declaration body.length ++ [0x0a]) = .more ⟨some body.length, limit⟩ :=
    line_of_declares rfl (lengthLine_declaration hn) (le_limit_of_le_room hb)
  have htype : (⟨some body.length, limit⟩ : Framer).line (contentType ++ [0x0a]) = .more ⟨some body.length, limit⟩ := by
    have ht : (contentType ++ [0x0a]).all Text.isAsciiBlank = false := by decide +kernel
    rw [line_of_declared (by simp), otherLine, ht]
    rfl
  have hblank : (⟨some body.length, limit⟩ : Framer).line ([0x0d] ++ [0x0a]) = .body body.length { limit } :=
    line_of_blank (le_maxBuffer_of_le_room hb) (by decide)
  have hparts : frame body ++ rest =
      declaration body.length ++ 0x0a :: (contentType ++ 0x0a :: ([0x0d] ++ 0x0a :: (body ++ rest))) := by
    rw [frame_eq]
    simp
  rw [hparts, next_line _ _ (not_mem_declaration _) (by rw [maxLine]; omega), hdeclared]
  simp only
  rw [next_line _ _ (by decide +kernel) (by decide +kernel), htype]
  simp only
  rw [next_line _ _ (by decide) (by decide), hblank]
  simp [List.take_left', List.drop_left']

/-- At the end of the stream every call says so. -/
theorem outcomes_nil (n : Nat) (f : Framer) : f.outcomes n [] = List.replicate n .ended := by
  induction n with
  | zero => rfl
  | succ n ih => simp [outcomes, next_nil, ih, List.replicate_succ]

/-- Frames are taken one by one, and behind them what stands there. -/
theorem outcomes_frames {limit : Nat} {bodies : List Bytes} (hb : ∀ body ∈ bodies, body.length ≤ room limit) (n : Nat)
    (rest : Bytes) :
    ({ limit } : Framer).outcomes (bodies.length + n) (bodies.flatMap frame ++ rest) =
      bodies.map .payload ++ ({ limit } : Framer).outcomes n rest := by
  induction bodies with
  | nil => simp
  | cons body bodies ih =>
    have hbody := hb body List.mem_cons_self
    have hnext := next_frame hbody true (bodies.flatMap frame ++ rest)
    have hlen : (body :: bodies).length + n = bodies.length + n + 1 := by
      rw [List.length_cons]
      omega
    rw [hlen, List.flatMap_cons, List.append_assoc, outcomes, hnext]
    simp [ih fun b hb' => hb b (List.mem_cons_of_mem _ hb')]

/-- From the frames of some bodies a fresh framer takes the bodies, in their order, and from then on finds the stream at its end;
whatever the bodies hold, if none is longer than the limit or than any buffer can be, and in whatever pieces the frames come. -/
theorem frames_read_back (limit : Nat) (bodies : List Bytes) (hb : ∀ body ∈ bodies, body.length ≤ room limit) (r : Reader)
    (hr : r.Delivers (bodies.flatMap frame)) (n : Nat) :
    ({ limit } : Framer).polls (bodies.length + n) r = bodies.map .payload ++ List.replicate n .ended := by
  have hframes := outcomes_frames hb n []
  rw [List.append_nil, outcomes_nil] at hframes
  rw [polls_delivers _ _ hr, hframes]

/-- No bytes, a line end, and what looks like a header block and is as long as the limit. -/
def awkwardBodies : List Bytes := [[], [0x0d, 0x0a], ascii "Content-Length: 9\r\n\r\n"]

/-- The frames of `awkwardBodies` come in one piece and are read through a buffer of seven bytes. -/
theorem frames_read_back_awkwardBodies :
    (∀ body ∈ awkwardBodies, body.length ≤ room 21) ∧
    (Reader.ofChunks 7 [awkwardBodies.flatMap frame]).Delivers (awkwardBodies.flatMap frame) ∧
    ({ limit := 21 } : Framer).polls 5 (.ofChunks 7 [awkwardBodies.flatMap frame]) =
      [.payload [], .payload [0x0d, 0x0a], .payload (ascii "Content-Length: 9\r\n\r\n"), .ended, .ended] := by
  have hb : ∀ body ∈ awkwardBodies, body.length ≤ room 21 := by decide +kernel
  have hr : (Reader.ofChunks 7 [awkwardBodies.flatMap frame]).Delivers (awkwardBodies.flatMap frame) := by
    simpa using Reader.delivers_ofChunks (by decide : 0 < 7) [awkwardBodies.flatMap frame]
  exact ⟨hb, hr, frames_read_back 21 awkwardBodies hb _ hr 2⟩

end Framer

end Frame

end Parley
