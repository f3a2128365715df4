import Parley.Proofs.Frame.Bare

/-!
# Frames behind a body that was not announced

A header block without a length may have a body all the same. What is left of that body is read as the beginning of a header line,
and the line goes on with the first line of the next frame (`glued`): so the length of that frame is not found, and its own body is
not announced either. One body spoils the next. Only an empty body, behind which a line begins anew, ends this; the frames behind it
are the ones that are still delivered (`frames_behind_stray_body`). Bodies that are messages are not empty, and then all frames are
lost (`frames_lost_behind_stray_body`).
-/

namespace Parley.Frame

/-! ## Lines that are glued together -/

/-- The line that bytes without a line feed make with the first line of the frame of a body. -/
def glued (stray body : Bytes) : Bytes := stray ++ (declaration body.length ++ [0x0a])

theorem length_glued (stray body : Bytes) : (glued stray body).length = (stray ++ declaration body.length).length + 1 := by
  rw [glued, ← List.append_assoc]
  exact List.length_append

theorem declaration_eq_colon (n : Nat) : ∃ digits, declaration n = ascii "Content-Length" ++ 0x3a :: digits := by
  have hname : ascii "Content-Length: " = ascii "Content-Length" ++ [0x3a, 0x20] := by decide +kernel
  exact ⟨0x20 :: (Json.digitBytes n ++ [0x0d]), by rw [declaration, hname]; simp⟩

/-- A declaration with something in front of it is no declaration: its colon stands too far behind. -/
theorem lengthLine_glued {stray : Bytes} (h : stray ≠ []) (body : Bytes) : lengthLine (glued stray body) = .other := by
  refine Decidable.byContradiction fun hn => ?_
  obtain ⟨-, -, hcolon⟩ := lengthLine_shape hn
  obtain ⟨digits, hdigits⟩ := declaration_eq_colon body.length
  have hname : lengthName.length = 15 := by decide +kernel
  have hlen : (ascii "Content-Length").length = 14 := by decide +kernel
  have hpos := List.length_pos_iff.mpr h
  have hsplit : glued stray body = (stray ++ ascii "Content-Length") ++ 0x3a :: (digits ++ [0x0a]) := by
    rw [glued, hdigits]
    simp
  refine hcolon ?_
  rw [hsplit, hname, List.drop_append_of_le_length (by rw [List.length_append]; omega)]
  exact List.mem_append_right _ List.mem_cons_self

/-- A line that goes on behind a stray body is not blank. -/
theorem not_blank_glued (stray body : Bytes) : (glued stray body).all Text.isAsciiBlank = false := by
  obtain ⟨digits, hdigits⟩ := declaration_eq_colon body.length
  refine List.all_eq_false.mpr ⟨0x3a, ?_, by decide⟩
  rw [glued, hdigits]
  simp

/-- As a line it needs to be within the length of a line. -/
def gluedLine (stray body : Bytes) (hs : 0x0a ∉ stray) (hl : (glued stray body).length ≤ maxLine) : Line where
  text := stray ++ declaration body.length
  unfed := fun hm => (List.mem_append.mp hm).elim hs (not_mem_declaration _)
  short := by
    rw [length_glued] at hl
    exact hl

/-- The second line of a frame. -/
def typeLine : Line := ⟨contentType, by decide +kernel, by decide +kernel⟩

theorem bytes_gluedLine {stray body : Bytes} (hs : 0x0a ∉ stray) (hl : (glued stray body).length ≤ maxLine) :
    (gluedLine stray body hs hl).bytes = glued stray body := List.append_assoc _ _ _

/-- The header block that bytes without a line feed make of that of the frame behind them. -/
def gluedBlock (stray body : Bytes) (hn : stray ≠ []) (hs : 0x0a ∉ stray) (hl : (glued stray body).length ≤ maxLine) : BareBlock where
  lines := [gluedLine stray body hs hl, typeLine]
  blank := blankLine
  lines_bare := by
    refine List.forall_mem_cons.mpr ⟨?_, by decide +kernel⟩
    rw [Line.isBlank, bytes_gluedLine, lengthLine_glued hn]
    exact ⟨not_blank_glued stray body, rfl⟩
  blank_isBlank := isBlank_blankLine

section

variable {stray body : Bytes} (hn : stray ≠ []) (hs : 0x0a ∉ stray) (hl : (glued stray body).length ≤ maxLine)

/-- The stray body and the frame behind it are a block and a body that is stray. -/
theorem bytes_gluedBlock (rest : Bytes) :
    (gluedBlock stray body hn hs hl).bytes ++ (body ++ rest) = stray ++ (frame body ++ rest) := by
  have htail : typeLine.bytes ++ blankLine.bytes = contentType ++ 0x0a :: ([0x0d] ++ [0x0a]) := by decide +kernel
  have hlines : (gluedBlock stray body hn hs hl).bytes = glued stray body ++ (typeLine.bytes ++ blankLine.bytes) := by
    simp [gluedBlock, BareBlock.bytes, bytes_gluedLine]
  rw [hlines, htail, frame_eq, glued]
  simp

/-- That block has no length. -/
theorem faults_gluedBlock : (gluedBlock stray body hn hs hl).faults = [.missingLength] := by
  have hline : (gluedLine stray body hs hl).fault? = none := by rw [Line.fault?, bytes_gluedLine, lengthLine_glued hn]
  have htype : typeLine.fault? = none := by decide +kernel
  simp [gluedBlock, BareBlock.faults, hline, htype]

end

/-- Bytes that are too many to be a line together with what follows are a line that is too long. -/
theorem overlong_of_glued {stray body : Bytes} (hs : 0x0a ∉ stray) (hl : maxLine < (glued stray body).length) (rest : Bytes) :
    Overlong (stray ++ (frame body ++ rest)) := by
  have hline : maxLine ≤ (stray ++ declaration body.length).length := by
    rw [length_glued] at hl
    exact Nat.le_of_lt_succ hl
  have hsplit : stray ++ (frame body ++ rest) =
      (stray ++ declaration body.length) ++ (0x0a :: (contentType ++ 0x0a :: ([0x0d] ++ 0x0a :: body)) ++ rest) := by
    rw [frame_eq]
    simp
  rw [hsplit]
  refine ⟨by rw [List.length_append]; omega, ?_⟩
  rw [List.take_append_of_le_length hline]
  exact fun hm => (List.mem_append.mp (List.mem_of_mem_take hm)).elim hs (not_mem_declaration _)

/-! ## What is still delivered -/

namespace Afresh

/-- What the first calls deliver comes in front of what the calls behind them deliver, of which there are as many as are needed. -/
theorem delivered_polls {limit : Nat} {s t : Bytes} {xs : List Reading} (h : Afresh limit s xs t)
    (hx : ∀ x ∈ xs, x ≠ .ended ∧ x.isFatal = false) {r : Reader} (hr : r.Delivers s) {n : Nat} (hn : s.length < n) :
    ∃ r' m, r'.Delivers t ∧ t.length < m ∧
      delivered (({ limit } : Framer).polls n r) = payloads xs ++ delivered (({ limit } : Framer).polls m r') := by
  have hle := h.calls.length_le fun hm => (hx _ hm).1 rfl
  obtain ⟨m, rfl⟩ := Nat.exists_eq_add_of_le (show xs.length ≤ n by omega)
  obtain ⟨r', -, hd, hp⟩ := h.calls.polls hr m
  exact ⟨r', m, hd, by omega, by rw [hp, delivered_append fun x hm => (hx x hm).2]⟩

end Afresh

/-- A call on a stream without a line feed gives up, or takes all of it for no body. -/
theorem call_of_not_mem {f g : Framer} {s t : Bytes} {x : Reading} (hf : f.declared = none) (hs : 0x0a ∉ s) (hc : f.Call s x g t) :
    x.isFatal = true ∨ x.isFatal = false ∧ x.body? = none ∧ t = [] := by
  cases hc with
  | atEnd f => exact .inr ⟨rfl, rfl, rfl⟩
  | overlong ho => exact .inl rfl
  | more hfirst hl hc =>
    obtain rfl := hfirst.eq_nil_of_not_mem hs
    obtain ⟨rfl, rfl⟩ := hc.eq_ended
    exact .inr ⟨rfl, rfl, rfl⟩
  | @fault f g s line t e hfirst hl =>
    obtain rfl := hfirst.eq_nil_of_not_mem hs
    cases he : e.isFatal with
    | true => exact .inl he
    | false => exact .inr ⟨he, rfl, rfl⟩
  | body hfirst hl =>
    cases hl with
    | ends hd hb => rw [hf] at hd; cases hd
  | cut hfirst hl hn => exact .inr ⟨rfl, rfl, rfl⟩

/-- A stream without a line feed delivers nothing. -/
theorem delivered_of_not_mem {limit : Nat} {s : Bytes} (hs : 0x0a ∉ s) {r : Reader} (hr : r.Delivers s) (n : Nat) :
    delivered (({ limit } : Framer).polls n r) = [] := by
  cases n with
  | zero => rfl
  | succ n =>
    obtain ⟨x, g, t, r', hc, hp, hd⟩ := Framer.exists_call { limit } hr
    simp only [Framer.polls, hp]
    rcases call_of_not_mem rfl hs hc with hx | ⟨hx, hbody, rfl⟩
    · exact delivered_cons_of_isFatal hx _
    · rw [delivered_cons hx, hbody, Framer.polls_of_delivers_nil n g hd, delivered_replicate_ended]
      rfl

/-- Frames that begin where a header block may begin are all delivered. -/
theorem delivered_frames {limit : Nat} {bodies : List Bytes} (hb : ∀ body ∈ bodies, body.length ≤ room limit) {r : Reader}
    (hr : r.Delivers (bodies.flatMap frame)) {n : Nat} (hlen : (bodies.flatMap frame).length < n) :
    delivered (({ limit } : Framer).polls n r) = bodies := by
  have hframes := afresh_frames hb []
  rw [List.append_nil] at hframes
  obtain ⟨r', m, hr', -, hp⟩ := hframes.delivered_polls (by simp [Reading.isFatal]) hr hlen
  rw [hp, payloads_map_payload, delivered_of_not_mem List.not_mem_nil hr', List.append_nil]

/-- The bodies that are still delivered of frames that stand behind bytes without a line feed: none behind a line that is too long,
and otherwise those behind the first empty one. -/
def salvaged (stray : Bytes) : List Bytes → List Bytes
  | [] => []
  | body :: bodies =>
    if maxLine < (glued stray body).length then []
    else if body = [] then bodies
    else salvaged body bodies

/-- Without an empty body nothing is salvaged. -/
theorem salvaged_of_nil_not_mem (stray : Bytes) {bodies : List Bytes} (h : [] ∉ bodies) : salvaged stray bodies = [] := by
  induction bodies generalizing stray with
  | nil => rfl
  | cons body bodies ih =>
    rw [List.mem_cons, not_or] at h
    rw [salvaged, if_neg (Ne.symm h.1), ih body h.2, ite_self]

/-- The first of the frames is lost in any case. -/
theorem length_salvaged_le (stray : Bytes) (bodies : List Bytes) : (salvaged stray bodies).length ≤ bodies.length - 1 := by
  induction bodies generalizing stray with
  | nil => simp [salvaged]
  | cons body bodies ih =>
    rw [salvaged]
    split
    · simp
    · split
      · simp
      · exact Nat.le_trans (ih body) (by rw [List.length_cons]; omega)

/-- No more than the first frame is lost only if there is no other, or its body is empty and it is found. -/
theorem salvaged_eq_drop_iff (stray : Bytes) (bodies : List Bytes) :
    (∃ k ≤ 1, salvaged stray bodies = bodies.drop k) ↔
      bodies.length ≤ 1 ∨ ∃ rest, bodies = [] :: rest ∧ (glued stray []).length ≤ maxLine := by
  have hle := length_salvaged_le stray bodies
  constructor
  · rintro ⟨k, hk, he⟩
    by_cases hshort : bodies.length ≤ 1
    · exact .inl hshort
    · refine .inr ?_
      obtain ⟨body, rest, rfl⟩ := List.exists_cons_of_ne_nil (l := bodies) (by rintro rfl; simp at hshort)
      have hlen := congrArg List.length he
      rw [List.length_drop] at hlen
      simp only [List.length_cons] at hlen hle hshort
      obtain rfl : k = 1 := by omega
      rw [salvaged] at hlen
      split at hlen
      · rw [List.length_nil] at hlen
        omega
      · rename_i hfits
        split at hlen
        · rename_i hempty
          subst hempty
          exact ⟨rest, rfl, Nat.le_of_not_lt hfits⟩
        · have := length_salvaged_le body rest
          omega
  · rintro (hshort | ⟨rest, rfl, hfits⟩)
    · refine ⟨1, Nat.le_refl 1, ?_⟩
      rw [List.drop_of_length_le hshort]
      exact List.eq_nil_of_length_eq_zero (by omega)
    · exact ⟨1, Nat.le_refl 1, by rw [salvaged, if_neg (Nat.not_lt.mpr hfits), if_pos rfl]; rfl⟩

/-- What is delivered of a stream of frames in front of which bytes without a line feed stand. -/
theorem delivered_stray {limit : Nat} {stray : Bytes} (hn : stray ≠ []) (hs : 0x0a ∉ stray) {bodies : List Bytes}
    (hb : ∀ body ∈ bodies, 0x0a ∉ body ∧ body.length ≤ room limit) {r : Reader}
    (hr : r.Delivers (stray ++ bodies.flatMap frame)) {n : Nat} (hlen : (stray ++ bodies.flatMap frame).length < n) :
    delivered (({ limit } : Framer).polls n r) = salvaged stray bodies := by
  induction bodies generalizing stray r n with
  | nil =>
    rw [List.flatMap_nil, List.append_nil] at hr
    exact delivered_of_not_mem hs hr n
  | cons body bodies ih =>
    rw [List.flatMap_cons] at hr hlen
    rw [salvaged]
    by_cases hlong : maxLine < (glued stray body).length
    · rw [if_pos hlong]
      obtain ⟨m, rfl⟩ := Nat.exists_eq_add_of_le (show 1 ≤ n by omega)
      have hcall := Framer.Call.overlong (f := { limit }) (overlong_of_glued hs hlong (bodies.flatMap frame))
      obtain ⟨r', -, -, hp⟩ := (Framer.Calls.cons hcall (.nil _ _)).polls hr m
      exact (congrArg delivered hp).trans (delivered_cons_of_isFatal rfl _)
    · have hfits := Nat.le_of_not_lt hlong
      have hblock := (gluedBlock stray body hn hs hfits).afresh limit (body ++ bodies.flatMap frame)
      rw [bytes_gluedBlock, faults_gluedBlock] at hblock
      obtain ⟨r', m, hr', hm, hp⟩ := hblock.delivered_polls (by simp [Reading.isFatal, FrameFault.isFatal]) hr hlen
      rw [if_neg hlong, hp]
      have hbodies : ∀ b ∈ bodies, 0x0a ∉ b ∧ b.length ≤ room limit := fun b hm => hb b (List.mem_cons_of_mem body hm)
      by_cases hempty : body = []
      · subst hempty
        rw [if_pos rfl, delivered_frames (fun b hm => (hbodies b hm).2) hr' hm]
        rfl
      · rw [if_neg hempty, ih hempty (hb body List.mem_cons_self).1 hbodies hr' hm]
        rfl

/-- The same behind a header block that declares no length. -/
theorem delivered_behind_block {limit : Nat} (block : BareBlock) {stray : Bytes} (hn : stray ≠ []) (hs : 0x0a ∉ stray)
    {bodies : List Bytes} (hb : ∀ body ∈ bodies, 0x0a ∉ body ∧ body.length ≤ room limit) {r : Reader}
    (hr : r.Delivers (block.bytes ++ (stray ++ bodies.flatMap frame))) {n : Nat}
    (hlen : (block.bytes ++ (stray ++ bodies.flatMap frame)).length < n) :
    delivered (({ limit } : Framer).polls n r) = salvaged stray bodies := by
  have hfaults : ∀ x ∈ block.faults.map Reading.fault, x ≠ .ended ∧ x.isFatal = false := by
    intro x hx
    obtain ⟨e, he, rfl⟩ := List.mem_map.mp hx
    exact ⟨by simp, BareBlock.isFatal_of_mem_faults he⟩
  have hnone : payloads (block.faults.map Reading.fault) = [] := by
    rw [payloads, List.filterMap_eq_nil_iff]
    intro x hx
    obtain ⟨e, -, rfl⟩ := List.mem_map.mp hx
    rfl
  obtain ⟨r', m, hr', hm, hp⟩ := (block.afresh limit _).delivered_polls hfaults hr hlen
  rw [hp, hnone, List.nil_append, delivered_stray hn hs hb hr' hm]

/-- A stream that begins with a header block without a length and goes on with a body all the same, and then with frames; no body
holds a line feed. In three parts, for as many calls as it takes, which go on behind every fault that is not fatal.
1. Delivered are the bodies behind the first empty one, if the bodies up to it are short enough to be lines with what follows them.
2. So nothing is delivered if no body is empty.
3. All but the first of the frames are delivered only if there is no other, or if that first body is empty and the body in front of
   it short enough. -/
theorem frames_behind_stray_body (limit : Nat) (block : BareBlock) (stray : Bytes) (hn : stray ≠ []) (hs : 0x0a ∉ stray)
    (bodies : List Bytes) (hb : ∀ body ∈ bodies, 0x0a ∉ body ∧ body.length ≤ room limit) (r : Reader)
    (hr : r.Delivers (block.bytes ++ (stray ++ bodies.flatMap frame))) (n : Nat)
    (hlen : (block.bytes ++ (stray ++ bodies.flatMap frame)).length < n) :
    delivered (({ limit } : Framer).polls n r) = salvaged stray bodies ∧
    ([] ∉ bodies → delivered (({ limit } : Framer).polls n r) = []) ∧
    ((∃ k ≤ 1, delivered (({ limit } : Framer).polls n r) = bodies.drop k) ↔
      bodies.length ≤ 1 ∨ ∃ rest, bodies = [] :: rest ∧ (glued stray []).length ≤ maxLine) := by
  rw [delivered_behind_block block hn hs hb hr hlen]
  exact ⟨rfl, salvaged_of_nil_not_mem stray, salvaged_eq_drop_iff stray bodies⟩

/-- A header block that names the type of the body and not its length. -/
def typedBlock : BareBlock where
  lines := [⟨ascii "Content-Type: application/json\r", by decide +kernel, by decide +kernel⟩]
  blank := blankLine
  lines_bare := by decide +kernel
  blank_isBlank := isBlank_blankLine

/-- Behind the block and its body stand three frames, of which the second is empty. -/
def strayStream : Bytes :=
  typedBlock.bytes ++ (ascii "\x7b\x7d" ++ [ascii "[]", [], ascii "1"].flatMap frame)

/-- Of the frames behind a stray body the one behind the empty body is delivered. -/
theorem frames_behind_stray_body_strayStream :
    ascii "\x7b\x7d" ≠ [] ∧ 0x0a ∉ ascii "\x7b\x7d" ∧
    (∀ body ∈ [ascii "[]", [], ascii "1"], 0x0a ∉ body ∧ body.length ≤ room 9) ∧
    (Reader.ofChunks 7 [strayStream]).Delivers strayStream ∧ strayStream.length < 300 ∧
    delivered (({ limit := 9 } : Framer).polls 300 (.ofChunks 7 [strayStream])) = [ascii "1"] := by
  have hn : ascii "\x7b\x7d" ≠ [] := by decide +kernel
  have hs : 0x0a ∉ ascii "\x7b\x7d" := by decide +kernel
  have hb : ∀ body ∈ [ascii "[]", [], ascii "1"], 0x0a ∉ body ∧ body.length ≤ room 9 := by decide +kernel
  have hr : (Reader.ofChunks 7 [strayStream]).Delivers strayStream := by
    simpa using Reader.delivers_ofChunks (by decide : 0 < 7) [strayStream]
  have hlen : strayStream.length < 300 := by decide +kernel
  refine ⟨hn, hs, hb, hr, hlen, ?_⟩
  rw [(frames_behind_stray_body 9 typedBlock _ hn hs _ hb _ hr 300 hlen).1]
  decide +kernel

/-- Behind the block and its body stand three frames, of which none is empty. -/
def lostStream : Bytes :=
  typedBlock.bytes ++ (ascii "\x7b\x7d" ++ [ascii "[1]", ascii "[2]", ascii "[3]"].flatMap frame)

/-- The stream has ended, nothing was fatal, and not one of the three frames has been delivered. -/
theorem frames_lost_behind_stray_body :
    ascii "\x7b\x7d" ≠ [] ∧ 0x0a ∉ ascii "\x7b\x7d" ∧
    (∀ body ∈ [ascii "[1]", ascii "[2]", ascii "[3]"], 0x0a ∉ body ∧ body.length ≤ 9) ∧
    ({ limit := 9 } : Framer).polls 5 (.ofChunks 8192 [lostStream]) =
      [.fault .missingLength, .fault .missingLength, .fault .missingLength, .fault .missingLength, .ended] ∧
    ¬∃ k ≤ 1, delivered (({ limit := 9 } : Framer).polls 5 (.ofChunks 8192 [lostStream])) =
      [ascii "[1]", ascii "[2]", ascii "[3]"].drop k := by
  decide +kernel

end Parley.Frame
