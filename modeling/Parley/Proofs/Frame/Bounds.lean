import Parley.Proofs.Frame.Calls

/-!
# Progress within bounds

Whatever the bytes of a stream are, every call takes some of them until the stream has ended, and no length above the limit is ever
kept (`Framer.Within`). The bodies that are delivered stand in the stream one behind the other (`Slices`), and those before a fatal
fault each behind a header block of which the first length declared is theirs (`Layout`). Exactly where a call comes to it
(`Framer.Reads`) it finds out a line that is too long, and breaks off at a length that no buffer can have
(`huge_length_breaks_off`).
-/

namespace Parley.Frame

/-! ## The limit -/

/-- A framer has a limit, and holds no length above it. -/
def Framer.Within (limit : Nat) (f : Framer) : Prop := f.limit = limit ∧ ∀ n ∈ f.declared, n ≤ limit

/-- A header line leads to a framer within the limit, and to no body above it. -/
def LineStep.Within (limit : Nat) : LineStep → Prop
  | .more f | .fault _ f => f.Within limit
  | .body n f => n ≤ limit ∧ f.Within limit

namespace Framer

variable {f : Framer} {limit : Nat}

/-- A line that declares nothing leaves the length that was declared. -/
theorem Within.otherLine (h : f.Within limit) (line : Bytes) : (f.otherLine line).Within limit := by
  unfold Framer.otherLine
  split
  · cases hd : f.declared with
    | none => exact h
    | some n =>
      simp only
      split
      · exact ⟨h.1, by simp⟩
      · exact ⟨h.2 n hd, h.1, by simp⟩
  · exact h

/-- A header line declares no length above the limit, and ends the block with none. -/
theorem Within.line (h : f.Within limit) (line : Bytes) : (f.line line).Within limit := by
  unfold Framer.line
  split
  · exact h
  · split
    · cases lengthLine line with
      | declares n =>
        simp only
        split
        · exact h
        · rename_i hn
          refine ⟨h.1, fun m hm => ?_⟩
          obtain rfl := Option.some.inj hm
          rw [← h.1]
          exact Nat.not_lt.mp hn
      | malformed digits => exact h
      | other => exact h.otherLine line
    · exact h.otherLine line

/-- What a framer takes is within the limit, and leaves it so. -/
theorem Within.next (h : f.Within limit) {closed : Bool} {bytes rest : Bytes} {r : Reading} {f' : Framer}
    (hn : f.next closed bytes = some (r, f', rest)) : f'.Within limit ∧ ∀ body, r = .payload body → body.length ≤ limit := by
  induction hk : bytes.length using Nat.strongRecOn generalizing f bytes with
  | _ k ih =>
    by_cases hb : bytes = []
    · subst hb
      cases closed with
      | false => simp [next_nil] at hn
      | true =>
        simp only [next_nil, if_true, Option.some.injEq, Prod.mk.injEq] at hn
        obtain ⟨rfl, rfl, -⟩ := hn
        exact ⟨h, by simp⟩
    · have hlt := length_splitLine_lt hb
      rw [Framer.next, dif_neg hb] at hn
      simp only at hn
      split at hn
      · cases hn
      · have hl := h.line (splitLine maxLine bytes).1
        split at hn
        · rename_i g hg
          rw [hg] at hl
          exact ih _ (by omega) hl hn rfl
        · rename_i e g hg
          rw [hg] at hl
          simp only [Option.some.injEq, Prod.mk.injEq] at hn
          obtain ⟨rfl, rfl, -⟩ := hn
          exact ⟨hl, by simp⟩
        -- A declared length is within the limit since it was declared, and the body is no longer than that.
        · rename_i n g hg
          rw [hg] at hl
          split at hn
          · rename_i hle
            simp only [Option.some.injEq, Prod.mk.injEq] at hn
            obtain ⟨rfl, rfl, -⟩ := hn
            refine ⟨hl.2, fun body hbody => ?_⟩
            obtain rfl := Reading.payload.inj hbody
            rw [List.length_take]
            exact Nat.le_trans (Nat.min_le_left _ _) hl.1
          · split at hn
            · simp only [Option.some.injEq, Prod.mk.injEq] at hn
              obtain ⟨rfl, rfl, -⟩ := hn
              exact ⟨hl.2, by simp⟩
            · cases hn

end Framer

/-! ## Where bodies stand -/

/-- Bodies that stand in a stream one behind the other, each in one piece. -/
inductive Slices : Bytes → List Bytes → Prop
  | nil (s : Bytes) : Slices s []
  | cons (gap body : Bytes) {rest : Bytes} {bodies : List Bytes} (h : Slices rest bodies) :
      Slices (gap ++ (body ++ rest)) (body :: bodies)

/-- What stands in front of the bodies changes nothing. -/
theorem Slices.behind {s : Bytes} {bodies : List Bytes} (h : Slices s bodies) (front : Bytes) : Slices (front ++ s) bodies := by
  cases h with
  | nil s => exact .nil _
  | cons gap body h =>
    rw [← List.append_assoc]
    exact .cons (front ++ gap) body h

/-- The length declared by the first line that declares one. -/
def firstLength (lines : List Bytes) : Option Nat := lines.findSome? fun line => (lengthLine line).length?

/-- The first lines of a stream, none of them blank, and what stands behind them. -/
inductive FirstLines : Bytes → List Bytes → Bytes → Prop
  | nil (s : Bytes) : FirstLines s [] s
  | cons {s line t u : Bytes} {lines : List Bytes} (h : FirstLine s line t) (hb : line.all Text.isAsciiBlank = false)
      (hr : FirstLines t lines u) : FirstLines s (line :: lines) u

/-- One more line that is not blank. -/
theorem FirstLines.concat {s line t u : Bytes} {lines : List Bytes} (h : FirstLines s lines t) (hl : FirstLine t line u)
    (hb : line.all Text.isAsciiBlank = false) : FirstLines s (lines ++ [line]) u := by
  induction h with
  | nil s => exact .cons hl hb (.nil u)
  | cons h hb' _ ih => exact .cons h hb' (ih hl)

/-- The header block in front of a stream: its lines, up to a blank one, and what stands behind that. -/
def HeaderBlock (s : Bytes) (lines : List Bytes) (t : Bytes) : Prop :=
  ∃ u blank, FirstLines s lines u ∧ FirstLine u blank t ∧ blank.all Text.isAsciiBlank = true

/-- The bodies of a stream: header blocks follow one another, and behind each that declares a length stands a body of the length
that it declares first. -/
inductive Layout : Bytes → List Bytes → Prop
  | nil (s : Bytes) : Layout s []
  | bare {s t : Bytes} {lines bodies : List Bytes} (h : HeaderBlock s lines t) (hl : firstLength lines = none)
      (hr : Layout t bodies) : Layout s bodies
  | body {s body t : Bytes} {lines bodies : List Bytes} (h : HeaderBlock s lines (body ++ t))
      (hl : firstLength lines = some body.length) (hr : Layout t bodies) : Layout s (body :: bodies)

/-- The first length of some lines and one more. -/
theorem firstLength_concat (lines : List Bytes) (line : Bytes) :
    firstLength (lines ++ [line]) = (firstLength lines).or (lengthLine line).length? := by
  rw [firstLength, List.findSome?_append, List.findSome?_singleton]
  rfl

namespace Framer

/-! ## Single calls -/

variable {f g h : Framer} {s t u line : Bytes} {x : Reading}

/-- A body that is delivered is what the call took last. -/
theorem Call.body_eq {body : Bytes} (hc : f.Call s (.payload body) g t) : ∃ gap, s = gap ++ (body ++ t) := by
  generalize hx : Reading.payload body = x at hc
  induction hc with
  | atEnd f => cases hx
  | overlong ho => cases hx
  | more hs hl hc ih =>
    obtain ⟨gap, rfl⟩ := ih hx
    exact ⟨_ ++ gap, by rw [hs.eq_append, List.append_assoc]⟩
  | fault hs hl => cases hx
  | body hs hl =>
    cases hx
    exact ⟨_, hs.eq_append⟩
  | cut hs hl hn => cases hx

/-! ## How far a call comes -/

/-- A call that begins with a framer in front of a stream comes with a framer in front of a line of it, or of its end. -/
inductive Reads : Framer → Bytes → Framer → Bytes → Prop
  | here (f : Framer) (s : Bytes) : Reads f s f s
  | more {f g h : Framer} {s line t u : Bytes} (hs : FirstLine s line t) (hl : f.Takes line (.more g)) (hr : Reads g t h u) :
      Reads f s h u

/-- What a call does it does from every line on that it comes to. -/
theorem Reads.next_eq (hr : f.Reads s h u) : f.next true s = h.next true u := by
  induction hr with
  | here f s => rfl
  | more hs hl hr ih => rw [next_firstLine _ hs, hs.line_eq_iff.mpr hl, ← ih]

/-- A call fails for a line that is too long exactly if it comes to one. -/
theorem Call.headerTooLong_iff (hc : f.Call s x g t) (n : Nat) :
    x = .fault (.headerTooLong n) ↔ n = maxLine ∧ ∃ h u, f.Reads s h u ∧ Overlong u := by
  constructor
  · intro hx
    induction hc with
    | atEnd f => cases hx
    | overlong ho =>
      cases hx
      exact ⟨rfl, _, _, .here _ _, ho⟩
    | more hs hl hc ih =>
      obtain ⟨hn, h, u, hr, ho⟩ := ih hx
      exact ⟨hn, h, u, .more hs hl hr, ho⟩
    | fault hs hl =>
      cases hx
      cases hl
    | body hs hl => cases hx
    | cut hs hl hn => cases hx
  · rintro ⟨rfl, h, u, hr, ho⟩
    have hnext := next_eq_some_iff.mpr hc
    rw [hr.next_eq, next_overlong h ho] at hnext
    cases hnext
    rfl

/-- A framer in front of the blank line that ends a header block in which a length was declared that no buffer can have. -/
def Overflows (h : Framer) (u : Bytes) : Prop :=
  ∃ n line t, h.declared = some n ∧ maxBuffer < n ∧ FirstLine u line t ∧ line.all Text.isAsciiBlank = true

theorem breaksOff_eq_true_iff : x.breaksOff = true ↔ x = .fault .capacityOverflow := by
  cases x <;> simp [Reading.breaksOff, FrameFault.breaksOff]

/-- A call breaks off exactly if it comes to the end of a block that declares a length which no buffer can have. -/
theorem Call.breaksOff_iff (hc : f.Call s x g t) : x.breaksOff = true ↔ ∃ h u, f.Reads s h u ∧ h.Overflows u := by
  rw [breaksOff_eq_true_iff]
  constructor
  · intro hx
    induction hc with
    | atEnd f => cases hx
    | overlong ho => cases hx
    | more hs hl hc ih =>
      obtain ⟨h, u, hr, ho⟩ := ih hx
      exact ⟨h, u, .more hs hl hr, ho⟩
    | fault hs hl =>
      cases hx
      cases hl with
      | overflows hd hb hn => exact ⟨_, _, .here _ _, _, _, _, hd, hn, hs, hb⟩
    | body hs hl => cases hx
    | cut hs hl hn => cases hx
  · rintro ⟨h, u, hr, n, line, v, hd, hn, hs, hb⟩
    have hnext := next_eq_some_iff.mpr hc
    rw [hr.next_eq, next_firstLine h hs, hs.line_eq_iff.mpr (.overflows hd hb hn)] at hnext
    cases hnext
    rfl

/-- A line declares no length above the limit. -/
theorem Takes.within {step : LineStep} {limit : Nat} (hs : FirstLine s line t) (hl : f.Takes line step) (h : f.Within limit) :
    step.Within limit := hs.line_eq_iff.mpr hl ▸ h.line line

/-- Within a limit for which there may be a buffer no call comes to such a block. -/
theorem Reads.not_overflows {limit : Nat} (hr : f.Reads s h u) (hw : f.Within limit) (hm : limit ≤ maxBuffer) : ¬h.Overflows u := by
  induction hr with
  | here f s =>
    rintro ⟨n, line, t, hd, hn, -, -⟩
    have hle := hw.2 n hd
    omega
  | more hs hl hr ih => exact ih (hl.within hs hw)

/-! ## Header blocks -/

/-- What a call leaves of a stream of which a header block was begun. -/
inductive Leaves (s : Bytes) : Reading → Option Nat → Bytes → Prop
  | body {lines : List Bytes} {body t : Bytes} (h : HeaderBlock s lines (body ++ t))
      (hl : firstLength lines = some body.length) : Leaves s (.payload body) none t
  | bare {lines : List Bytes} {t : Bytes} (h : HeaderBlock s lines t) (hl : firstLength lines = none) :
      Leaves s (.fault .missingLength) none t
  | inside {lines : List Bytes} {t : Bytes} (h : FirstLines s lines t) (digits : String) :
      Leaves s (.fault (.invalidLength digits)) (firstLength lines) t
  | fatal {x : Reading} (hx : x.isFatal = true) (declared : Option Nat) (t : Bytes) : Leaves s x declared t
  | ended (declared : Option Nat) : Leaves s .ended declared []

/-- The length that is kept inside a header block is the first that was declared in it. -/
theorem Call.leaves (hc : f.Call s x g t) {s₀ : Bytes} {lines : List Bytes} (h : FirstLines s₀ lines s)
    (hf : f.declared = firstLength lines) : Leaves s₀ x g.declared t := by
  induction hc generalizing lines with
  | atEnd f => exact .ended _
  | overlong ho => exact .fatal rfl _ _
  | @more f g' g s line u t x hs hl hc ih =>
    cases hl with
    | @declares n hd hl hn =>
      refine ih (h.concat hs (not_blank_of_lengthLine (by simp [hl]))) ?_
      rw [firstLength_concat, ← hf, hd, hl]
      rfl
    -- What is declared is the first length among the lines: a line that declares none keeps it.
    | skips hl hb =>
      refine ih (h.concat hs hb) ?_
      rw [firstLength_concat, ← hf]
      cases hd : f.declared with
      | none => rw [hl hd]; rfl
      | some n => rfl
  | @fault f g s line t e hs hl =>
    cases hl with
    | tooLarge hd hl hn => exact .fatal rfl _ _
    | @malformed digits hd hl =>
      have hkept : f.declared = firstLength (lines ++ [line]) := by
        rw [firstLength_concat, ← hf, hd, hl]
        rfl
      rw [hkept]
      exact .inside (h.concat hs (not_blank_of_lengthLine (by simp [hl]))) digits
    | missing hd hb =>
      rw [hd]
      exact .bare ⟨s, line, h, hs, hb⟩ (hf.symm.trans hd)
    | overflows hd hb hn => exact .fatal rfl _ _
  | @body f g s line body t hs hl =>
    generalize hn : body.length = n at hl
    cases hl with
    | ends hd hb hm => exact .body ⟨s, line, h, hs, hb⟩ (by rw [← hf, hd, hn])
  | cut hs hl hn => exact .ended _

/-! ## Rows of calls -/

variable {xs : List Reading}

/-- So no row of calls keeps one. -/
theorem Calls.within {limit : Nat} (hr : f.Calls s xs g t) (h : f.Within limit) : g.Within limit := by
  induction hr with
  | nil f s => exact h
  | cons hc _ ih => exact ih (h.next (next_eq_some_iff.mpr hc)).1

/-- Each call takes a byte or finds the end, so of more calls than bytes one finds it. -/
theorem Calls.ended_mem (hr : f.Calls s xs g t) (hn : s.length < xs.length) : .ended ∈ xs := by
  refine Decidable.byContradiction fun hx => ?_
  have hle := hr.length_le hx
  omega

/-- At the end of the stream there is nothing but its end. -/
theorem Calls.eq_replicate (hr : f.Calls [] xs g t) : xs = List.replicate xs.length .ended := by
  generalize hs : ([] : Bytes) = s at hr
  induction hr with
  | nil f s => rfl
  | cons hc _ ih =>
    subst hs
    obtain ⟨rfl, rfl⟩ := hc.eq_ended
    rw [List.length_cons, List.replicate_succ, ← ih rfl]

/-- The bodies of calls in a row stand one behind the other. -/
theorem Calls.slices (hr : f.Calls s xs g t) : Slices s (payloads xs) := by
  induction hr with
  | nil f s => exact .nil s
  | @cons f g h s t u x xs hc _ ih =>
    cases x with
    | payload body =>
      obtain ⟨gap, rfl⟩ := hc.body_eq
      exact .cons gap body ih
    | fault e =>
      obtain ⟨taken, -, rfl⟩ := hc.taken (by simp)
      exact ih.behind taken
    | ended =>
      obtain rfl := hc.eq_nil_of_ended
      have hbehind := ih.behind s
      rw [List.append_nil] at hbehind
      exact hbehind

/-- Each body before a fatal fault has the length that is declared first in its header block. -/
theorem Calls.layout (hr : f.Calls s xs g t) {s₀ : Bytes} {lines : List Bytes} (h : FirstLines s₀ lines s)
    (hf : f.declared = firstLength lines) : Layout s₀ (delivered xs) := by
  induction hr generalizing s₀ lines with
  | nil f s => exact .nil s₀
  | @cons f g h' s t u x xs hc hr ih =>
    have hleaves := hc.leaves h hf
    generalize hd : g.declared = declared at hleaves
    cases hleaves with
    | body hblock hl =>
      rw [delivered_cons rfl]
      exact .body hblock hl (ih (.nil t) hd)
    | bare hblock hl =>
      rw [delivered_cons rfl]
      exact .bare hblock hl (ih (.nil t) hd)
    | inside hlines digits =>
      rw [delivered_cons rfl]
      exact ih hlines hd
    | fatal hx =>
      rw [delivered_cons_of_isFatal hx]
      exact .nil s₀
    | ended =>
      rw [delivered_cons rfl, hr.eq_replicate, delivered_replicate_ended]
      exact .nil s₀

/-! ## Streams of any kind -/

/-- Calls on a stream of which no read fails, whatever its bytes are and in whatever pieces they come, in nine parts.
1. The bodies delivered by the first calls stand in the stream one behind the other.
2. Those delivered before a fatal fault stand each behind its header block and have the length that is declared there first.
3. One of the first calls finds the stream at its end, if there are more of these calls than bytes; faults are passed over, and so
   are calls that broke off.
4. Before the call number `n + 1`, no length above the limit is kept.
5. The call takes at least one byte, unless it finds the stream at its end.
6. If it does so, then so do all later ones.
7. It fails for a line that is too long exactly if it comes to one: as many bytes as a line may have, with no line feed among them.
8. It breaks off exactly if it comes to the end of a header block that declares a length which no buffer can have.
9. No call does that if there may be a buffer as long as the limit. -/
theorem progress_within_bounds (limit : Nat) {stream : Bytes} {r : Reader} (hr : r.Delivers stream) :
    (∀ n, Slices stream (payloads (({ limit } : Framer).polls n r))) ∧
    (∀ n, Layout stream (delivered (({ limit } : Framer).polls n r))) ∧
    .ended ∈ ({ limit } : Framer).polls (stream.length + 1) r ∧
    ∀ n, ∃ (g : Framer) (r' : Reader) (s : Bytes), ({ limit } : Framer).after n r = (g, r') ∧ r'.Delivers s ∧
      (∀ m, g.declared = some m → m ≤ limit) ∧
      ∃ (x : Reading) (g' : Framer) (r'' : Reader) (t : Bytes), g.poll r' = (x, g', r'') ∧ r''.Delivers t ∧
        ({ limit } : Framer).polls (n + 1) r = ({ limit } : Framer).polls n r ++ [x] ∧
        (x ≠ .ended → ∃ taken, taken ≠ [] ∧ s = taken ++ t) ∧
        (x = .ended → ∀ m, g'.polls m r'' = List.replicate m .ended) ∧
        (∀ m, x = .fault (.headerTooLong m) ↔ m = maxLine ∧ ∃ h u, g.Reads s h u ∧ Overlong u) ∧
        (x.breaksOff = true ↔ ∃ h u, g.Reads s h u ∧ h.Overflows u) ∧
        (limit ≤ maxBuffer → x.breaksOff = false) := by
  have hfresh : ({ limit } : Framer).Within limit := ⟨rfl, by simp⟩
  refine ⟨fun n => ?_, fun n => ?_, ?_, fun n => ?_⟩
  · obtain ⟨xs, g, t, r', hc, -, hp, -, -⟩ := exists_calls n { limit } hr
    rw [hp]
    exact hc.slices
  · obtain ⟨xs, g, t, r', hc, -, hp, -, -⟩ := exists_calls n { limit } hr
    rw [hp]
    exact hc.layout (.nil stream) rfl
  · obtain ⟨xs, g, t, r', hc, hlen, hp, -, -⟩ := exists_calls (stream.length + 1) { limit } hr
    rw [hp]
    exact hc.ended_mem (by omega)
  · obtain ⟨xs, g, s, r', hc, hlen, hp, hafter, hd⟩ := exists_calls n { limit } hr
    obtain ⟨x, g', t, r'', hcall, hpoll, hd'⟩ := g.exists_call hd
    have hwithin := hc.within hfresh
    refine ⟨g, r', s, hafter, hd, hwithin.2, x, g', r'', t, hpoll, hd', ?_, hcall.taken, ?_, hcall.headerTooLong_iff,
      hcall.breaksOff_iff, fun hm => ?_⟩
    · obtain ⟨r₁, hafter₁, -, hpolls⟩ := hc.polls hr 1
      rw [hlen, hafter] at hafter₁
      obtain rfl : r' = r₁ := (Prod.mk.inj hafter₁).2
      rw [hlen] at hpolls
      rw [hpolls, hp]
      simp [polls, hpoll]
    · rintro rfl m
      rw [hcall.eq_nil_of_ended] at hd'
      exact polls_of_delivers_nil m g' hd'
    · rw [Bool.eq_false_iff, ne_eq, hcall.breaksOff_iff]
      rintro ⟨h, u, hreads, ho⟩
      exact hreads.not_overflows hwithin hm ho

/-- Of three lines with the name of the length the first denotes no length and the third comes too late; the next block announces
too much. -/
def rivalLengths : Bytes :=
  ascii "Content-Length: 99999999999999999999
Content-Length: 2
Content-Length: 7

{}Content-Length: 9

"

/-- What becomes of the lengths of `rivalLengths`, which come in pieces of five bytes. -/
theorem progress_within_bounds_rivalLengths :
    (Reader.ofChunks 5 [rivalLengths]).Delivers rivalLengths ∧
    ({ limit := 8 } : Framer).polls 5 (.ofChunks 5 [rivalLengths]) =
      [.fault (.invalidLength "99999999999999999999"), .payload (ascii "{}"), .fault (.tooLarge 9 8), .fault .missingLength,
        .ended] ∧
    Layout rivalLengths [ascii "{}"] := by
  have hr : (Reader.ofChunks 5 [rivalLengths]).Delivers rivalLengths := by
    simpa using Reader.delivers_ofChunks (by decide : 0 < 5) [rivalLengths]
  have hpolls : ({ limit := 8 } : Framer).polls 5 (.ofChunks 5 [rivalLengths]) =
      [.fault (.invalidLength "99999999999999999999"), .payload (ascii "{}"), .fault (.tooLarge 9 8), .fault .missingLength,
        .ended] := by
    decide +kernel
  have hlayout := (progress_within_bounds 8 hr).2.1 5
  rw [hpolls] at hlayout
  exact ⟨hr, hpolls, hlayout⟩

/-- A header block that declares the largest length that a line can declare. -/
def hugeStream : Bytes := ascii "Content-Length: 18446744073709551615\r\n\r\n"

/-- If the limit allows that length, the call on this stream neither delivers a body, nor fails, nor finds the stream at its end. -/
theorem huge_length_breaks_off :
    ∃ x, ({ limit := Nat.pow 2 64 - 1 } : Framer).polls 1 (.ofChunks 8192 [hugeStream]) = [x] ∧ x.breaksOff = true :=
  ⟨.fault .capacityOverflow, by decide +kernel, rfl⟩

end Framer

end Parley.Frame
