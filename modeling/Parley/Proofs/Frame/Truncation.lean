import Parley.Proofs.Frame.Calls

/-!
# Streams that break off

A stream of frames that breaks off, at whatever byte, gives the bodies of the frames that are wholly there and then its end: a frame
that was cut is neither delivered in part nor reported (`truncated_stream_ends_cleanly`). Where the frame was cut decides why. A line
that the stream cut off is no declaration; a lone carriage return in front of the body ends the block, but no body follows it; and of
a body that was begun less has come than was declared.
-/

namespace Parley.Frame

/-- A cut falls into a line, or behind its line feed. -/
theorem prefix_line_cases {cut line rest : Bytes} (h : cut <+: line ++ 0x0a :: rest) :
    cut <+: line ∨ ∃ behind, behind <+: rest ∧ cut = line ++ 0x0a :: behind := by
  rcases Nat.le_total cut.length line.length with hle | hle
  · exact .inl (List.prefix_of_prefix_length_le h (List.prefix_append _ _) hle)
  · obtain ⟨more, rfl⟩ := List.prefix_of_prefix_length_le (List.prefix_append _ _) h hle
    cases more with
    | nil => exact .inl (by simp)
    | cons b behind =>
      obtain ⟨rfl, hbehind⟩ := List.cons_prefix_cons.mp ((List.prefix_append_right_inj line).mp h)
      exact .inr ⟨behind, hbehind, rfl⟩

/-- What was cut off from a line that is not blank at its beginning is nothing, or not blank. -/
theorem not_blank_of_cut {cut line : Bytes} {b : UInt8} (h : cut <+: b :: line) (hb : Text.isAsciiBlank b = false)
    (hn : cut ≠ []) : cut.all Text.isAsciiBlank = false := by
  cases cut with
  | nil => exact absurd rfl hn
  | cons c cut =>
    obtain ⟨rfl, -⟩ := List.cons_prefix_cons.mp h
    simp [hb]

namespace Framer

variable {f : Framer} {limit : Nat}

/-- A line that was cut off is passed over. -/
theorem call_cut_line {cut line : Bytes} {b : UInt8} (h : cut <+: b :: line) (hb : Text.isAsciiBlank b = false)
    (hfeed : 0x0a ∉ b :: line) (hlen : (b :: line).length < maxLine) : f.Call cut .ended f [] := by
  by_cases hn : cut = []
  · subst hn
    exact .atEnd f
  · have hcut : 0x0a ∉ cut := fun hm => hfeed (h.subset hm)
    have hother : lengthLine cut = .other := lengthLine_of_not_endsLine (endsLine_of_not_mem hcut)
    exact .more (.last hcut hn (Nat.lt_of_le_of_lt h.length_le hlen)) (.skips (fun _ => hother) (not_blank_of_cut h hb hn))
      (.atEnd f)

/-- Behind a declaration, the stream ends before as much has come as was declared. -/
theorem call_cut_body {n : Nat} {s line cut : Bytes} (hs : FirstLine s line cut) (hb : line.all Text.isAsciiBlank = true)
    (hm : n ≤ maxBuffer) (hn : cut.length < n) : (⟨some n, limit⟩ : Framer).Call s .ended ⟨none, limit⟩ [] :=
  .cut hs (.ends rfl hb hm) hn

/-- A frame that was cut off behind its declaration. -/
theorem exists_call_cut_block {n : Nat} {body cut : Bytes} (h : cut <+: contentType ++ 0x0a :: ([0x0d] ++ 0x0a :: body))
    (hcut : cut ≠ contentType ++ 0x0a :: ([0x0d] ++ 0x0a :: body)) (hn : body.length = n) (hpos : body ≠ []) (hm : n ≤ maxBuffer) :
    ∃ g, (⟨some n, limit⟩ : Framer).Call cut .ended g [] := by
  have hpos := List.length_pos_iff.mpr hpos
  have hfirst : contentType = 0x43 :: contentType.tail := by decide +kernel
  have htype : (0x0a : UInt8) ∉ contentType := by decide +kernel
  have hlen : contentType.length < maxLine := by decide +kernel
  rcases prefix_line_cases h with hline | ⟨behind, hbehind, rfl⟩
  · rw [hfirst] at hline htype hlen
    exact ⟨_, call_cut_line hline (by decide) htype hlen⟩
  · have hskips : (⟨some n, limit⟩ : Framer).Takes (contentType ++ [0x0a]) (.more ⟨some n, limit⟩) :=
      .skips (by simp) (by decide +kernel)
    suffices hbehind : ∃ g, (⟨some n, limit⟩ : Framer).Call behind .ended g [] by
      obtain ⟨g, hg⟩ := hbehind
      exact ⟨g, .more (.fed htype hlen behind) hskips hg⟩
    rcases prefix_line_cases hbehind with hblank | ⟨begun, hbegun, rfl⟩
    · rcases List.prefix_cons_iff.mp hblank with rfl | ⟨none, rfl, hnone⟩
      · exact ⟨_, .atEnd _⟩
      · obtain rfl := List.prefix_nil.mp hnone
        exact ⟨_, call_cut_body (.last (by decide) (by decide) (by decide)) (by decide) hm (by rw [List.length_nil]; omega)⟩
    · have hshort : begun.length < n := by
        rw [← hn]
        exact Nat.lt_of_le_of_ne hbegun.length_le fun he => hcut (by rw [hbegun.eq_of_length he])
      exact ⟨_, call_cut_body (.fed (by decide) (by decide) begun) (by decide) hm hshort⟩

/-- A frame that was cut off gives the end of the stream. -/
theorem exists_call_cut_frame {body cut : Bytes} (hb : body.length ≤ room limit) (hpos : body ≠ []) (h : cut <+: frame body)
    (hcut : cut ≠ frame body) : ∃ g, ({ limit } : Framer).Call cut .ended g [] := by
  have hn := lt_of_le_room hb
  have hlen : (declaration body.length).length < maxLine := Nat.lt_of_le_of_lt (length_declaration_le hn) (by decide)
  have hfirst : declaration body.length = 0x43 :: (declaration body.length).tail := by
    have hname : ascii "Content-Length: " = 0x43 :: (ascii "Content-Length: ").tail := by decide +kernel
    rw [declaration, hname]
    rfl
  have hfeed := not_mem_declaration body.length
  rw [frame_eq] at h hcut
  rcases prefix_line_cases h with hline | ⟨behind, hbehind, rfl⟩
  · rw [hfirst] at hline hfeed hlen
    exact ⟨_, call_cut_line hline (by decide) hfeed hlen⟩
  · obtain ⟨g, hg⟩ := exists_call_cut_block hbehind (fun he => hcut (by rw [he])) rfl hpos (le_maxBuffer_of_le_room hb)
    exact ⟨g, .more (.fed hfeed hlen behind) (.declares rfl (lengthLine_declaration hn) (le_limit_of_le_room hb)) hg⟩

end Framer

/-! ## What a stream that broke off still holds -/

/-- A part of a stream of frames from its beginning: some frames, and a part of the next one. These are all the frames that it holds
wholly. -/
theorem exists_whole {bodies : List Bytes} {s : Bytes} (h : s <+: bodies.flatMap frame) :
    ∃ whole cut, s = whole.flatMap frame ++ cut ∧ whole <+: bodies ∧
      (∀ w, w <+: bodies → (w <+: whole ↔ w.flatMap frame <+: s)) ∧
      (cut = [] ∨ ∃ body ∈ bodies, cut <+: frame body ∧ cut ≠ frame body) := by
  induction bodies generalizing s with
  | nil =>
    obtain rfl := List.prefix_nil.mp h
    refine ⟨[], [], rfl, List.prefix_refl [], fun w hw => ?_, .inl rfl⟩
    obtain rfl := List.prefix_nil.mp hw
    simp
  | cons body bodies ih =>
    rw [List.flatMap_cons] at h
    -- Either the first frame is there as a whole, or all that is there is a part of it.
    by_cases hwhole : frame body <+: s
    · obtain ⟨s', rfl⟩ := hwhole
      obtain ⟨whole, cut, rfl, hfront, hall, hcut⟩ := ih ((List.prefix_append_right_inj _).mp h)
      refine ⟨body :: whole, cut, by simp, by simpa using hfront, fun w hw => ?_, ?_⟩
      · rcases List.prefix_cons_iff.mp hw with rfl | ⟨w', rfl, hw'⟩
        · simp
        · rw [List.flatMap_cons, List.prefix_append_right_inj, ← hall w' hw']
          simp
      · rcases hcut with hcut | ⟨b, hb, hcut⟩
        · exact .inl hcut
        · exact .inr ⟨b, List.mem_cons_of_mem body hb, hcut⟩
    · have hpart : s <+: frame body := by
        rcases List.prefix_or_prefix_of_prefix h (List.prefix_append _ _) with hpart | hover
        · exact hpart
        · exact absurd hover hwhole
      have hne : s ≠ frame body := by
        rintro rfl
        exact hwhole (List.prefix_refl _)
      refine ⟨[], s, rfl, List.nil_prefix, fun w hw => ?_, .inr ⟨body, List.mem_cons_self, hpart, hne⟩⟩
      rcases List.prefix_cons_iff.mp hw with rfl | ⟨w, rfl, -⟩
      · simp
      · constructor
        · intro hnil
          cases List.prefix_nil.mp hnil
        · intro hs
          rw [List.flatMap_cons] at hs
          exact absurd ((List.prefix_append _ _).trans hs) hwhole

namespace Framer

/-- From a stream of frames, none empty or of a body for which there is no room, that breaks off at any byte, a fresh framer takes the
bodies of exactly those frames that are wholly there, and from then on finds the stream at its end; in whatever pieces it comes. -/
theorem truncated_stream_ends_cleanly (limit : Nat) (bodies : List Bytes)
    (hb : ∀ body ∈ bodies, body ≠ [] ∧ body.length ≤ room limit) (s : Bytes) (hs : s <+: bodies.flatMap frame) (r : Reader)
    (hr : r.Delivers s) :
    ∃ whole, whole <+: bodies ∧ (∀ w, w <+: bodies → (w <+: whole ↔ w.flatMap frame <+: s)) ∧
      ∀ n, ({ limit } : Framer).polls (whole.length + n) r = whole.map .payload ++ List.replicate n .ended := by
  obtain ⟨whole, cut, rfl, hfront, hall, hcut⟩ := exists_whole hs
  refine ⟨whole, hfront, hall, fun n => ?_⟩
  have hwhole : ∀ body ∈ whole, body.length ≤ room limit := fun body hm => (hb body (hfront.subset hm)).2
  rw [polls_delivers _ _ hr, outcomes_frames hwhole]
  congr 1
  have hend : ∃ g, ({ limit } : Framer).Call cut .ended g [] := by
    rcases hcut with rfl | ⟨body, hm, hpart, hne⟩
    · exact ⟨_, .atEnd _⟩
    · exact exists_call_cut_frame (hb body hm).2 (hb body hm).1 hpart hne
  obtain ⟨g, hg⟩ := hend
  cases n with
  | zero => rfl
  | succ n => rw [outcomes, next_eq_some_iff.mpr hg, List.replicate_succ, ← outcomes_nil n g]

/-- Two frames, the second cut off between the two bytes of its blank line. -/
def brokenStream : Bytes := frame (ascii "\x7b\x7d") ++ (frame (ascii "ab")).take 77

/-- The second of two frames breaks off within its body. -/
theorem truncated_stream_ends_cleanly_brokenStream :
    (∀ body ∈ [ascii "\x7b\x7d", ascii "ab"], body ≠ [] ∧ body.length ≤ room 2) ∧
    brokenStream <+: [ascii "\x7b\x7d", ascii "ab"].flatMap frame ∧ (Reader.ofChunks 7 [brokenStream]).Delivers brokenStream ∧
    ({ limit := 2 } : Framer).polls 3 (.ofChunks 7 [brokenStream]) = [.payload (ascii "\x7b\x7d"), .ended, .ended] := by
  have hb : ∀ body ∈ [ascii "\x7b\x7d", ascii "ab"], body ≠ [] ∧ body.length ≤ room 2 := by decide +kernel
  have hs : brokenStream <+: [ascii "\x7b\x7d", ascii "ab"].flatMap frame := by decide +kernel
  have hr : (Reader.ofChunks 7 [brokenStream]).Delivers brokenStream := by
    simpa using Reader.delivers_ofChunks (by decide : 0 < 7) [brokenStream]
  obtain ⟨whole, hfront, hall, hpolls⟩ := truncated_stream_ends_cleanly 2 _ hb brokenStream hs _ hr
  have hone : [ascii "\x7b\x7d"] <+: whole := (hall _ (by decide +kernel)).mpr (by decide +kernel)
  have htwo : ¬[ascii "\x7b\x7d", ascii "ab"] <+: whole := fun h =>
    absurd ((hall _ (List.prefix_refl _)).mp h) (by decide +kernel)
  have hwhole : [ascii "\x7b\x7d"] = whole := by
    refine hone.eq_of_length_le (Nat.le_of_not_lt fun hlt => htwo ?_)
    obtain rfl := hfront.eq_of_length (Nat.le_antisymm hfront.length_le hlt)
    exact List.prefix_refl _
  have hthree := hpolls 2
  rw [← hwhole] at hthree
  exact ⟨hb, hs, hr, hthree⟩

end Framer

end Parley.Frame
