import Parley.Proofs.Frame.Header

/-!
# Calls on a framer

`Framer.Call` says all that one call does to a stream that is closed: it takes lines, and ends with a fault, with a body, or with the
end of the stream. It is the same as `Framer.next` (`next_eq_some_iff`), and what is proved of a row of calls (`Framer.Calls`) holds
of the calls on every reader that delivers the stream (`Calls.polls`, `exists_calls`).
-/

namespace Parley.Frame

/-! ## Results -/

/-- The body that was delivered, if one was. -/
def Reading.body? : Reading → Option Bytes
  | .payload body => some body
  | .ended | .fault _ => none

/-- A fault after which a connection is given up. -/
def Reading.isFatal : Reading → Bool
  | .fault e => e.isFatal
  | .payload _ | .ended => false

/-- The bodies among some results. -/
def payloads (xs : List Reading) : List Bytes := xs.filterMap Reading.body?

/-- The bodies that come before the first fatal fault. -/
def delivered (xs : List Reading) : List Bytes := payloads (xs.takeWhile fun x => !x.isFatal)

@[simp] theorem payloads_append (xs ys : List Reading) : payloads (xs ++ ys) = payloads xs ++ payloads ys := List.filterMap_append

@[simp] theorem payloads_map_payload (bodies : List Bytes) : payloads (bodies.map .payload) = bodies := by
  induction bodies with
  | nil => rfl
  | cons body bodies ih => simpa [payloads, Reading.body?] using ih

/-- Behind what is not fatal, bodies count. -/
theorem delivered_cons {x : Reading} (h : x.isFatal = false) (xs : List Reading) :
    delivered (x :: xs) = x.body?.toList ++ delivered xs := by
  cases hb : x.body? <;> simp [delivered, payloads, h, hb]

/-- Behind what is fatal, none does. -/
theorem delivered_cons_of_isFatal {x : Reading} (h : x.isFatal = true) (xs : List Reading) : delivered (x :: xs) = [] := by
  simp [delivered, payloads, h]

/-- So they count behind a row of which nothing is fatal. -/
theorem delivered_append {xs : List Reading} (h : ∀ x ∈ xs, x.isFatal = false) (ys : List Reading) :
    delivered (xs ++ ys) = payloads xs ++ delivered ys := by
  rw [delivered, List.takeWhile_append_of_pos (by simpa using h), payloads_append]
  rfl

@[simp] theorem delivered_replicate_ended (n : Nat) : delivered (List.replicate n .ended) = [] := by
  induction n with
  | zero => rfl
  | succ n ih => rw [List.replicate_succ, delivered_cons rfl, ih]; rfl

namespace Framer

/-! ## One call -/

/-- All that a call does to a stream of which no more bytes will come. -/
inductive Call : Framer → Bytes → Reading → Framer → Bytes → Prop
  | atEnd (f : Framer) : Call f [] .ended f []
  | overlong {f : Framer} {s : Bytes} (ho : Overlong s) : Call f s (.fault (.headerTooLong maxLine)) f (s.drop maxLine)
  | more {f g h : Framer} {s line t u : Bytes} {x : Reading} (hs : FirstLine s line t) (hl : f.Takes line (.more g))
      (hc : Call g t x h u) : Call f s x h u
  | fault {f g : Framer} {s line t : Bytes} {e : FrameFault} (hs : FirstLine s line t) (hl : f.Takes line (.fault e g)) :
      Call f s (.fault e) g t
  | body {f g : Framer} {s line body t : Bytes} (hs : FirstLine s line (body ++ t)) (hl : f.Takes line (.body body.length g)) :
      Call f s (.payload body) g t
  | cut {f g : Framer} {s line t : Bytes} {n : Nat} (hs : FirstLine s line t) (hl : f.Takes line (.body n g)) (hn : t.length < n) :
      Call f s .ended g []

/-- A call takes the first line of a stream, if it is one. -/
theorem next_firstLine (f : Framer) {s line t : Bytes} (hs : FirstLine s line t) :
    f.next true s =
      match f.line line with
      | .more f => f.next true t
      | .fault e f => some (.fault e, f, t)
      | .body n f => if n ≤ t.length then some (.payload (t.take n), f, t.drop n) else some (.ended, f, []) :=
  f.next_of_line hs.ne_nil hs.splitLine_eq (.inl rfl)

/-- A line that is too long is taken as far as a line may go. -/
theorem next_overlong (f : Framer) {s : Bytes} (ho : Overlong s) :
    f.next true s = some (.fault (.headerTooLong maxLine), f, s.drop maxLine) := by
  have hne : s ≠ [] := by
    rintro rfl
    exact absurd ho.long (by decide)
  have hlen : (s.take maxLine).length = maxLine := List.length_take_of_le ho.long
  rw [f.next_of_line hne (splitLine_of_not_mem ho.unfed) (.inl rfl), Framer.line,
    if_pos ⟨hlen, endsLine_of_not_mem ho.unfed⟩]

/-- A call does what `Call` says, and nothing else. -/
theorem next_eq_some_iff {f g : Framer} {s t : Bytes} {x : Reading} : f.next true s = some (x, g, t) ↔ f.Call s x g t := by
  constructor
  · intro h
    -- A line that is read leaves less of the stream, so the induction is on what is left of it.
    induction hn : s.length using Nat.strongRecOn generalizing f s with
    | _ n ih =>
      by_cases hs : s = []
      · subst hs
        obtain ⟨rfl, rfl, rfl⟩ : Reading.ended = x ∧ f = g ∧ [] = t := by simpa [next_nil] using h
        exact .atEnd f
      · rcases firstLine_or_overlong hs with ⟨line, rest, hfirst⟩ | ho
        · rw [next_firstLine f hfirst] at h
          cases hline : f.line line with
          | more f' =>
            rw [hline] at h
            have hlt : rest.length < n := by
              have hp := List.length_pos_iff.mpr hfirst.line_ne_nil
              rw [← hn, hfirst.eq_append, List.length_append]
              omega
            exact .more hfirst (hfirst.line_eq_iff.mp hline) (ih _ hlt h rfl)
          | fault e f' =>
            rw [hline] at h
            obtain ⟨rfl, rfl, rfl⟩ : Reading.fault e = x ∧ f' = g ∧ rest = t := by simpa using h
            exact .fault hfirst (hfirst.line_eq_iff.mp hline)
          | body k f' =>
            simp only [hline] at h
            by_cases hk : k ≤ rest.length
            · obtain ⟨rfl, rfl, rfl⟩ : Reading.payload (rest.take k) = x ∧ f' = g ∧ rest.drop k = t := by simpa [hk] using h
              have hbody : (rest.take k).length = k := List.length_take_of_le hk
              have htakes : f.Takes line (.body (rest.take k).length f') := by
                rw [hbody]
                exact hfirst.line_eq_iff.mp hline
              exact .body (by rwa [List.take_append_drop]) htakes
            · obtain ⟨rfl, rfl, rfl⟩ : Reading.ended = x ∧ f' = g ∧ [] = t := by simpa [hk] using h
              exact .cut hfirst (hfirst.line_eq_iff.mp hline) (by omega)
        · rw [next_overlong f ho] at h
          obtain ⟨rfl, rfl, rfl⟩ : Reading.fault (.headerTooLong maxLine) = x ∧ f = g ∧ s.drop maxLine = t := by simpa using h
          exact .overlong ho
  · intro h
    induction h with
    | atEnd f => simp [next_nil]
    | overlong ho => exact next_overlong _ ho
    | more hs hl hc ih => rw [next_firstLine _ hs, hs.line_eq_iff.mpr hl]; exact ih
    | fault hs hl => rw [next_firstLine _ hs, hs.line_eq_iff.mpr hl]
    | body hs hl => simp [next_firstLine _ hs, hs.line_eq_iff.mpr hl]
    | cut hs hl hn => simp [next_firstLine _ hs, hs.line_eq_iff.mpr hl, Nat.not_le.mpr hn]

/-- Where a call finds the stream at its end, nothing is left. -/
theorem Call.eq_nil_of_ended {f g : Framer} {s t : Bytes} (hc : f.Call s .ended g t) : t = [] := by
  generalize hx : Reading.ended = x at hc
  induction hc with
  | atEnd f => rfl
  | overlong ho => cases hx
  | more hs hl hc ih => exact ih hx
  | fault hs hl => cases hx
  | body hs hl => cases hx
  | cut hs hl hn => rfl

/-- At the end of the stream a call says so. -/
theorem Call.eq_ended {f g : Framer} {t : Bytes} {x : Reading} (hc : f.Call [] x g t) : x = .ended ∧ t = [] := by
  have hnext := next_eq_some_iff.mpr hc
  obtain ⟨hx, -, ht⟩ : Reading.ended = x ∧ f = g ∧ [] = t := by simpa [next_nil] using hnext
  exact ⟨hx.symm, ht.symm⟩

/-- A call that does not find the stream at its end takes at least one byte. -/
theorem Call.taken {f g : Framer} {s t : Bytes} {x : Reading} (hc : f.Call s x g t) (hx : x ≠ .ended) :
    ∃ taken, taken ≠ [] ∧ s = taken ++ t := by
  induction hc with
  | atEnd f => exact absurd rfl hx
  | @overlong f s ho =>
    refine ⟨s.take maxLine, fun hn => ?_, (List.take_append_drop maxLine s).symm⟩
    have hlen := List.length_take_of_le ho.long
    rw [hn] at hlen
    exact absurd hlen (by decide)
  | @more f g h s line t u x hs hl hc ih =>
    obtain ⟨taken, -, rfl⟩ := ih hx
    exact ⟨line ++ taken, List.append_ne_nil_of_left_ne_nil hs.line_ne_nil taken, by rw [hs.eq_append, List.append_assoc]⟩
  | @fault f g s line t e hs hl => exact ⟨line, hs.line_ne_nil, hs.eq_append⟩
  | @body f g s line body t hs hl =>
    exact ⟨line ++ body, List.append_ne_nil_of_left_ne_nil hs.line_ne_nil body, by rw [hs.eq_append, List.append_assoc]⟩
  | cut hs hl hn => exact absurd rfl hx

/-- What a call leaves is what stood behind the bytes that it took. -/
theorem Call.suffix {f g : Framer} {s t : Bytes} {x : Reading} (hc : f.Call s x g t) : ∃ taken, s = taken ++ t := by
  by_cases hx : x = .ended
  · subst hx
    rw [hc.eq_nil_of_ended]
    exact ⟨s, (List.append_nil s).symm⟩
  · obtain ⟨taken, -, hs⟩ := hc.taken hx
    exact ⟨taken, hs⟩

/-! ## Rows of calls -/

/-- Calls one after another, with their results. -/
inductive Calls : Framer → Bytes → List Reading → Framer → Bytes → Prop
  | nil (f : Framer) (s : Bytes) : Calls f s [] f s
  | cons {f g h : Framer} {s t u : Bytes} {x : Reading} {xs : List Reading} (hc : f.Call s x g t) (hr : Calls g t xs h u) :
      Calls f s (x :: xs) h u

/-- Calls take the stream from its beginning. -/
theorem Calls.suffix {f g : Framer} {s t : Bytes} {xs : List Reading} (hr : f.Calls s xs g t) : ∃ taken, s = taken ++ t := by
  induction hr with
  | nil f s => exact ⟨[], rfl⟩
  | cons hc _ ih =>
    obtain ⟨taken, rfl⟩ := hc.suffix
    obtain ⟨more, rfl⟩ := ih
    exact ⟨taken ++ more, (List.append_assoc taken more _).symm⟩

/-- As long as the stream has not ended, there are no more calls than bytes taken. -/
theorem Calls.length_le {f g : Framer} {s t : Bytes} {xs : List Reading} (hr : f.Calls s xs g t) (hx : .ended ∉ xs) :
    xs.length + t.length ≤ s.length := by
  induction hr with
  | nil f s => simp
  | @cons f g h s t u x xs hc _ ih =>
    rw [List.mem_cons, not_or] at hx
    obtain ⟨taken, hn, rfl⟩ := hc.taken (Ne.symm hx.1)
    have hpos := List.length_pos_iff.mpr hn
    have hle := ih hx.2
    rw [List.length_cons, List.length_append]
    omega

/-- The framer and the reader after the first calls. -/
def after : Nat → Framer → Reader → Framer × Reader
  | 0, f, r => (f, r)
  | n + 1, f, r =>
    let (_, f, r) := f.poll r
    f.after n r

/-- A call on a reader does to the bytes that it delivers what `Call` says. -/
theorem exists_call (f : Framer) {r : Reader} {s : Bytes} (hd : r.Delivers s) :
    ∃ x g t r', f.Call s x g t ∧ f.poll r = (x, g, r') ∧ r'.Delivers t := by
  obtain ⟨x, g, t, r', hn, hp, hd'⟩ := f.poll_delivers hd
  exact ⟨x, g, t, r', next_eq_some_iff.mp hn, hp, hd'⟩

/-- Calls on a reader are calls on the bytes that it delivers. -/
theorem exists_calls (n : Nat) (f : Framer) {r : Reader} {s : Bytes} (hd : r.Delivers s) :
    ∃ xs g t r', f.Calls s xs g t ∧ xs.length = n ∧ f.polls n r = xs ∧ f.after n r = (g, r') ∧ r'.Delivers t := by
  induction n generalizing f r s with
  | zero => exact ⟨[], f, s, r, .nil f s, rfl, rfl, rfl, hd⟩
  | succ n ih =>
    obtain ⟨x, g, t, r', hc, hp, hd'⟩ := f.exists_call hd
    obtain ⟨xs, h, u, r'', hr, hlen, hpolls, hafter, hd''⟩ := ih g hd'
    exact ⟨x :: xs, h, u, r'', .cons hc hr, by rw [List.length_cons, hlen], by simp [polls, hp, hpolls],
      by simp [after, hp, hafter], hd''⟩

/-- Calls on the bytes that a reader delivers are the calls on the reader. -/
theorem Calls.polls {f g : Framer} {s t : Bytes} {xs : List Reading} (h : f.Calls s xs g t) {r : Reader} (hd : r.Delivers s)
    (n : Nat) :
    ∃ r', f.after xs.length r = (g, r') ∧ r'.Delivers t ∧ f.polls (xs.length + n) r = xs ++ g.polls n r' := by
  induction h generalizing r with
  | nil f s => exact ⟨r, rfl, hd, by simp⟩
  | @cons f g h s t u x xs hc _ ih =>
    obtain ⟨x', g', t', r', hn, hp, hd'⟩ := f.poll_delivers hd
    obtain ⟨rfl, rfl, rfl⟩ : x = x' ∧ g = g' ∧ t = t' := by simpa [next_eq_some_iff.mpr hc] using hn
    obtain ⟨r'', hafter, hd'', hpolls⟩ := ih hd'
    have hlen : xs.length + 1 + n = xs.length + n + 1 := by omega
    exact ⟨r'', by simp [after, hp, hafter], hd'', by simp [Framer.polls, hp, hpolls, hlen]⟩

/-- At the end of the stream every call says so. -/
theorem polls_of_delivers_nil (n : Nat) (f : Framer) {r : Reader} (hd : r.Delivers []) :
    f.polls n r = List.replicate n .ended := by
  rw [polls_delivers n f hd, outcomes_nil]

end Framer

end Parley.Frame
