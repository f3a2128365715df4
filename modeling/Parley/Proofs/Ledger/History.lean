import Parley.Proofs.Ledger.Incoming

/-!
# What the history of a ledger tells

The requests of the peer are begun, ended and cancelled in any order, and an id may be used again. What is true of each token is
told by the history alone: `Serving` says which ids are in use, `Struck` which requests were cancelled while they were served, and
`tokens_follow_history` that the ledger agrees. A token has one request for good, so what is aimed at an id behind the end of its
request does not reach it (`isFired_run_of_retired`).
-/

namespace Parley.Incoming

/-- What can happen to the requests being served. -/
inductive Event where
  | begin (id : MessageId)
  | finish (id : MessageId)
  | cancel (id : MessageId)
  | cancelAllExcept (keep : MessageId)
  | purge
  /-- The connection is cancelled. -/
  | close
  deriving DecidableEq

namespace Event

/-- The event ends the request of an id. -/
def Ends (id : MessageId) : Event → Prop
  | .finish i => i = id
  | .purge => True
  | .begin _ | .cancel _ | .cancelAllExcept _ | .close => False

/-- The event is aimed at the request of an id. -/
def Hits (id : MessageId) : Event → Prop
  | .cancel i => i = id
  | .cancelAllExcept keep => keep ≠ id
  | .purge => True
  | .begin _ | .finish _ | .close => False

end Event

/-- The ledger behind an event. An id that is in use is not begun again. -/
def step (l : Incoming) : Event → Incoming
  | .begin id =>
    match l.begin? id with
    | some (_, l') => l'
    | none => l
  | .finish id => (l.finish id).2
  | .cancel id => (l.cancel id).2
  | .cancelAllExcept keep => (l.cancelAllExcept keep).2
  | .purge => l.purge.2
  | .close => l.close

/-- The ledger behind a history. -/
def run (l : Incoming) (events : List Event) : Incoming := events.foldl step l

/-- By a history an id is in use: it was begun, and its request has not ended since. -/
def Serving (events : List Event) (id : MessageId) : Prop :=
  ∃ before after, events = before ++ .begin id :: after ∧ ∀ e ∈ after, ¬ e.Ends id

/-- Something was aimed at the request of an id before its end, or with it. -/
def Struck (events : List Event) (id : MessageId) : Prop :=
  ∃ before e after, events = before ++ e :: after ∧ e.Hits id ∧ ∀ x ∈ before, ¬ x.Ends id

variable {l : Incoming} {e : Event} {events : List Event} {id : MessageId} {n : Nat}

theorem run_cons (l : Incoming) (e : Event) (events : List Event) : l.run (e :: events) = (l.step e).run events := rfl

/-- Events of two rows are those of one. -/
theorem run_append (l : Incoming) (events later : List Event) : l.run (events ++ later) = (l.run events).run later :=
  List.foldl_append

/-- What a longer history says of the ids in use. -/
theorem serving_cons : Serving (e :: events) id ↔ Serving events id ∨ e = .begin id ∧ ∀ x ∈ events, ¬ x.Ends id := by
  constructor
  · rintro ⟨before, after, he, hn⟩
    cases before with
    | nil =>
      obtain ⟨rfl, rfl⟩ := List.cons.inj he
      exact .inr ⟨rfl, hn⟩
    | cons x before =>
      obtain ⟨rfl, rfl⟩ := List.cons.inj he
      exact .inl ⟨before, after, rfl, hn⟩
  · rintro (⟨before, after, rfl, hn⟩ | ⟨rfl, hn⟩)
    · exact ⟨e :: before, after, rfl, hn⟩
    · exact ⟨[], events, rfl, hn⟩

/-- What a longer history says of a request: behind its end nothing reaches it. -/
theorem struck_cons : Struck (e :: events) id ↔ e.Hits id ∨ ¬ e.Ends id ∧ Struck events id := by
  constructor
  · rintro ⟨before, x, after, he, hx, hn⟩
    cases before with
    | nil =>
      obtain ⟨rfl, rfl⟩ := List.cons.inj he
      exact .inl hx
    | cons y before =>
      obtain ⟨rfl, rfl⟩ := List.cons.inj he
      rw [List.forall_mem_cons] at hn
      exact .inr ⟨hn.1, before, x, after, rfl, hx, hn.2⟩
  · rintro (he | ⟨he, before, x, after, rfl, hx, hn⟩)
    · exact ⟨[], e, events, rfl, he, nofun⟩
    · exact ⟨e :: before, x, after, rfl, hx, List.forall_mem_cons.mpr ⟨he, hn⟩⟩

/-- At the beginning nothing is struck. -/
theorem not_struck_nil : ¬ Struck [] id := by
  rintro ⟨before, x, after, he, -⟩
  simp at he

/-! ## One event -/

/-- To purge fires the tokens of all requests, and no other. -/
theorem isFired_purge (l : Incoming) (t : Token) :
    l.purge.2.isFired t = true ↔ l.isFired t = true ∨ ∃ id n, l.entries.find? id = some n ∧ t = .request n := by
  cases t with
  | connection => simp [isFired, purge]
  | request n =>
    simp only [isFired, purge, List.contains_append, Bool.or_eq_true, List.contains_iff_mem, Table.mem_values_iff,
      Token.request.injEq]
    constructor
    · rintro (hc | ⟨id, hf⟩ | hm)
      · exact .inl (.inl hc)
      · exact .inr ⟨id, n, hf, rfl⟩
      · exact .inl (.inr hm)
    · rintro ((hc | hm) | ⟨id, m, hf, rfl⟩)
      · exact .inl hc
      · exact .inr (.inr hm)
      · exact .inr (.inl ⟨id, hf⟩)

/-- A token fires when the connection is cancelled, or when something is aimed at the request that has it. -/
theorem isFired_step_iff (l : Incoming) (e : Event) (n : Nat) :
    (l.step e).isFired (.request n) = true ↔
      l.isFired (.request n) = true ∨ e = .close ∨ ∃ id, l.entries.find? id = some n ∧ e.Hits id := by
  cases e with
  | begin id =>
    simp only [step, Event.Hits]
    split
    · rename_i m l' hb
      simp [isFired_begin hb]
    · simp
  | finish id => simp [step, Event.Hits]
  | cancel id =>
    simp only [step, isFired_cancel, Event.Hits, Token.request.injEq, reduceCtorEq, false_or]
    refine or_congr_right ⟨?_, ?_⟩
    · rintro ⟨m, hf, rfl⟩
      exact ⟨id, hf, rfl⟩
    · rintro ⟨i, hf, rfl⟩
      exact ⟨n, hf, rfl⟩
  | cancelAllExcept keep =>
    simp only [step, isFired_cancelAllExcept, Event.Hits, Token.request.injEq, reduceCtorEq, false_or]
    refine or_congr_right ⟨?_, ?_⟩
    · rintro ⟨i, m, hk, hf, rfl⟩
      exact ⟨i, hf, Ne.symm hk⟩
    · rintro ⟨i, hf, hk⟩
      exact ⟨i, n, Ne.symm hk, hf, rfl⟩
  | purge =>
    simp only [step, isFired_purge, Event.Hits, Token.request.injEq, reduceCtorEq, false_or, and_true]
    refine or_congr_right ⟨?_, ?_⟩
    · rintro ⟨i, m, hf, rfl⟩
      exact ⟨i, hf⟩
    · rintro ⟨i, hf⟩
      exact ⟨i, n, hf, rfl⟩
  | close => simp [step, isFired, close]

/-- The token of an id behind an event: an end takes it away, and to begin gives one to an id that has none. -/
theorem find?_ledger_step (l : Incoming) (e : Event) (id : MessageId) :
    (e.Ends id → (l.step e).entries.find? id = none) ∧
      (¬ e.Ends id → (l.step e).entries.find? id =
        if e = .begin id ∧ l.entries.find? id = none then some l.tokens else l.entries.find? id) := by
  cases e with
  | begin i =>
    refine ⟨False.elim, fun _ => ?_⟩
    simp only [step]
    split
    · rename_i m l' hb
      obtain ⟨hc, rfl, -⟩ := begin?_eq_some hb
      rw [find?_begin hb]
      by_cases hi : id = i
      · subst hi
        have hn : l.entries.find? id = none := by simpa [contains, Table.contains] using hc
        simp [hn]
      · simp [hi, Ne.symm hi]
    · rename_i hb
      -- The id is in use, so the event leaves the ledger alone.
      rw [begin?_eq_none_iff, contains_eq_true_iff] at hb
      rw [if_neg]
      rintro ⟨he, hn⟩
      obtain rfl := Event.begin.inj he
      obtain ⟨m, hm⟩ := hb
      rw [hn] at hm
      cases hm
  | finish i =>
    simp only [step, find?_finish, Event.Ends]
    constructor
    · rintro rfl
      simp
    · intro hi
      simp [Ne.symm hi]
  | cancel i => simp [step, Event.Ends]
  | cancelAllExcept keep => simp [step, Event.Ends]
  | purge => simp [step, Event.Ends, purge]
  | close => simp [step, Event.Ends, close]

/-- Tokens are made only when a request begins, one for each. -/
theorem tokens_le_ledger_step (l : Incoming) (e : Event) : l.tokens ≤ (l.step e).tokens := by
  cases e with
  | begin id =>
    simp only [step]
    split
    · rename_i m l' hb
      obtain ⟨-, -, rfl⟩ := begin?_eq_some hb
      exact Nat.le_succ _
    · exact Nat.le_refl _
  | cancel id => simp [step]
  | _ => exact Nat.le_refl _

/-- The tokens of a ledger: each was made, and no two requests share one. -/
structure Sound (l : Incoming) : Prop where
  made : ∀ id n, l.entries.find? id = some n → n < l.tokens
  apart : ∀ id id' n, l.entries.find? id = some n → l.entries.find? id' = some n → id = id'
  fired : ∀ n ∈ l.fired, n < l.tokens

theorem sound_nil : Sound {} := ⟨nofun, nofun, nofun⟩

/-- An entry behind an event was there before, or is that of the request that begins. -/
theorem find?_of_ledger_step (hf : (l.step e).entries.find? id = some n) :
    l.entries.find? id = some n ∨ n = l.tokens ∧ e = .begin id ∧ (l.step e).tokens = l.tokens + 1 := by
  obtain ⟨hends, hgoes⟩ := find?_ledger_step l e id
  by_cases he : e.Ends id
  · rw [hends he] at hf
    cases hf
  · rw [hgoes he] at hf
    split at hf
    · rename_i hb
      obtain ⟨rfl, hn⟩ := hb
      have hc : l.contains id = false := by simp [contains, Table.contains, hn]
      refine .inr ⟨(Option.some.inj hf).symm, rfl, ?_⟩
      simp [step, begin?, hc]
    · exact .inl hf

/-- What an event fires is the token of a request that is served, or has fired before. -/
theorem mem_fired_step (hm : n ∈ (l.step e).fired) : n ∈ l.fired ∨ ∃ id, l.entries.find? id = some n := by
  cases e with
  | begin id =>
    simp only [step] at hm
    split at hm
    · rename_i k l' hb
      obtain ⟨-, -, rfl⟩ := begin?_eq_some hb
      exact .inl hm
    · exact .inl hm
  | finish id => exact .inl hm
  | close => exact .inl hm
  | cancel id =>
    simp only [step, cancel] at hm
    split at hm
    · rename_i k hk
      rcases List.mem_cons.mp hm with rfl | hm
      · exact .inr ⟨id, hk⟩
      · exact .inl hm
    · exact .inl hm
  | cancelAllExcept keep =>
    rcases List.mem_append.mp hm with hm | hm
    · obtain ⟨k, hk⟩ := Table.mem_values_iff.mp hm
      rw [Table.find?_erase] at hk
      split at hk
      · cases hk
      · exact .inr ⟨k, hk⟩
    · exact .inl hm
  | purge =>
    rcases List.mem_append.mp hm with hm | hm
    · exact .inr (Table.mem_values_iff.mp hm)
    · exact .inl hm

/-- Every event keeps a ledger sound. -/
theorem Sound.step (h : l.Sound) (e : Event) : (l.step e).Sound := by
  have hle := tokens_le_ledger_step l e
  refine ⟨fun i m hf => ?_, fun i j m hi hj => ?_, fun m hm => ?_⟩
  · rcases find?_of_ledger_step hf with hf | ⟨rfl, -, ht⟩
    · exact Nat.lt_of_lt_of_le (h.made i m hf) hle
    · omega
  · rcases find?_of_ledger_step hi with hi | ⟨hm, hbi, -⟩ <;> rcases find?_of_ledger_step hj with hj | ⟨hm', hbj, -⟩
    · exact h.apart i j m hi hj
    · exact absurd (h.made i m hi) (by omega)
    · exact absurd (h.made j m hj) (by omega)
    · exact Event.begin.inj (hbi.symm.trans hbj)
  · refine Nat.lt_of_lt_of_le ?_ hle
    rcases mem_fired_step hm with hm | ⟨id, hf⟩
    · exact h.fired m hm
    · exact h.made id m hf

/-- So do any number. -/
theorem Sound.run (h : l.Sound) (events : List Event) : (l.run events).Sound := by
  induction events generalizing l with
  | nil => exact h
  | cons e events ih => exact ih (h.step e)

/-! ## Histories -/

/-- The ids in use behind a history are those that it says are in use, and those of before that it has not ended. -/
theorem contains_ledger_run (l : Incoming) (events : List Event) (id : MessageId) :
    (l.run events).contains id = true ↔ Serving events id ∨ l.contains id = true ∧ ∀ e ∈ events, ¬ e.Ends id := by
  induction events generalizing l with
  | nil =>
    refine ⟨fun h => .inr ⟨h, nofun⟩, ?_⟩
    rintro (⟨before, after, he, -⟩ | ⟨h, -⟩)
    · simp at he
    · exact h
  | cons e events ih =>
    have hbegin : e = .begin id → ¬ e.Ends id := by
      rintro rfl
      exact fun hi => hi
    obtain ⟨hends, hgoes⟩ := find?_ledger_step l e id
    have hstep : (l.step e).contains id = true ↔ ¬ e.Ends id ∧ (e = .begin id ∨ l.contains id = true) := by
      simp only [contains, Table.contains]
      by_cases he : e.Ends id
      · simp [hends he, he]
      · rw [hgoes he]
        by_cases hb : e = .begin id
        · cases hf : l.entries.find? id <;> simp [hb, Event.Ends]
        · cases hf : l.entries.find? id <;> simp [he, hb]
    rw [run_cons, ih, hstep, serving_cons, List.forall_mem_cons]
    constructor
    · rintro (hs | ⟨⟨he, hb | hc⟩, hn⟩)
      · exact .inl (.inl hs)
      · exact .inl (.inr ⟨hb, hn⟩)
      · exact .inr ⟨hc, he, hn⟩
    · rintro ((hs | ⟨hb, hn⟩) | ⟨hc, he, hn⟩)
      · exact .inl hs
      · exact .inr ⟨⟨hbegin hb, .inl hb⟩, hn⟩
      · exact .inr ⟨⟨he, .inr hc⟩, hn⟩

/-- The token of a request that has ended: it fires no more, unless the connection is cancelled. -/
theorem isFired_run_of_retired (hn : n < l.tokens) (hr : ∀ id, l.entries.find? id ≠ some n) (events : List Event) :
    (l.run events).isFired (.request n) = true ↔ l.isFired (.request n) = true ∨ .close ∈ events := by
  induction events generalizing l with
  | nil => simp [run]
  | cons e events ih =>
    have hr' (id : MessageId) : (l.step e).entries.find? id ≠ some n := by
      intro hf
      rcases find?_of_ledger_step hf with hf | ⟨hm, -⟩
      · exact hr id hf
      · omega
    have hnone : ¬ ∃ id, l.entries.find? id = some n ∧ e.Hits id := fun ⟨id, hf, _⟩ => hr id hf
    rw [run_cons, ih (Nat.lt_of_lt_of_le hn (tokens_le_ledger_step l e)) hr', isFired_step_iff, List.mem_cons, eq_comm (b := e)]
    simp only [hnone, or_false, or_assoc]

/-- The token of a request that is served fires when the connection is cancelled, or when something is aimed at the request before
its end or with it. -/
theorem isFired_run_iff (h : l.Sound) (hf : l.entries.find? id = some n) (events : List Event) :
    (l.run events).isFired (.request n) = true ↔ l.isFired (.request n) = true ∨ .close ∈ events ∨ Struck events id := by
  induction events generalizing l with
  | nil => simp [run, not_struck_nil]
  | cons e events ih =>
    have hn := h.made id n hf
    have hstep : (l.step e).isFired (.request n) = true ↔ l.isFired (.request n) = true ∨ .close = e ∨ e.Hits id := by
      rw [isFired_step_iff, eq_comm (a := e)]
      refine or_congr_right (or_congr_right ⟨?_, fun hh => ⟨id, hf, hh⟩⟩)
      rintro ⟨i, hi, hh⟩
      exact h.apart i id n hi hf ▸ hh
    rw [run_cons, struck_cons, List.mem_cons]
    by_cases he : e.Ends id
    · have hr (i : MessageId) : (l.step e).entries.find? i ≠ some n := by
        intro hi
        rcases find?_of_ledger_step hi with hb | ⟨hm, -⟩
        · rw [h.apart i id n hb hf, (find?_ledger_step l e id).1 he] at hi
          cases hi
        · omega
      rw [isFired_run_of_retired (Nat.lt_of_lt_of_le hn (tokens_le_ledger_step l e)) hr, hstep]
      simp only [he, not_true, false_and, or_false, or_assoc]
      rw [or_comm (a := e.Hits id)]
    · have hkept : (l.step e).entries.find? id = some n := by
        rw [(find?_ledger_step l e id).2 he, if_neg]
        · exact hf
        · simp [hf]
      rw [ih (h.step e) hkept, hstep]
      simp only [he, not_false_eq_true, true_and, or_assoc, or_left_comm (a := e.Hits id)]

/-- The connection is cancelled by the event of this name alone. -/
theorem closed_run (l : Incoming) (events : List Event) : (l.run events).closed = true ↔ l.closed = true ∨ .close ∈ events := by
  induction events generalizing l with
  | nil => simp [run]
  | cons e events ih =>
    have hstep : (l.step e).closed = true ↔ l.closed = true ∨ .close = e := by
      cases e with
      | begin id =>
        simp only [step]
        split
        · rename_i n l' hb
          obtain ⟨-, -, rfl⟩ := begin?_eq_some hb
          simp
        · simp
      | cancel id =>
        simp only [step, cancel]
        split <;> simp
      | close => simp [step, close]
      | _ => simp [step, finish, cancelAllExcept, purge]
    rw [run_cons, ih, hstep, List.mem_cons, or_assoc]

/-- No row of events takes a token back. -/
theorem tokens_le_ledger_run (l : Incoming) (events : List Event) : l.tokens ≤ (l.run events).tokens := by
  induction events generalizing l with
  | nil => exact Nat.le_refl _
  | cons e events ih => exact Nat.le_trans (tokens_le_ledger_step l e) (ih _)

/-- The ledger that starts empty, behind a history. -/
def behind (events : List Event) : Incoming := ({} : Incoming).run events

/-- A ledger is sound behind whatever has happened. -/
theorem sound_behind (events : List Event) : (behind events).Sound := sound_nil.run events

/-- The ledger behind a history in which a request began, and what was there before. -/
theorem behind_begin {before after : List Event} {l' : Incoming} (hb : (behind before).begin? id = some (n, l')) :
    behind (before ++ .begin id :: after) = l'.run after := by
  rw [behind, run_append, run_cons]
  show ((behind before).step (.begin id)).run after = _
  simp only [step, hb]

/-- What a ledger holds is what is being served by its history. -/
theorem contains_behind (events : List Event) (id : MessageId) : (behind events).contains id = true ↔ Serving events id := by
  rw [behind, contains_ledger_run, or_iff_left]
  rintro ⟨hc, -⟩
  cases hc

/-- The token of a request that began somewhere in a history, behind all of it. -/
theorem isFired_behind {before after : List Event} {l' : Incoming} (hb : (behind before).begin? id = some (n, l')) :
    (behind (before ++ .begin id :: after)).isFired (.request n) = true ↔
      .close ∈ before ++ .begin id :: after ∨ Struck after id := by
  have hs := sound_behind before
  obtain ⟨-, hn, -⟩ := begin?_eq_some hb
  have hs' : l'.Sound := by
    have := hs.step (.begin id)
    simpa only [step, hb] using this
  have hfresh : (behind before).fired.contains n = false := by
    refine Bool.eq_false_iff.mpr fun hm => ?_
    have := hs.fired n (List.contains_iff_mem.mp hm)
    omega
  have hold : (behind before).isFired (.request n) = true ↔ .close ∈ before := by
    have hc : (behind before).closed = true ↔ .close ∈ before := by
      rw [behind, closed_run]
      simp
    rw [← hc, isFired, hfresh, Bool.or_false]
  have hf : l'.entries.find? id = some n := by
    rw [find?_begin hb, if_pos rfl]
  rw [behind_begin hb, isFired_run_iff hs' hf, isFired_begin hb, hold, List.mem_append, List.mem_cons, or_assoc]
  simp

/-- A request that began before has another token. -/
theorem token_lt_of_begin_before {earlier between : List Event} {i : MessageId} {m : Nat} {l' l'' : Incoming}
    (hi : (behind earlier).begin? i = some (m, l'')) (hb : (behind (earlier ++ .begin i :: between)).begin? id = some (n, l')) :
    m < n := by
  obtain ⟨-, rfl, rfl⟩ := begin?_eq_some hi
  obtain ⟨-, rfl, -⟩ := begin?_eq_some hb
  rw [behind_begin hi]
  exact tokens_le_ledger_run { behind earlier with
    entries := (behind earlier).entries.insert i (behind earlier).tokens, tokens := (behind earlier).tokens + 1 } between

/-- **The tokens of a ledger follow its history.** Behind every sequence of events, and for every id:
1. a request begins, with a token, exactly when by the history its id is not in use;
2. to cancel it and to finish it report whether its id is in use, and the requests that are cancelled by a purge or but for one are
counted as the ids in use are;
3. the token that some begin has given has fired exactly when the connection was cancelled, before that begin or behind it, or when
behind it and before the next end of the id, or with this end, something was aimed at the id;
4. this token is none of those that were given before it, so an id that is used again gets a token of its own. -/
theorem tokens_follow_history (events : List Event) (id : MessageId) :
    (((behind events).begin? id).isSome = true ↔ ¬ Serving events id) ∧
      (((behind events).cancel id).1 = true ↔ Serving events id) ∧
      (((behind events).finish id).1 = true ↔ Serving events id) ∧
      (∃ ids : List MessageId, ids.Nodup ∧ (∀ i, i ∈ ids ↔ Serving events i) ∧ (behind events).purge.1 = ids.length ∧
        ((behind events).cancelAllExcept id).1 = (ids.filter (· ≠ id)).length) ∧
      ∀ before after n l', events = before ++ .begin id :: after → (behind before).begin? id = some (n, l') →
        ((behind events).isFired (.request n) = true ↔ .close ∈ events ∨ Struck after id) ∧
          ∀ earlier between i m l'', before = earlier ++ .begin i :: between → (behind earlier).begin? i = some (m, l'') →
            m ≠ n := by
  have hserving := contains_behind events
  refine ⟨?_, ?_, hserving id, ⟨(behind events).entries.keys, (behind events).entries.nodup, fun i => ?_, ?_, ?_⟩, ?_⟩
  · rw [← hserving id, ← begin?_eq_none_iff, Option.isSome_iff_ne_none]
  · rw [← hserving id, contains, Table.contains, cancel]
    cases (behind events).entries.find? id <;> simp
  · rw [← hserving i, contains_eq_true_iff]
    simp only [Table.keys, List.mem_map, Prod.exists, exists_and_right, exists_eq_right, Table.mem_entries_iff]
  · simp [purge, size, Table.size, Table.keys]
  · simp [cancelAllExcept, Table.erase, Table.values, Table.keys, List.filter_map, Function.comp_def]
  · rintro before after n l' rfl hb
    refine ⟨isFired_behind hb, ?_⟩
    rintro earlier between i m l'' rfl hi
    exact Nat.ne_of_lt (token_lt_of_begin_before hi hb)

/-- An id is used twice: the first request was cancelled and the second was not, by what was aimed at another or came too late. -/
theorem tokens_follow_history_usedAgain :
    let a : MessageId := .num 1
    let b : MessageId := .num 2
    let events : List Event :=
      [.begin a, .cancel a, .finish a, .begin a, .begin b, .cancelAllExcept a, .finish a, .cancel a, .purge]
    (behind events).isFired (.request 0) = true ∧ (behind events).isFired (.request 1) = false ∧
      (behind events).isFired (.request 2) = true ∧ ¬ Serving events a := by
  intro a b events
  obtain ⟨-, -, hfinish, -, ha⟩ := tokens_follow_history events a
  obtain ⟨-, -, -, -, hb⟩ := tokens_follow_history events b
  refine ⟨?_, ?_, ?_, fun hs => ?_⟩
  · exact (ha [] (events.drop 1) 0 _ rfl rfl).1.mpr (.inr ⟨[], .cancel a, events.drop 2, rfl, rfl, nofun⟩)
  · refine Bool.eq_false_iff.mpr fun hf => ?_
    rcases (ha (events.take 3) (events.drop 4) 1 _ rfl rfl).1.mp hf with hc | hs
    · revert hc
      decide
    · simp [events, struck_cons, Event.Hits, Event.Ends] at hs
  · exact (hb (events.take 4) (events.drop 5) 2 _ rfl rfl).1.mpr
      (.inr ⟨[], .cancelAllExcept a, events.drop 6, rfl, by simp [Event.Hits, a, b], nofun⟩)
  · exact absurd (hfinish.mpr hs) (by decide)

end Parley.Incoming
