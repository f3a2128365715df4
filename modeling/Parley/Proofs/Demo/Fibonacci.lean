import Mathlib.Data.Nat.Fib.Basic
import Parley.Demo.Server

/-!
# Which Fibonacci numbers are computed

A step goes on with the next pair of terms as long as the call is not found cancelled and the term two further on fits into a word
(`termsOn_fib_succ`), so steps that all do are one jump along the row (`termsOn_fib_add`). A number is returned only if the one
behind it fits, too: the largest number that fits is refused, and it is the only one (`fibonacci_stops_one_short`).
-/

namespace Parley.Demo

variable {cancelled : Nat → Bool}

/-! ## The row of terms -/

/-- A step from two terms leads to the next two. -/
theorem termsOn_fib_succ {n i : Nat} (hc : cancelled i = false) (hfit : Nat.fib (i + 2) ≤ maxTerm) :
    termsOn cancelled (n + 1) i (Nat.fib i) (Nat.fib (i + 1)) =
      termsOn cancelled n (i + 1) (Nat.fib (i + 1)) (Nat.fib (i + 2)) := by
  have hsum : Nat.fib i + Nat.fib (i + 1) = Nat.fib (i + 2) := Nat.fib_add_two.symm
  simp only [termsOn, hc, hsum, Nat.not_lt.mpr hfit, Bool.false_eq_true, if_false]

/-- So do all the steps up to a term that fits, if the call is not found cancelled at any of them. -/
theorem termsOn_fib_add {n m : Nat} (hc : ∀ i < m, cancelled i = false) (hfit : Nat.fib (m + 1) ≤ maxTerm) :
    fibonacciTerm cancelled (m + n) = termsOn cancelled n m (Nat.fib m) (Nat.fib (m + 1)) := by
  induction m generalizing n with
  | zero => rw [Nat.zero_add]; rfl
  | succ m ih =>
    have hbelow : Nat.fib (m + 1) ≤ maxTerm := Nat.le_trans (Nat.fib_mono (Nat.le_succ _)) hfit
    calc fibonacciTerm cancelled (m + 1 + n)
        = fibonacciTerm cancelled (m + (n + 1)) := by rw [Nat.add_right_comm, Nat.add_assoc]
      _ = termsOn cancelled (n + 1) m (Nat.fib m) (Nat.fib (m + 1)) :=
          ih (fun i hi => hc i (Nat.lt_succ_of_lt hi)) hbelow
      _ = termsOn cancelled n (m + 1) (Nat.fib (m + 1)) (Nat.fib (m + 2)) := termsOn_fib_succ (hc m (Nat.lt_succ_self m)) hfit

/-- The number is there if the one behind it fits. -/
theorem fibonacciTerm_of_fits {n : Nat} (hc : ∀ i < n, cancelled i = false) (hfit : Nat.fib (n + 1) ≤ maxTerm) :
    fibonacciTerm cancelled n = .ok (Nat.fib n) :=
  termsOn_fib_add (n := 0) hc hfit

/-- A term that is too large ends the row two steps before it is reached, whatever number was asked for. -/
theorem fibonacciTerm_of_overflow {n m : Nat} (hc : ∀ i < n, cancelled i = false) (hm : m < n)
    (hfit : Nat.fib (m + 1) ≤ maxTerm) (hover : maxTerm < Nat.fib (m + 2)) :
    fibonacciTerm cancelled n = .error (.failed "overflow") := by
  obtain ⟨k, rfl⟩ : ∃ k, n = m + (k + 1) := ⟨n - m - 1, by omega⟩
  have hsum : Nat.fib m + Nat.fib (m + 1) = Nat.fib (m + 2) := Nat.fib_add_two.symm
  rw [termsOn_fib_add (fun i hi => hc i (by omega)) hfit]
  simp only [termsOn, hc m hm, hsum, hover, Bool.false_eq_true, if_false, if_true]

example : fibonacciTerm (fun i => i = 3) 10 = .error .cancelled := rfl

/-! ## The largest term -/

/-- The last term that the type holds. -/
theorem fib_le_maxTerm : Nat.fib 186 ≤ maxTerm := by decide +kernel

/-- The first that it does not. -/
theorem maxTerm_lt_fib : maxTerm < Nat.fib 187 := by decide +kernel

/-- The terms that fit are those up to one of them. -/
theorem fib_le_maxTerm_iff {n : Nat} : Nat.fib n ≤ maxTerm ↔ n ≤ 186 := by
  constructor
  · intro hfit
    by_contra hn
    have hlarge : Nat.fib 187 ≤ Nat.fib n := Nat.fib_mono (by omega)
    have hover := maxTerm_lt_fib
    omega
  · intro hn
    exact Nat.le_trans (Nat.fib_mono hn) fib_le_maxTerm

/-! ## The handler -/

/-- Params with a number of 32 bits are read as they are. -/
theorem read_fibParams {n : Nat} (hn : n < 2 ^ 32) :
    (Shape.struct "FibParams" [Shape.req "n" Shape.u32]).read (Json.object [("n", .nat n)]) = .ok (Json.object [("n", .nat n)]) := by
  have hint : Shape.u32.read (.nat n) = .ok (.nat n) := by
    have hrange : (0 : Int) ≤ n ∧ (n : Int) ≤ Nat.pow 2 32 - 1 := by
      simp only [Nat.pow_eq]
      omega
    exact if_pos hrange
  simp [Shape.struct, Shape.req, Shape.read, Shape.collect, Shape.readNamed, hint, Presence.admitsNull, Shape.keep,
    Shape.fillMissing, Shape.readInlined, Json.object, Json.sortFields, Json.insertField, bind, Except.bind, pure, Except.pure]

/-- What the handler does with a number as soon as it has a turn: it gives the digits of the term, or fails as the computation. -/
theorem routine_fibonacci {β : Type} {c : Call} {n : Nat} (hn : n < 2 ^ 32) (hp : c.params = Json.object [("n", .nat n)]) :
    (fibonacci : Handler (Served β)).routine c = .act id fun s =>
      .done ((fibonacciTerm (fun _ => s.connection.isFired c.token) n).map fun term => .str (toString term)) := by
  have hread : c.read (Shape.struct "FibParams" [Shape.req "n" Shape.u32]) = .ok (Json.object [("n", .nat n)]) := by
    rw [Call.read, hp, read_fibParams hn]
  have hfield : ((Json.object [("n", .nat n)]).intField "n").toNat = n := rfl
  simp only [fibonacci, Handler.routine, Handler.typedBody, hread, hfield]

/-! ## One term short -/

/-- What becomes of a Fibonacci number that is asked for by a call that is not found cancelled, in four parts.
1. It is returned up to the 185th.
2. From the 186th on the computation fails with an overflow.
3. But the numbers that fit into 128 bits are those up to the 186th, so this one is refused, and every other one is dealt with right.
4. The handler, asked for a number of 32 bits, gives the digits of the term or the failure if its call is not cancelled then. -/
theorem fibonacci_stops_one_short (cancelled : Nat → Bool) (n : Nat) (hc : ∀ i < n, cancelled i = false) :
    (n ≤ 185 → fibonacciTerm cancelled n = .ok (Nat.fib n)) ∧
    (186 ≤ n → fibonacciTerm cancelled n = .error (.failed "overflow")) ∧
    (Nat.fib n ≤ 2 ^ 128 - 1 ↔ n ≤ 186) ∧
    ∀ (β : Type) (c : Call), n < 2 ^ 32 → c.params = Json.object [("n", .nat n)] →
      ∃ next, (fibonacci : Handler (Served β)).routine c = .act id next ∧
        ∀ s, s.connection.isFired c.token = false →
          next s = .done ((fibonacciTerm cancelled n).map fun term => .str (toString term)) := by
  have hreturned (cancelled : Nat → Bool) (hc : ∀ i < n, cancelled i = false) (hn : n ≤ 185) :
      fibonacciTerm cancelled n = .ok (Nat.fib n) := fibonacciTerm_of_fits hc (fib_le_maxTerm_iff.mpr (by omega))
  have hrefused (cancelled : Nat → Bool) (hc : ∀ i < n, cancelled i = false) (hn : 186 ≤ n) :
      fibonacciTerm cancelled n = .error (.failed "overflow") := fibonacciTerm_of_overflow hc hn fib_le_maxTerm maxTerm_lt_fib
  refine ⟨hreturned cancelled hc, hrefused cancelled hc, fib_le_maxTerm_iff, ?_⟩
  intro β c hn hp
  refine ⟨_, routine_fibonacci hn hp, ?_⟩
  intro s hs
  -- Whatever is said of later steps, the computation is the same.
  have hsame : fibonacciTerm (fun _ => s.connection.isFired c.token) n = fibonacciTerm cancelled n := by
    rcases Nat.lt_or_ge 185 n with hlt | hle
    · rw [hrefused _ (fun _ _ => hs) hlt, hrefused _ hc hlt]
    · rw [hreturned _ (fun _ _ => hs) hle, hreturned _ hc hle]
  rw [hsame]

/-- The last number that is returned, and to a call that is cancelled right behind the last step. -/
theorem fibonacci_stops_one_short_lastReturned :
    (∀ i < 185, decide (185 ≤ i) = false) ∧ fibonacciTerm (fun i => 185 ≤ i) 185 = .ok (Nat.fib 185) ∧
      Nat.fib 185 ≤ 2 ^ 128 - 1 := by
  have hbefore (i : Nat) (hi : i < 185) : decide (185 ≤ i) = false := decide_eq_false (Nat.not_le.mpr hi)
  obtain ⟨hreturned, -, hfits, -⟩ := fibonacci_stops_one_short (fun i => 185 ≤ i) 185 hbefore
  exact ⟨hbefore, hreturned (Nat.le_refl _), hfits.mpr (by decide)⟩

/-- The 186th number fits and is refused, though the call is never cancelled. -/
theorem fibonacci_refuses_one_that_fits :
    Nat.fib 186 ≤ 2 ^ 128 - 1 ∧ fibonacciTerm (fun _ => false) 186 = .error (.failed "overflow") :=
  ⟨fib_le_maxTerm, fibonacciTerm_of_overflow (fun _ _ => rfl) (Nat.lt_succ_self 185) fib_le_maxTerm maxTerm_lt_fib⟩

end Parley.Demo
