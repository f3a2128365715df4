import Parley.Proofs.Conversation.Stages

/-!
# The exit code

Which code a run records. The first `exit` that ends records 0 if a `shutdown` has ended before and 1 otherwise, and every `exit`
that ends later records 1 (`run_exitCode`). So a code that is recorded is final unless it is 0 and another `exit`, begun before,
ends after it (`exit_code_final_iff`); and it tells whether a `shutdown` was accepted before the `exit` came unless handlers that
are at work change the order (`exit_code_of_one_exit`).
-/

namespace Parley.Conversation

/-- After `exit` the stage stays, and the code is 1 as soon as another `exit` ends. -/
theorem run_exitCode_of_exited {v : Conversation} {code : Int} (hl : v.connection.lifecycle = .exited)
    (hc : v.connection.exitCode = some code) (ms : List Move) :
    (v.run ms).connection.lifecycle = .exited ∧
      (v.run ms).connection.exitCode = some (if (v.trace ms).any fun e => e.1.ends .exit e.2 then 1 else code) := by
  induction ms generalizing v code with
  | nil => exact ⟨hl, by simpa using hc⟩
  | cons m ms ih =>
    obtain ⟨hsl, hsc⟩ := step_stage v m
    cases he : v.ends .exit m with
    | true =>
      rw [he] at hsl hsc
      have h1 : (v.step m).connection.exitCode = some 1 := by simpa [hl] using hsc
      obtain ⟨hrl, hrc⟩ := ih hsl h1
      exact ⟨hrl, by simpa [he] using hrc⟩
    | false =>
      rw [he] at hsl hsc
      have hk : (v.step m).connection.exitCode = some code := by simpa [hc] using hsc
      obtain ⟨hrl, hrc⟩ := ih (by simpa [hl] using hsl) hk
      refine ⟨hrl, ?_⟩
      rw [trace_cons, List.any_cons, he, Bool.false_or]
      exact hrc

/-- A move of one kind is made before any of another kind. -/
def comesBefore (v : Conversation) (kind other : Conversation → Move → Bool) (ms : List Move) : Bool :=
  ((v.trace ms).takeWhile fun e => !other e.1 e.2).any fun e => kind e.1 e.2

/-- Whether one kind of move comes before another shows at the first of either. -/
theorem comesBefore_cons (v : Conversation) (kind other : Conversation → Move → Bool) (m : Move) (ms : List Move) :
    v.comesBefore kind other (m :: ms) = (!other v m && (kind v m || (v.step m).comesBefore kind other ms)) := by
  rw [comesBefore, trace_cons, List.takeWhile_cons]
  cases other v m <;> simp [comesBefore]

/-- A `shutdown` ends before any `exit` does. -/
def shutdownEndsFirst (v : Conversation) (ms : List Move) : Bool :=
  v.comesBefore (fun w m => w.ends .shutdown m) (fun w m => w.ends .exit m) ms

/-- A `shutdown` is accepted before any `exit` is. -/
def shutdownComesFirst (v : Conversation) (ms : List Move) : Bool :=
  v.comesBefore (fun w m => w.takes .shutdown m) (fun w m => w.takes .exit m) ms

/-- The code of a run, by how often `exit` ends in it. -/
theorem run_exitCode {v : Conversation} (hl : v.connection.lifecycle ≠ .exited) (hc : v.connection.exitCode = none)
    (ms : List Move) :
    (v.run ms).connection.exitCode =
      match (v.trace ms).countP fun e => e.1.ends .exit e.2 with
      | 0 => none
      | 1 => some (if v.connection.lifecycle = .shuttingDown ∨ v.shutdownEndsFirst ms = true then 0 else 1)
      | _ => some 1 := by
  induction ms generalizing v with
  | nil => exact hc
  | cons m ms ih =>
    obtain ⟨hsl, hsc⟩ := step_stage v m
    rw [shutdownEndsFirst, comesBefore_cons, trace_cons, List.countP_cons, run_cons]
    cases he : v.ends .exit m with
    | true =>
      rw [he] at hsl hsc
      -- Every further `exit` makes the code 1, so all that matters is whether there is one.
      have ha : (((v.step m).trace ms).any fun e => e.1.ends .exit e.2) =
          decide (0 < ((v.step m).trace ms).countP fun e => e.1.ends .exit e.2) := by
        rw [Bool.eq_iff_iff, List.any_eq_true, decide_eq_true_iff, List.countP_pos_iff]
      rw [(run_exitCode_of_exited hsl hsc ms).2, ha]
      cases ((v.step m).trace ms).countP fun e => e.1.ends .exit e.2 with
      | zero => simp
      | succ n => simp
    | false =>
      rw [he] at hsl hsc
      have hl' : (v.step m).connection.lifecycle ≠ .exited := by
        rw [hsl]
        simp only [Bool.false_eq_true, if_false]
        split
        · simp
        · exact hl
      have hs : (v.step m).connection.lifecycle = .shuttingDown ↔
          v.connection.lifecycle = .shuttingDown ∨ v.ends .shutdown m = true := by
        rw [hsl]
        cases hv : v.connection.lifecycle <;> cases v.ends .shutdown m <;> simp_all
      rw [ih hl' (hsc.trans hc)]
      simp [shutdownEndsFirst, hs, or_assoc]

/-! ## Whether the code is final -/

/-- Either nothing is recorded, or the last stage is reached and the code is 0 or 1. -/
def Recorded (v : Conversation) : Prop :=
  (v.connection.exitCode = none ∧ v.connection.lifecycle ≠ .exited) ∨
    (v.connection.lifecycle = .exited ∧ (v.connection.exitCode = some 0 ∨ v.connection.exitCode = some 1))

/-- Every move keeps the exit code with the stage. -/
theorem Recorded.step {v : Conversation} (h : v.Recorded) (m : Move) : (v.step m).Recorded := by
  obtain ⟨hl, hc⟩ := step_stage v m
  unfold Recorded
  rw [hl, hc]
  cases v.ends .exit m with
  | true =>
    refine .inr ⟨rfl, ?_⟩
    simp only [if_true]
    split <;> simp
  | false =>
    rcases h with ⟨hn, he⟩ | ⟨he, hn⟩
    · refine .inl ⟨hn, ?_⟩
      simp only [Bool.false_eq_true, if_false]
      split
      · simp
      · exact he
    · exact .inr ⟨by simp [he], hn⟩

/-- So they are together at every point of a run. -/
theorem Recorded.run {v : Conversation} (h : v.Recorded) (ms : List Move) : (v.run ms).Recorded :=
  run_preserves (fun _ m h => h.step m) ms v h

/-- After `exit` nothing is accepted as another one. -/
theorem not_takes_exit {v : Conversation} (hl : v.connection.lifecycle = .exited) (m : Move) : v.takes .exit m = false := by
  cases m with
  | receive payload =>
    simp only [takes]
    unfold Connection.takes
    split <;> simp_all
  | _ => rfl

/-- After `exit` no job for another one begins. -/
theorem mem_jobs_of_exited {v : Conversation} (hl : v.connection.lifecycle = .exited) {code : Int}
    (hc : v.connection.exitCode = some code) {ms : List Move} {j : Job} (hj : j ∈ (v.run ms).jobs) (hd : j.duty = .exit) :
    j ∈ v.jobs := by
  refine (mem_jobs_run hj).resolve_right ?_
  rintro ⟨before, m, after, rfl, hb⟩
  have ht := takes_of_begins (w := .exit) hb (by rw [hd]; rfl)
  rw [not_takes_exit (run_exitCode_of_exited hl hc before).1] at ht
  cases ht

/-- After `exit` another one ends only with a job that is open when the code is recorded. -/
theorem job_of_ends {v : Conversation} (hl : v.connection.lifecycle = .exited) {code : Int}
    (hc : v.connection.exitCode = some code) {ms : List Move} {e : Conversation × Move} (he : e ∈ v.trace ms)
    (hx : e.1.ends .exit e.2 = true) :
    ∃ n o j, e.2 = .finish n o ∧ e.1.jobs[n]? = some j ∧ j.duty = .exit ∧ j ∈ v.jobs := by
  obtain ⟨w, m⟩ := e
  obtain ⟨before, after, rfl, rfl⟩ := mem_trace_iff.mp he
  cases m with
  | receive payload =>
    have ht := not_takes_exit (run_exitCode_of_exited hl hc before).1 (.receive payload)
    simp only [takes] at ht
    simp [ends, Connection.ends, ht] at hx
  | finish n o =>
    obtain ⟨j, hj, hd⟩ := (Option.any_eq_true _ _).mp hx
    have hd : j.duty = .exit := by
      cases h : j.duty <;> simp_all [Duty.isFor]
    exact ⟨n, o, j, rfl, hj, hd, mem_jobs_of_exited hl hc (List.mem_of_getElem? hj) hd⟩
  | _ => cases hx

/-- A code that is recorded is 0 or 1, and whatever comes later the stage stays. The code is final exactly when it is 1 or no
`exit` ends later; otherwise it becomes 1. Only an `exit` whose job is open when the code is recorded can end later, so without
such a job the code is final. -/
theorem exit_code_final_iff (routes : Registry Mode) (catalogue : Catalogue) (ms : List Move) (code : Int)
    (h : ((start routes catalogue).run ms).connection.exitCode = some code) :
    let v := (start routes catalogue).run ms
    (code = 0 ∨ code = 1) ∧
    (∀ later, (v.run later).connection.lifecycle = .exited ∧
      (v.run later).connection.exitCode = some (if (v.trace later).any fun e => e.1.ends .exit e.2 then 1 else code) ∧
      ((v.run later).connection.exitCode = some code ↔ code = 1 ∨ ∀ e ∈ v.trace later, e.1.ends .exit e.2 = false) ∧
      ∀ e ∈ v.trace later, e.1.ends .exit e.2 = true →
        ∃ n o j, e.2 = .finish n o ∧ e.1.jobs[n]? = some j ∧ j.duty = .exit ∧ j ∈ v.jobs) ∧
    ((∀ j ∈ v.jobs, j.duty ≠ .exit) → ∀ later, (v.run later).connection.exitCode = some code) := by
  intro v
  have hr : v.Recorded := Recorded.run (.inl ⟨rfl, by simp [start]⟩) ms
  rw [Recorded, show v.connection.exitCode = some code from h] at hr
  simp only [reduceCtorEq, false_and, false_or, Option.some.injEq] at hr
  obtain ⟨hl, h01⟩ := hr
  refine ⟨h01, fun later => ?_, fun hn later => ?_⟩
  · obtain ⟨hrl, hrc⟩ := run_exitCode_of_exited hl h later
    refine ⟨hrl, hrc, ?_, fun e he => job_of_ends hl h he⟩
    rw [hrc]
    cases ha : (v.trace later).any fun e => e.1.ends .exit e.2 with
    | false => exact iff_of_true rfl (.inr fun e he => Bool.eq_false_iff.mpr (List.any_eq_false.mp ha e he))
    | true =>
      obtain ⟨e, he, hx⟩ := List.any_eq_true.mp ha
      simp only [if_true, Option.some.injEq]
      constructor
      · exact fun h1 => .inl h1.symm
      · rintro (h1 | hn)
        · exact h1.symm
        · rw [hn e he] at hx
          cases hx
  · rw [(run_exitCode_of_exited hl h later).2, if_neg]
    intro ha
    obtain ⟨e, he, hx⟩ := List.any_eq_true.mp ha
    obtain ⟨n, o, j, -, -, hd, hj⟩ := job_of_ends hl h he hx
    exact hn j hj hd

/-- `exit` is served in steps. -/
def slowExit : Registry Mode := { features := ({} : Table String Mode).insert Connection.exitMethod .coroutine }

/-- Two `exit` come after `shutdown` has ended, and the handler of the first is done. -/
def twoExits : List Move :=
  [.receive (Message.request (.num 1) Connection.shutdownMethod .null).encode,
   .receive (Message.notification Connection.exitMethod .null).encode,
   .receive (Message.notification Connection.exitMethod .null).encode, .finish 0 (.ok .null)]

/-- In `twoExits` the code 0 is recorded, and becomes 1 when the handler of the second `exit` is done. -/
theorem exit_code_changes :
    ((start slowExit {}).run twoExits).connection.exitCode = some 0 ∧
    (((start slowExit {}).run twoExits).run [.finish 0 (.ok .null)]).connection.exitCode = some 1 := by
  decide +kernel

/-- `shutdown`, and then `exit`. -/
def takingLeave : List Move :=
  [.receive (Message.request (.num 1) Connection.shutdownMethod .null).encode,
   .receive (Message.notification Connection.exitMethod .null).encode]

/-- The code that `takingLeave` records where `exit` has no handler is final. -/
theorem exit_code_final_iff_takingLeave :
    ((start {} {}).run takingLeave).connection.exitCode = some 0 ∧
    ∀ later, (((start {} {}).run takingLeave).run later).connection.exitCode = some 0 :=
  ⟨by decide +kernel, (exit_code_final_iff {} {} takingLeave 0 (by decide +kernel)).2.2 (by decide +kernel)⟩

/-! ## Whether the code tells what came first -/

/-- No handler of `shutdown` is at work when an `exit` ends, and none of `exit` when a `shutdown` is accepted. -/
def Orderly (v : Conversation) (ms : List Move) : Prop :=
  ∀ e ∈ v.trace ms, (e.1.ends .exit e.2 = true → e.1.openFor .shutdown = 0) ∧
    (e.1.takes .shutdown e.2 = true → e.1.openFor .exit = 0)

/-- What is orderly is so at its first move and behind it. -/
theorem Orderly.cons {v : Conversation} {m : Move} {ms : List Move} (h : v.Orderly (m :: ms)) :
    ((v.ends .exit m = true → v.openFor .shutdown = 0) ∧ (v.takes .shutdown m = true → v.openFor .exit = 0)) ∧
      (v.step m).Orderly ms :=
  ⟨h (v, m) List.mem_cons_self, fun e he => h e (List.mem_cons_of_mem _ he)⟩

/-- While the handler of `exit` is at work, a `shutdown` ends before it if the handler of one is at work too. -/
theorem Orderly.endsFirst_of_open {v : Conversation} {ms : List Move} (h : v.Orderly ms) (hx : 0 < v.openFor .exit)
    (ht : (v.trace ms).countP (fun e => e.1.takes .exit e.2) = 0) (he : (v.trace ms).any (fun e => e.1.ends .exit e.2) = true) :
    v.shutdownEndsFirst ms = decide (0 < v.openFor .shutdown) := by
  induction ms generalizing v with
  | nil => cases he
  | cons m ms ih =>
    obtain ⟨⟨hend, htake⟩, hrest⟩ := h.cons
    have hsx := step_farewells v m .exit
    have hss := step_farewells v m .shutdown
    rw [trace_cons, List.countP_cons] at ht
    rw [trace_cons, List.any_cons] at he
    rw [shutdownEndsFirst, comesBefore_cons, ← shutdownEndsFirst]
    have htx : v.takes .exit m = false := by
      cases h : v.takes .exit m with
      | false => rfl
      | true => simp [h] at ht
    have hts : v.takes .shutdown m = false := by
      cases h : v.takes .shutdown m with
      | false => rfl
      | true => exact absurd (htake h) (Nat.ne_of_gt hx)
    rw [htx] at ht hsx
    rw [hts] at hss
    cases hex : v.ends .exit m with
    | true => simp [hend hex]
    | false =>
      rw [hex] at he hsx
      simp only [Bool.toNat_false, Nat.add_zero] at hsx
      rw [ih hrest (hsx ▸ hx) (by simpa using ht) (by simpa using he)]
      cases hes : v.ends .shutdown m <;> rw [hes] at hss <;> simp at hss ⊢ <;> omega

/-- In an orderly run with one `exit`, a `shutdown` ends before it if one comes before it, or the handler of one is at work. -/
theorem Orderly.endsFirst {v : Conversation} {ms : List Move} (h : v.Orderly ms) (hx : v.openFor .exit = 0)
    (ht : (v.trace ms).countP (fun e => e.1.takes .exit e.2) = 1) (he : (v.trace ms).any (fun e => e.1.ends .exit e.2) = true) :
    v.shutdownEndsFirst ms = (decide (0 < v.openFor .shutdown) || v.shutdownComesFirst ms) := by
  induction ms generalizing v with
  | nil => cases he
  | cons m ms ih =>
    obtain ⟨⟨hend, htake⟩, hrest⟩ := h.cons
    have hsx := step_farewells v m .exit
    have hss := step_farewells v m .shutdown
    rw [trace_cons, List.countP_cons] at ht
    rw [trace_cons, List.any_cons] at he
    rw [shutdownEndsFirst, shutdownComesFirst, comesBefore_cons, comesBefore_cons, ← shutdownEndsFirst, ← shutdownComesFirst]
    cases htx : v.takes .exit m with
    | true =>
      have hts : v.takes .shutdown m = false := not_takes_shutdown_of_exit htx
      rw [htx] at ht hsx
      rw [hts] at hss
      -- The `exit` ends here or later, and so does a `shutdown` that is open and ends before it.
      cases hex : v.ends .exit m with
      | true => simp [hend hex]
      | false =>
        rw [hex] at he hsx
        simp only [hx, Bool.toNat_false, Bool.toNat_true, Nat.add_zero, Nat.zero_add] at hsx
        rw [hrest.endsFirst_of_open (by omega) (by simpa using ht) (by simpa using he)]
        cases hes : v.ends .shutdown m <;> rw [hes] at hss <;> simp at hss ⊢ <;> omega
    | false =>
      rw [htx] at ht hsx
      cases hex : v.ends .exit m with
      | true =>
        rw [hex] at hsx
        simp [hx] at hsx
      | false =>
        rw [hex] at he hsx
        simp only [hx, Bool.toNat_false, Nat.add_zero] at hsx
        have hs : (v.ends .shutdown m || decide (0 < (v.step m).openFor .shutdown)) =
            (decide (0 < v.openFor .shutdown) || v.takes .shutdown m) := by
          cases hes : v.ends .shutdown m <;> cases hts : v.takes .shutdown m <;> rw [hes, hts] at hss <;>
            simp at hss ⊢ <;> omega
        rw [ih hrest hsx (by simpa using ht) (by simpa using he), ← Bool.or_assoc, hs, Bool.or_assoc]
        rfl

/-- Before its first move a conversation has no open jobs for anything. -/
@[simp] theorem openFor_start (routes : Registry Mode) (catalogue : Catalogue) (w : Farewell) :
    (start routes catalogue).openFor w = 0 := rfl

/-- The code of a run with one `exit` that ends, in three parts.
1. It is 0 if a `shutdown` has ended before, and 1 otherwise.
2. It tells whether a `shutdown` was accepted before the `exit` came exactly when this is the same as whether one has ended
   before the `exit` has.
3. It tells this if no handler of `shutdown` is at work when the `exit` ends, and none of `exit` when a `shutdown` is accepted. -/
theorem exit_code_of_one_exit (routes : Registry Mode) (catalogue : Catalogue) (ms : List Move) (code : Int)
    (hx : ((start routes catalogue).trace ms).countP (fun e => e.1.takes .exit e.2) = 1)
    (hc : ((start routes catalogue).run ms).connection.exitCode = some code) :
    let first := start routes catalogue
    code = (if first.shutdownEndsFirst ms then 0 else 1) ∧
    ((code = if first.shutdownComesFirst ms then 0 else 1) ↔ first.shutdownComesFirst ms = first.shutdownEndsFirst ms) ∧
    (first.Orderly ms → code = if first.shutdownComesFirst ms then 0 else 1) := by
  intro first
  have hn : (first.trace ms).countP (fun e => e.1.ends .exit e.2) = 1 := by
    have hr := run_farewells first ms .exit
    rw [hx, openFor_start] at hr
    have h0 : (first.trace ms).countP (fun e => e.1.ends .exit e.2) ≠ 0 := by
      intro h0
      have he := run_exitCode (v := first) (by simp [first, start]) rfl ms
      rw [h0, hc] at he
      cases he
    omega
  have hcode : code = if first.shutdownEndsFirst ms then 0 else 1 := by
    have he := run_exitCode (v := first) (by simp [first, start]) rfl ms
    rw [hn, hc] at he
    simpa [first, start] using he
  refine ⟨hcode, ?_, fun ho => ?_⟩
  · rw [hcode]
    cases first.shutdownEndsFirst ms <;> cases first.shutdownComesFirst ms <;> simp
  · have hany : (first.trace ms).any (fun e => e.1.ends .exit e.2) = true := by
      rw [List.any_eq_true]
      exact List.countP_pos_iff.mp (by omega)
    have hends := ho.endsFirst (openFor_start _ _ _) hx hany
    rw [openFor_start] at hends
    rw [hcode, hends]
    rfl

/-- `shutdown` is served in steps. -/
def slowShutdown : Registry Mode := { features := ({} : Table String Mode).insert Connection.shutdownMethod .coroutine }

/-- `shutdown`, then `exit`, and then the one handler that is at work is done. -/
def servedLeave : List Move := takingLeave ++ [.finish 0 (.ok .null)]

/-- `exit`, then `shutdown`, and then the one handler that is at work is done. -/
def reversedLeave : List Move := takingLeave.reverse ++ [.finish 0 (.ok .null)]

/-- The code does not always tell whether a `shutdown` was accepted before the one `exit` came. In `servedLeave` it was, and the
code is 1 if `shutdown` is served in steps; in `reversedLeave` it was not, and the code is 0 if `exit` is. -/
theorem exit_code_of_one_exit_misleads :
    (((start slowShutdown {}).trace servedLeave).countP (fun e => e.1.takes .exit e.2) = 1 ∧
      (start slowShutdown {}).shutdownComesFirst servedLeave = true ∧
      ((start slowShutdown {}).run servedLeave).connection.exitCode = some 1) ∧
    ((start slowExit {}).trace reversedLeave).countP (fun e => e.1.takes .exit e.2) = 1 ∧
      (start slowExit {}).shutdownComesFirst reversedLeave = false ∧
      ((start slowExit {}).run reversedLeave).connection.exitCode = some 0 := by
  decide +kernel

/-- If only `exit` is served in steps, `servedLeave` is orderly, and the code tells that `shutdown` came first. -/
theorem exit_code_of_one_exit_servedLeave :
    ((start slowExit {}).trace servedLeave).countP (fun e => e.1.takes .exit e.2) = 1 ∧
    ((start slowExit {}).run servedLeave).connection.exitCode = some 0 ∧
    (0 : Int) = if (start slowExit {}).shutdownComesFirst servedLeave then 0 else 1 :=
  ⟨by decide +kernel, by decide +kernel,
    (exit_code_of_one_exit slowExit {} servedLeave 0 (by decide +kernel) (by decide +kernel)).2.2
      (by unfold Orderly; decide +kernel)⟩

end Parley.Conversation
