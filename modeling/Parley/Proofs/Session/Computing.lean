import Parley.Proofs.Handler.Modes
import Parley.Proofs.Session.Staffed
import Parley.Proofs.Session.Waiting

/-!
# Calls that only compute

What becomes of a call whose handler does no more than to compute, until its turn at which it ends or gives its outcome back to
the handler that has called it. Such a call is always in one of few states (`Fiber.Computes`), whatever else the session does: it
has a turn, unless it is on its way to a worker or on it. The turn at which the call of a request ends concludes the request
(`Session.Concludes`).
-/

namespace Parley

variable {α : Type}

/-- A call is at work on what only computes, for these callers. -/
structure Fiber.Computes (o : Outcome) (callers : List (Option Outcome → Routine α)) (f : Fiber α) : Prop where
  callers : f.callers = callers
  routine : f.routine.Brief o

/-- A call that computes goes on to compute the same. -/
theorem Fiber.Computes.stays {o : Outcome} {callers : List (Option Outcome → Routine α)} {f f' : Fiber α}
    (h : f.Computes o callers) (hs : f.Stays f') : f'.Computes o callers :=
  ⟨hs.callers.trans h.callers, h.routine.leads hs.routine⟩

namespace Connection

/-- A payload that begins to serve a request does nothing else: it is served now, and was not before. -/
theorem Received.reserves {c : Connection} {d : Except DecodeFault Message} {s : Step} (h : Received c d s) {j : Job}
    (hj : s.2 = some j) {id : MessageId} (hd : j.duty.id? = some id) :
    s.1 = { c with incoming := s.1.incoming } ∧ s.1.incoming.contains id = true ∧
      s.1.incoming.entries.erase id = c.incoming.entries := by
  cases h with
  | @begun i method params n incoming j' ha hb ht hm hn =>
    obtain rfl := Option.some.inj hj
    have hi : j'.duty.id? = some i := by
      rcases ht with ⟨-, -, hd, -⟩ | ⟨-, -, hd⟩ <;> rw [hd] <;> rfl
    obtain rfl := Option.some.inj (hi.symm.trans hd)
    obtain ⟨hc, -, rfl⟩ := Incoming.begin?_eq_some hb
    have hf : c.incoming.entries.find? i = none := by simpa [Incoming.contains, Table.contains] using hc
    have he : (c.incoming.entries.insert i c.incoming.tokens).erase i = c.incoming.entries := by
      rw [Table.erase_insert, Table.erase_of_find?_eq_none hf]
    exact ⟨rfl, by simp [Incoming.contains_begin hb], he⟩
  | leaving h hs =>
    obtain rfl := Option.some.inj hj
    cases hd
  | noted job hc he hl hn =>
    rcases hn j hj with hn | hn <;> (rw [hn] at hd; cases hd)
  | _ => cases hj

/-- The outcome of the job of a request is reported, too, if it must be, and the request is taken out of those being served. -/
theorem complete_concludes {c : Connection} {j : Job} {id : MessageId} (hd : j.duty.id? = some id)
    (hc : c.incoming.contains id = true) (o : Outcome) :
    (c.complete j o).1.reports = c.reports ++ Report.ofOutcome (j.duty.told o) ∧
      (c.complete j o).1.incoming.entries = c.incoming.entries.erase id := by
  unfold complete
  cases hj : j.duty with
  | request i =>
    rw [hj] at hd
    obtain rfl := Option.some.inj hd
    simp [finish_eq, hc, Duty.told, Incoming.finish]
  | shutdown i =>
    rw [hj] at hd
    obtain rfl := Option.some.inj hd
    simp [completeShutdown_eq, hc, Duty.told, Incoming.finish, Incoming.cancelAllExcept]
  | exit | builtin | notification =>
    rw [hj] at hd
    cases hd

end Connection

namespace Session

variable {handlers : Registry (Handler α)} {catalogue : Catalogue} {s s' s₁ t : Session α} {n : Nat} {f f' : Fiber α}
  {j : Job} {id : MessageId} {o : Outcome} {callers : List (Option Outcome → Routine α)} {next : Option Outcome → Routine α}

/-! ## Those that wait are looked at -/

/-- To wake some lets nobody begin to wait. -/
theorem parked_foldl_wake {ns : List Nat} {m : Nat} (h : m ∈ (ns.foldl wake s).parked) : m ∈ s.parked := by
  induction ns generalizing s with
  | nil => exact h
  | cons n ns ih =>
    have hw : m ∈ (s.wake n).parked := ih h
    rw [wake, enqueue_eq] at hw
    exact (List.mem_filter.mp hw).1

/-- Whoever still waits when those that wait have been looked at waited before. -/
theorem parked_rouse {m : Nat} (h : m ∈ s.rouse.parked) : m ∈ s.parked := by
  unfold rouse at h
  extract_lets able s₁ s₂ at h
  have h₂ : m ∈ s₂.parked := by
    split at h
    · rwa [enqueue_eq] at h
    · exact h
  have h₁ : m ∈ s₁.parked := by
    simp only [s₂] at h₂
    split at h₂
    · rwa [enqueue_eq] at h₂
    · exact h₂
  exact parked_foldl_wake h₁

/-- From one state to another those that wait may have been looked at, and that is all. -/
structure Looks (s s' : Session α) : Prop where
  site : s'.site = s.site
  fibers : s'.fibers = s.fibers
  idle : s'.idle = s.idle
  running : s'.running = s.running
  parked : ∀ m ∈ s'.parked, m ∈ s.parked

theorem Looks.refl (s : Session α) : Looks s s := ⟨rfl, rfl, rfl, rfl, fun _ => id⟩

theorem looks_rouse (s : Session α) : Looks s s.rouse :=
  ⟨site_rouse s, fibers_rouse s, idle_rouse s, running_rouse s, fun _ => parked_rouse⟩

/-! ## The turn of such a call -/

/-- A routine that only computes ends. -/
theorem drive_brief (hp : f.place = .here) (hr : f.routine.Brief o) (s : Session α) (fuel n : Nat) :
    ∃ s₁ rest, Looks s s₁ ∧ fuel ≤ rest ∧ s.drive (fuel + 2) n f = s₁.drive (rest + 1) n { f with routine := .done o } := by
  cases hfr : f.routine with
  | done o' =>
    obtain rfl : o' = o := (hfr ▸ hr).eq_of_done
    refine ⟨s, fuel + 1, .refl s, by omega, ?_⟩
    obtain ⟨job, call, guarded, place, routine, cs, deadline, granted⟩ := f
    obtain rfl : routine = .done o' := hfr
    rfl
  | act update next =>
    rw [hfr] at hr
    cases hr with
    | pass hu hn =>
      refine ⟨s.rouse, fuel, looks_rouse s, Nat.le_refl _, ?_⟩
      rw [drive, node]
      simp only [hp, hfr, hu, hn]
  | reply => rw [hfr] at hr; cases hr
  | wait => rw [hfr] at hr; cases hr
  | invoke => rw [hfr] at hr; cases hr

/-- Here a call that nobody made ends with the outcome. -/
theorem drive_ends (hc : f.Computes o []) (hp : f.place = .here) (s : Session α) (n : Nat) :
    ∃ s₁, Looks s s₁ ∧ s.drive turnBound n f = (s₁, .ends o) := by
  obtain ⟨s₁, rest, hs₁, -, hd⟩ := drive_brief hp hc.routine s 999998 n
  exact ⟨s₁, hs₁, hd.trans (drive_done (f := { f with routine := .done o }) hp rfl hc.callers s₁ rest n)⟩

/-- Here a call that was made by a handler gives it the outcome, and the handler goes on. -/
theorem drive_returns (hc : f.Computes o (next :: callers)) (hp : f.place = .here) (s : Session α) (n : Nat) :
    ∃ s₁ rest, Looks s s₁ ∧ turnBound ≤ rest + 2 ∧
      s.drive turnBound n f = s₁.drive rest n { f with routine := next (some o), callers } := by
  obtain ⟨s₁, rest, hs₁, hb, hd⟩ := drive_brief hp hc.routine s 999998 n
  refine ⟨s₁, rest, hs₁, Nat.add_le_add_right hb 2, hd.trans ?_⟩
  rw [drive, node]
  simp only [hp, hc.callers]

/-- A call that was not cancelled has its turn. -/
theorem driveFiber_of_live (hs : f.Serves handlers j) (ht : s.isFired j.token = false) :
    s.driveFiber n f =
      match s.drive turnBound n f with
      | (s, .waits f) => s.park n f
      | (s, .ends o) =>
        match f.job with
        | some j => (s.without n).settle j o
        | none => s.without n := by
  rw [← hs.token] at ht
  rw [driveFiber, if_neg (by simp [ht])]
  rfl

/-- While a call is on its way to a worker, or on it, its turn changes nothing of it. -/
theorem driveFiber_elsewhere (hs : f.Serves handlers j) (hj : f.job = some j) (hc : f.Computes o callers)
    (ht : s.isFired j.token = false) (hp : f.place ≠ .here) :
    ∃ f', (s.driveFiber n f).fibers.find? n = some f' ∧ f'.job = some j ∧ f'.Computes o callers ∧ f'.place ≠ .here := by
  rw [driveFiber_of_live hs ht]
  cases hpl : f.place with
  | here => exact absurd hpl hp
  | worker =>
    rw [drive_worker hpl]
    exact ⟨f, find?_store_self _ _ _, hj, hc, by simp [hpl]⟩
  | queued =>
    obtain ⟨s₁, f', hd, hf'⟩ := drive_queued (s := s) hpl (hs.token ▸ ht) 999999 n
    have hd : s.drive turnBound n f = (s₁, .waits f') := hd
    rw [hd]
    refine ⟨f', find?_store_self _ _ _, ?_⟩
    rcases hf' with rfl | hf'
    · exact ⟨hj, hc, hp⟩
    · rw [hf']
      exact ⟨hj, ⟨hc.callers, hc.routine⟩, by simp⟩

/-! ## Whatever else happens -/

/-- A body that has come back from its worker has a turn. -/
theorem ready_of_worked (hs : Worked s n s') (hf : s.fibers.find? n = some f) (hl : f.Lawful) (hp : f.place = .worker)
    (hf' : s'.fibers.find? n = some f') (hp' : f'.place = .here) : .fiber n ∈ s'.ready := by
  cases hs with
  | back => exact mem_ready_enqueue _ _
  | @stays k s₁ g g' hg hd =>
    obtain rfl := Option.some.inj (hf.symm.trans hg)
    obtain ⟨-, -, ha⟩ := (labors_of_eq hd).onward hl
    rw [find?_store_self] at hf'
    rw [← Option.some.inj hf', ha.place, hp] at hp'
    cases hp'

/-- In one step a call stays, and has a turn if it is here and had one or has just come back, or it has its turn. -/
theorem Underway.next_of_turn (h : Underway handlers catalogue s) (hs : Next s s') (hf : s.fibers.find? n = some f)
    (hr : f.place = .here → .fiber n ∈ s.ready) :
    (∃ f', s'.fibers.find? n = some f' ∧ f.Stays f' ∧ (f'.place = .here → .fiber n ∈ s'.ready)) ∨
      .fiber n ∈ s.ready ∧ s' = (s.taken (.fiber n)).driveFiber n f := by
  have hn := (h.follows.fiber hf).2
  have hl := (h.follows.fiber hf).1
  -- Where the call is as it was, it has a turn if it had one.
  have same {f' : Fiber α} (hf' : s'.fibers.find? n = some f') (hb : f'.bare = f.bare)
      (hk : .fiber n ∈ s.ready → .fiber n ∈ s'.ready) :
      ∃ f', s'.fibers.find? n = some f' ∧ f.Stays f' ∧ (f'.place = .here → .fiber n ∈ s'.ready) :=
    ⟨f', hf', .of_bare hb, fun hp => hk (hr ((Fiber.place_of_bare hb).symm.trans hp))⟩
  cases hs with
  | aside hs =>
    refine .inl ?_
    rcases hs.spares h.follows hn with hsp | ⟨hw, hworked⟩
    · obtain ⟨f', hf', hb⟩ := hsp.call hn f hf
      exact same hf' hb fun hm => hsp.ready.subset hm
    · have hp := (h.orderly.crew n hw).2 f hf
      obtain ⟨f', hf', hj, hc, hq, hrt⟩ := hworked.call hl hp hf
      exact ⟨f', hf', ⟨hj, hc, hrt, fun _ => hq, fun hne => absurd hp hne⟩, fun hp' => ready_of_worked hworked hf hl hp hf' hp'⟩
  | @pass a ha =>
    refine .inl (same hf rfl fun hm => (List.mem_erase_of_ne fun he => ?_).mpr hm)
    rw [ha n he.symm] at hf
    cases hf
  | turn hm hfind =>
    rename_i m g
    by_cases he : m = n
    · subst he
      obtain rfl := Option.some.inj (hf.symm.trans hfind)
      exact .inr ⟨hm, rfl⟩
    · have hsp : Spares n (s.taken (.fiber m)) ((s.taken (.fiber m)).driveFiber m g) :=
        (driven_driveFiber _ m g).spares he h.follows.handlers (h.follows.fiber hfind).1
      obtain ⟨f', hf', hb⟩ := hsp.call hn f hf
      refine .inl (same hf' hb fun hm' => hsp.ready.subset ((List.mem_erase_of_ne fun he' => he ?_).mpr hm'))
      exact (Actor.fiber.inj he').symm

/-- A token that has not fired had not fired before. -/
theorem Underway.live_of_later (h : Underway handlers catalogue s) (hs : Later s s') {token : Token}
    (ht : s'.isFired token = false) : s.isFired token = false :=
  Bool.eq_false_iff.mpr fun hf => by rw [h.isFired_of_later hs hf] at ht; cases ht

/-- A call that only computes, and was not cancelled, is at work until it has a turn here. -/
theorem Underway.computes (h : Underway handlers catalogue s) (hf : s.fibers.find? n = some f) (hj : f.job = some j)
    (hc : f.Computes o callers) (hr : f.place = .here → .fiber n ∈ s.ready) (hs : Later s s') (ht : s'.isFired j.token = false) :
    (∃ f', s'.fibers.find? n = some f' ∧ f'.job = some j ∧ f'.Computes o callers ∧ (f'.place = .here → .fiber n ∈ s'.ready)) ∨
      ∃ t f', Later s t ∧ t.fibers.find? n = some f' ∧ f'.job = some j ∧ f'.Computes o callers ∧ f'.place = .here ∧
        .fiber n ∈ t.ready ∧ Later ((t.taken (.fiber n)).driveFiber n f') s' := by
  induction hs with
  | refl => exact .inl ⟨f, hf, hj, hc, hr⟩
  | @tail t t' hl hn ih =>
    have hu := h.later hl
    have hlive : t.isFired j.token = false := hu.live_of_later (.single hn) ht
    rcases ih hlive with ⟨f', hf', hj', hc', hr'⟩ | ⟨t₁, f', hl₁, hf', hj', hc', hp', hr', hl'⟩
    · rcases hu.next_of_turn hn hf' hr' with ⟨f'', hf'', hst, hr''⟩ | ⟨hready, rfl⟩
      · exact .inl ⟨f'', hf'', hst.job.trans hj', hc'.stays hst, hr''⟩
      · by_cases hp : f'.place = .here
        · exact .inr ⟨t, f', hl, hf', hj', hc', hp, hready, .refl⟩
        · have hserves := hu.orderly.serves n f' j hf' hj'
          obtain ⟨f'', hf'', hj'', hc'', hp''⟩ :=
            driveFiber_elsewhere (s := t.taken (.fiber n)) (n := n) hserves hj' hc' hlive hp
          exact .inl ⟨f'', hf'', hj'', hc'', fun hp => absurd hp hp''⟩
    · exact .inr ⟨t₁, f', hl₁, hf', hj', hc', hp', hr', hl'.tail hn⟩

/-! ## Calls of other handlers -/

/-- A handler calls one that only computes: if this is no threaded one, it goes on at once with the outcome. -/
theorem drive_invoke_here {outcome : Json → Outcome} {name : String} {params : Json} {b : Handler α} (hp : f.place = .here)
    (hr : f.routine = .invoke name params next) (hb : s.handlers.find? .user name = some b) (hc : b.Computes outcome)
    (hm : b.mode ≠ .threaded) (fuel n : Nat) :
    ∃ s₁ rest, Looks s s₁ ∧ fuel ≤ rest ∧
      s.drive (fuel + 3) n f = s₁.drive rest n { f with routine := next (some (outcome params)) } := by
  cases b with
  | direct run =>
    have hrun : ∀ site, run { f.call with params } site = (outcome params, site) := hc.direct run rfl { f.call with params }
    refine ⟨s.rouse, fuel, looks_rouse s, Nat.le_refl _, ?_⟩
    rw [drive, node]
    simp only [hp, hr, hb]
    rw [Handler.routine, Routine.acting, drive, node]
    simp only [hrun]
    rw [drive, node]
  | coroutine body =>
    have hbody := hc.coroutine rfl { f.call with params }
    refine ⟨s, fuel + 1, .refl s, Nat.le_succ _, ?_⟩
    rw [drive, node]
    simp only [hp, hr, hb, hbody]
    rw [drive, node]
  | threaded body => exact absurd rfl hm

/-- A handler calls one that only computes, but on a worker: its call is one that waits for a worker, for the handler. -/
theorem drive_invoke_threaded {outcome : Json → Outcome} {name : String} {params : Json} {b : Handler α} (hp : f.place = .here)
    (hr : f.routine = .invoke name params next) (hb : s.handlers.find? .user name = some b) (hc : b.Computes outcome)
    (hm : b.mode = .threaded) (fuel n : Nat) :
    ∃ g, s.drive (fuel + 1) n f = s.drive fuel n g ∧ g.job = f.job ∧ g.call = f.call ∧ g.guarded = f.guarded ∧
      g.granted = f.granted ∧ g.place = .queued ∧ g.Computes (outcome params) (next :: f.callers) := by
  cases b with
  | direct run => cases hm
  | coroutine body => cases hm
  | threaded body =>
    refine ⟨{ f with routine := body { f.call with params }, callers := next :: f.callers, place := .queued }, ?_, rfl, rfl,
      rfl, rfl, rfl, rfl, hc.routine { f.call with params }⟩
    rw [drive, node]
    simp only [hp, hr, hb]

/-- At its turn a handler that calls one that only computes goes on with the outcome, or its call leaves for a worker. -/
theorem driveFiber_invoke {outcome : Json → Outcome} {name : String} {params : Json} {b : Handler α} (hs : f.Serves handlers j)
    (hj : f.job = some j) (hp : f.place = .here) (hr : f.routine = .invoke name params next)
    (hb : s.handlers.find? .user name = some b) (hc : b.Computes outcome) (ht : s.isFired j.token = false) :
    (∃ g, (s.driveFiber n f).fibers.find? n = some g ∧ g.job = some j ∧ g.Computes (outcome params) (next :: f.callers) ∧
      g.place ≠ .here) ∨
      ∃ s₁ rest, Looks s s₁ ∧ turnBound ≤ rest + 3 ∧
        s.drive turnBound n f = s₁.drive rest n { f with routine := next (some (outcome params)) } := by
  by_cases hm : b.mode = .threaded
  · obtain ⟨g, hd, hgj, hgc, -, -, hgp, hg⟩ := drive_invoke_threaded hp hr hb hc hm 999999 n
    have hgt : s.isFired g.call.token = false := by rwa [hgc, hs.token]
    obtain ⟨s₁, g', hd', hg'⟩ := drive_queued hgp hgt 999998 n
    have hdrive : s.drive turnBound n f = (s₁, .waits g') := hd.trans hd'
    refine .inl ⟨g', ?_, ?_⟩
    · rw [driveFiber_of_live hs ht, hdrive]
      exact find?_store_self _ _ _
    · rcases hg' with rfl | hg'
      · exact ⟨hgj.trans hj, hg, by simp [hgp]⟩
      · rw [hg']
        exact ⟨hgj.trans hj, ⟨hg.callers, hg.routine⟩, by simp⟩
  · obtain ⟨s₁, rest, hk, hle, hd⟩ := drive_invoke_here hp hr hb hc hm 999997 n
    exact .inr ⟨s₁, rest, hk, Nat.add_le_add_right hle 3, hd⟩

/-- Between two states the routine of a call has come back to its caller, which has gone on at the turn of the call. -/
inductive GoesOn (n : Nat) (j : Job) (r : Routine α) (callers : List (Option Outcome → Routine α)) (s s' : Session α) : Prop
  | intro {t t₁ : Session α} {f g : Fiber α} {rest : Nat} (before : Later s t) (ready : .fiber n ∈ t.ready)
    (fiber : t.fibers.find? n = some f) (job : f.job = some j) (looks : Looks (t.taken (.fiber n)) t₁)
    (far : turnBound ≤ rest + 3) (drive : (t.taken (.fiber n)).drive turnBound n f = t₁.drive rest n g) (place : g.place = .here)
    (routine : g.routine = r) (caller : g.callers = callers) (after : Later ((t.taken (.fiber n)).driveFiber n f) s')

/-- A handler that is about to call one that only computes, and was not cancelled, does so and goes on with the outcome, whatever
the mode of the other one and whatever else happens. -/
theorem Underway.invokes (h : Underway handlers catalogue s) {outcome : Json → Outcome} {name : String} {params : Json}
    {b : Handler α} (hf : s.fibers.find? n = some f) (hj : f.job = some j) (hp : f.place = .here)
    (hr : f.routine = .invoke name params next) (hready : .fiber n ∈ s.ready) (hb : handlers.find? .user name = some b)
    (hc : b.Computes outcome) (hs : Later s s') (ht : s'.isFired j.token = false) :
    (∃ f', s'.fibers.find? n = some f' ∧ f'.bare = f.bare ∧ .fiber n ∈ s'.ready) ∨
      (∃ f', s'.fibers.find? n = some f' ∧ f'.job = some j ∧ f'.Computes (outcome params) (next :: f.callers) ∧
        (f'.place = .here → .fiber n ∈ s'.ready)) ∨
        GoesOn n j (next (some (outcome params))) f.callers s s' := by
  induction hs with
  | refl => exact .inl ⟨f, hf, rfl, hready⟩
  | @tail t t' hl hn ih =>
    have hu := h.later hl
    have hlive : t.isFired j.token = false := hu.live_of_later (.single hn) ht
    rcases ih hlive with ⟨f', hf', hbare, hr'⟩ | ⟨f', hf', hj', hc', hr'⟩ | ⟨hb', hr', hf', hj', hk, hm, hd, hp', hrt, hcl, ha⟩
    · have hp' := (Fiber.place_of_bare hbare).trans hp
      have hj' := (Fiber.job_of_bare hbare).trans hj
      rcases hu.next_of_turn hn hf' fun _ => hr' with ⟨f'', hf'', hst, hr''⟩ | ⟨hready', rfl⟩
      · have hbare' := hst.elsewhere (by simp [hp'])
        exact .inl ⟨f'', hf'', hbare'.trans hbare, hr'' ((Fiber.place_of_bare hbare').trans hp')⟩
      · have hserves := hu.orderly.serves n f' j hf' hj'
        have hcallers := Fiber.callers_of_bare hbare
        rw [← hu.handlers] at hb
        rcases driveFiber_invoke (s := t.taken (.fiber n)) (n := n) hserves hj' hp' ((Fiber.routine_of_bare hbare).trans hr) hb hc
            hlive with ⟨g, hg, hgj, hgc, hgp⟩ | ⟨t₁, rest, hk, hm, hd⟩
        · exact .inr (.inl ⟨g, hg, hgj, hcallers ▸ hgc, fun hp => absurd hp hgp⟩)
        · exact .inr (.inr ⟨hl, hready', hf', hj', hk, hm, hd, hp', rfl, hcallers, .refl⟩)
    · rcases hu.computes hf' hj' hc' hr' (.single hn) ht with hw | ⟨t₁, f'', hl₁, hf'', hj'', hc'', hp'', hr'', hl'⟩
      · exact .inr (.inl hw)
      · obtain ⟨t₂, rest, hk, hm, hd⟩ := drive_returns hc'' hp'' (t₁.taken (.fiber n)) n
        exact .inr (.inr ⟨hl.trans hl₁, hr'', hf'', hj'', hk, Nat.le_succ_of_le hm, hd, hp'', rfl, rfl, hl'⟩)
    · exact .inr (.inr ⟨hb', hr', hf', hj', hk, hm, hd, hp', hrt, hcl, ha.tail hn⟩)

/-! ## Requests -/

/-- From one state to another a request is answered with an outcome, which is reported if it must be, and is no longer served. -/
structure Concludes (id : MessageId) (o : Outcome) (s s' : Session α) : Prop where
  served : s.site.connection.incoming.contains id = true
  queue : s'.site.connection.queue = s.site.connection.queue ++ s.site.connection.kept [.frame (Reply.ofOutcome id o)]
  reports : s'.site.connection.reports = s.site.connection.reports ++ Report.ofOutcome o
  entries : s'.site.connection.incoming.entries = s.site.connection.incoming.entries.erase id
  own : s'.site.own = s.site.own

/-- A job that has ended has concluded its request. -/
theorem Concludes.of_site (hd : j.duty.id? = some id) (hc : s.site.connection.incoming.contains id = true)
    (hs : s'.site = { s.site with connection := (s.site.connection.complete j o).1 }) : Concludes id (j.duty.told o) s s' := by
  obtain ⟨hr, he⟩ := Connection.complete_concludes hd hc o
  refine ⟨hc, ?_, ?_, ?_, ?_⟩
  all_goals rw [hs]
  · exact (Connection.complete_answers hd hc o).1
  · exact hr
  · exact he

/-- The outcome of the job of a request is handed to the connection, and no job follows. -/
theorem settle_of_id (hd : j.duty.id? = some id) (s : Session α) (o : Outcome) :
    s.settle j o = (s.withConnection (s.site.connection.complete j o).1).rouse := by
  have hn : (s.site.connection.complete j o).2 = none := by
    unfold Connection.complete
    cases hj : j.duty with
    | builtin =>
      rw [hj] at hd
      cases hd
    | _ => rfl
  simp only [settle, handBack, hn]

/-- From one state to another a request is concluded, its call is gone, and nothing else has changed. -/
structure Finishes (n : Nat) (j : Job) (o : Outcome) (s s' : Session α) : Prop where
  site : s'.site = { s.site with connection := (s.site.connection.complete j o).1 }
  fibers : s'.fibers = s.fibers.erase n
  idle : s'.idle = s.idle
  running : s'.running = s.running

/-- The call of a request that comes to its end at its turn finishes. -/
theorem finishes_of_ends (hs : f.Serves handlers j) (hj : f.job = some j) (hd : j.duty.id? = some id)
    (ht : s.isFired j.token = false) (hk : Looks (s.taken (.fiber n)) s₁)
    (hdrive : (s.taken (.fiber n)).drive turnBound n f = (s₁, .ends o)) :
    Finishes n j o s ((s.taken (.fiber n)).driveFiber n f) := by
  rw [driveFiber_of_live (s := s.taken (.fiber n)) hs ht, hdrive, hj]
  simp only [settle_of_id hd]
  constructor
  · rw [site_rouse, withConnection, without, hk.site]
    rfl
  · rw [fibers_rouse, withConnection, without, hk.fibers]
    rfl
  · rw [idle_rouse, withConnection, without, hk.idle]
    rfl
  · rw [running_rouse, withConnection, without, hk.running]
    rfl

/-- The turn at which the call of a request comes to its end concludes the request. -/
theorem Underway.concludes (h : Underway handlers catalogue s) (hf : s.fibers.find? n = some f) (hj : f.job = some j)
    (hd : j.duty.id? = some id) (ht : s.isFired j.token = false) (ho : s.site.connection.outgoing.closed = false)
    (hk : Looks (s.taken (.fiber n)) s₁) (hdrive : (s.taken (.fiber n)).drive turnBound n f = (s₁, .ends o)) :
    Concludes id (j.duty.told o) s ((s.taken (.fiber n)).driveFiber n f) :=
  .of_site hd (((h.follows.serves ho).1 id).mpr ⟨j, mem_jobs hf hj, hd⟩)
    (finishes_of_ends (h.orderly.serves n f j hf hj) hj hd ht hk hdrive).site

end Session

end Parley
