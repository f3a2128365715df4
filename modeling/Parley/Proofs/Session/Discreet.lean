import Parley.Proofs.Session.Replies

/-!
# What is out of reach for handlers

A program may keep something that none of its handlers changes, whatever they do (`Registry.Discreet`). While one call is in progress
that does change it, a session does nothing else to it: at each step what is seen of it stays as it is, unless this call has its turn
(`Session.Proceeds.cases`). What a session does by itself is among these steps (`Session.spansRun_meanwhile`).
-/

namespace Parley

variable {α γ : Type}

/-- Wherever it acts, the routine leaves what is seen of the program's own as it is. -/
def Routine.Discreet (view : α → γ) : Routine α → Prop
  | .done _ => True
  | .act update next => ∀ s, view (update s).own = view s.own ∧ (next s).Discreet view
  | .reply _ next => ∀ r, (next r).Discreet view
  | .wait _ next => next.Discreet view
  | .invoke _ _ next => ∀ o, (next o).Discreet view

/-- Whatever the call, the handler leaves what is seen as it is. -/
def Handler.Discreet (view : α → γ) : Handler α → Prop
  | .direct run => ∀ c s, view (run c s).2.own = view s.own
  | .coroutine body => ∀ c, (body c).Discreet view
  | .threaded body => ∀ c, (body c).Discreet view

/-- Every handler of a registry is discreet. -/
def Registry.Discreet (view : α → γ) (r : Registry (Handler α)) : Prop :=
  ∀ origin name h, r.find? origin name = some h → h.Discreet view

/-- The routine of a fiber is discreet, whoever called it. -/
structure Fiber.Discreet (view : α → γ) (f : Fiber α) : Prop where
  routine : f.routine.Discreet view
  callers : ∀ next ∈ f.callers, ∀ o, (next o).Discreet view

variable {view : α → γ}

/-- The routine of a discreet handler is discreet, whatever the mode. -/
theorem Handler.Discreet.routine {h : Handler α} (hd : h.Discreet view) (c : Call) : (h.routine c).Discreet view := by
  cases h with
  | direct run => exact fun s => ⟨hd c s, trivial⟩
  | coroutine body => exact hd c
  | threaded body => exact hd c

/-- What is given to a call does not matter. -/
theorem Fiber.Discreet.of_bare {f f' : Fiber α} (h : f.Discreet view) (hb : f'.bare = f.bare) : f'.Discreet view := by
  refine ⟨?_, ?_⟩
  · rw [Fiber.routine_of_bare hb]
    exact h.routine
  · rw [Fiber.callers_of_bare hb]
    exact h.callers

namespace Session

/-- The handlers are discreet, and so are the calls in progress, with one exception at most. -/
structure Discreet (view : α → γ) (except : Option Nat) (s : Session α) : Prop where
  handlers : s.handlers.Discreet view
  calls : ∀ n f, s.fibers.find? n = some f → except ≠ some n → f.Discreet view

/-- A session that is discreet comes to another, and what is seen is as before. -/
def Leaves (view : α → γ) (except : Option Nat) (s s' : Session α) : Prop :=
  s.Discreet view except → s'.Discreet view except ∧ view s'.site.own = view s.site.own

/-- A turn ends, or a discreet call waits. -/
def Pause.Discreet (view : α → γ) : Pause α → Prop
  | .waits f => f.Discreet view
  | .ends _ => True

/-- A discreet call goes on, or its turn is over. -/
def Progress.Discreet (view : α → γ) : Progress α → Prop
  | .goesOn f => f.Discreet view
  | .pauses p => p.Discreet view

variable {except : Option Nat} {s s' s'' : Session α} {n : Nat} {f : Fiber α} {j : Job} {o : Outcome}

namespace Discreet

/-- What no call has a part in leaves the calls as they are. -/
theorem onward (hd : s.Discreet view except) (ho : Onward s s') : s'.Discreet view except := by
  refine ⟨ho.handlers ▸ hd.handlers, fun n f' hf' hn => ?_⟩
  obtain ⟨f, hf, hb⟩ := ho.exists_fiber hf'
  exact (hd.calls n f hf hn).of_bare hb.symm

/-- Where the exception is gone, there is none. -/
theorem of_gone (hd : s.Discreet view (some n)) (hn : s.fibers.find? n = none) : s.Discreet view none := by
  refine ⟨hd.handlers, fun m f hf _ => hd.calls m f hf fun he => ?_⟩
  rw [← Option.some.inj he, hn] at hf
  cases hf

/-- The fiber of a job is discreet. -/
theorem fiberOf (hd : s.Discreet view except) (j : Job) : (s.fiberOf j).Discreet view := by
  refine ⟨?_, by simp [Session.fiberOf]⟩
  simp only [Session.fiberOf]
  split
  · rename_i h hf
    exact (hd.handlers _ _ h hf).routine _
  · trivial

end Discreet

namespace Leaves

theorem refl (s : Session α) : Leaves view except s s := fun h => ⟨h, rfl⟩

theorem trans (h : Leaves view except s s') (h' : Leaves view except s' s'') : Leaves view except s s'' := fun hd =>
  have hs := h hd
  have hs' := h' hs.1
  ⟨hs'.1, hs'.2.trans hs.2⟩

/-- Where the handlers and the calls are the same, what is seen decides. -/
theorem of_eq (hv : view s'.site.own = view s.site.own) (hh : s'.handlers = s.handlers) (hf : s'.fibers = s.fibers) :
    Leaves view except s s' := fun hd =>
  ⟨⟨hh ▸ hd.handlers, hf ▸ hd.calls⟩, hv⟩

/-- What goes on by itself is discreet if the view is the same. -/
theorem of_onward (ho : Onward s s') (hv : view s'.site.own = view s.site.own) : Leaves view except s s' := fun hd =>
  ⟨hd.onward ho, hv⟩

/-- A call is put there. -/
theorem store (s : Session α) (n : Nat) (hf : s.Discreet view except → except ≠ some n → f.Discreet view) :
    Leaves view except s (s.store n f) := by
  refine fun hd => ⟨⟨hd.handlers, fun m g hg hm => ?_⟩, rfl⟩
  rcases find?_of_store hg with ⟨rfl, rfl⟩ | hg
  · exact hf hd hm
  · exact hd.calls m g (find?_of_without hg) hm

/-- A call is taken away. -/
theorem without (s : Session α) (n : Nat) : Leaves view except s (s.without n) := fun hd =>
  ⟨⟨hd.handlers, fun m g hg hm => hd.calls m g (find?_of_without hg) hm⟩, rfl⟩

end Leaves

/-! ## The parts of a step -/

/-- A discreet call acts, and whoever waits is looked at. -/
theorem leaves_site {site : Site α} (hv : view site.own = view s.site.own) : Leaves view except s { s with site }.rouse := by
  have hs : Leaves view except s { s with site } := .of_eq hv rfl rfl
  refine hs.trans (.of_onward (onward_rouse _) ?_)
  rw [site_rouse]

/-- What becomes of the connection is not in view. -/
theorem leaves_reconnect (s : Session α) (connection : Connection) :
    Leaves view except s (s.withConnection connection).rouse := by
  have hv : view ({ s.site with connection } : Site α).own = view s.site.own := rfl
  exact leaves_site hv

/-- A discreet call may begin. -/
theorem leaves_spawn (s : Session α) (hf : s.Discreet view except → f.Discreet view) : Leaves view except s (s.spawn f) := by
  have hs : Leaves view except s { s.store s.nextFiber f with nextFiber := s.nextFiber + 1 } :=
    (Leaves.store s s.nextFiber fun hd _ => hf hd).trans (.of_eq rfl rfl rfl)
  refine hs.trans (.of_onward (onward_enqueue _ _) ?_)
  rw [spawn, site_enqueue]

/-- What is given back is not in view. -/
theorem leaves_giveBack (s : Session α) (f : Fiber α) : Leaves view except s (s.giveBack f) :=
  .of_onward (onward_giveBack s f) (by rw [site_giveBack])

/-- Handlers of a discreet session are discreet. -/
theorem leaves_runDirect (s : Session α) (j : Job) : Leaves view except s (s.runDirect j).2 := by
  intro hd
  unfold runDirect
  split
  · rename_i run hf
    exact leaves_site (hd.handlers _ _ _ hf j.call s.site) hd
  · exact ⟨hd, rfl⟩

/-- The outcome of a job is not in view. -/
theorem leaves_handBack (s : Session α) (j : Job) (o : Outcome) : Leaves view except s (s.handBack j o).1 :=
  leaves_reconnect s _

/-- Nor is it that a job ends. -/
theorem Settled.leaves (hs : Settled s j o s') : Leaves view except s s' := by
  have hb : Leaves view except s (s.handBack j o).1 := leaves_handBack s j o
  cases hs with
  | last he =>
    rw [he] at hb
    exact hb
  | @done s₁ s₂ next o' he hd =>
    rw [he] at hb
    have hr : Leaves view except s₁ (s₁.runDirect next).2 := leaves_runDirect s₁ next
    rw [hd] at hr
    exact hb.trans (hr.trans (leaves_handBack s₂ next o'))
  | @begun s₁ next he hm =>
    rw [he] at hb
    exact hb.trans (leaves_spawn s₁ fun hd => hd.fiberOf next)

/-- Or that a fiber does. -/
theorem Ended.leaves {job : Option Job} (he : Ended s o job s') : Leaves view except s s' := by
  cases he with
  | alone => exact .refl s
  | settled hs => exact hs.leaves

/-- A call that is dismissed is not in view. -/
theorem leaves_dismiss (s : Session α) (n : Nat) (hf : f.Discreet view) : Leaves view except s (s.dismiss n f) := by
  unfold dismiss
  split
  · exact (leaves_giveBack s f).trans (.store _ n fun _ _ => ⟨hf.routine, nofun⟩)
  · exact (leaves_giveBack s f).trans (.without _ n)

/-- At a node a discreet call leaves what is seen as it is, and stays discreet. -/
theorem Node.leaves {p : Progress α} (h : Node s n f s' p) (hd : s.Discreet view except) (hf : f.Discreet view) :
    (s'.Discreet view except ∧ view s'.site.own = view s.site.own) ∧ p.Discreet view := by
  have hr := hf.routine
  -- Most nodes change the fiber alone.
  have stays {p : Progress α} (hp : p.Discreet view) : (s.Discreet view except ∧ view s.site.own = view s.site.own) ∧ p.Discreet view :=
    ⟨⟨hd, rfl⟩, hp⟩
  cases h with
  | onWorker | queues | unanswered => exact stays hf
  | refused hp ht hc =>
    have hl := hf.callers
    rw [hc] at hl
    exact ⟨leaves_giveBack s f hd, hl _ List.mem_cons_self _, fun g hg => hl g (List.mem_cons_of_mem _ hg)⟩
  | dismissed => exact ⟨leaves_giveBack s f hd, trivial⟩
  | seated | hired => exact ⟨Leaves.of_eq rfl rfl rfl hd, hr, hf.callers⟩
  | returns hp hr' hc =>
    have hl := hf.callers
    rw [hc] at hl
    exact stays ⟨hl _ List.mem_cons_self _, fun g hg => hl g (List.mem_cons_of_mem _ hg)⟩
  | ends => exact stays trivial
  | acts hp hr' =>
    rw [hr'] at hr
    exact ⟨leaves_site (hr s.site).1 hd, (hr s.site).2, hf.callers⟩
  | answered hp hr' =>
    rw [hr'] at hr
    exact stays ⟨hr _, hf.callers⟩
  | passes hp hr' hw =>
    rw [hr'] at hr
    obtain ⟨gates, rfl⟩ := exists_of_pass? hw
    exact ⟨Leaves.of_eq rfl rfl rfl hd, hr, hf.callers⟩
  | waits =>
    refine stays ?_
    rw [timed_eq]
    exact ⟨hf.routine, hf.callers⟩
  | misses hp hr' =>
    rw [hr'] at hr
    exact stays ⟨hr none, hf.callers⟩
  | offloads hp hr' hb =>
    rw [hr'] at hr
    exact stays ⟨hd.handlers .user _ _ hb _, List.forall_mem_cons.mpr ⟨hr, hf.callers⟩⟩
  | invokes hp hr' hb =>
    rw [hr'] at hr
    exact stays ⟨(hd.handlers .user _ _ hb).routine _, List.forall_mem_cons.mpr ⟨hr, hf.callers⟩⟩

/-- At its turn a discreet call does so node by node. -/
theorem discreet_drive (hd : s.Discreet view except) (hf : f.Discreet view) (fuel n : Nat) :
    ((s.drive fuel n f).1.Discreet view except ∧ view (s.drive fuel n f).1.site.own = view s.site.own) ∧
      (s.drive fuel n f).2.Discreet view := by
  induction fuel generalizing s f with
  | zero => exact ⟨⟨hd, rfl⟩, hf⟩
  | succ fuel ih =>
    have hnode := (node_cases s n f).leaves hd hf
    rw [drive_succ]
    generalize (s.node n f).1 = s', (s.node n f).2 = p at hnode
    obtain ⟨⟨hd', hv⟩, hp⟩ := hnode
    cases p with
    | pauses p => exact ⟨⟨hd', hv⟩, hp⟩
    | goesOn f' =>
      obtain ⟨⟨hd'', hv'⟩, hp'⟩ := ih hd' hp
      exact ⟨⟨hd'', hv'.trans hv⟩, hp'⟩

/-- On a worker a discreet call does so, too. -/
theorem Labors.leaves (h : Labors s f s' f') (hd : s.Discreet view except) (hf : f.Discreet view) :
    (s'.Discreet view except ∧ view s'.site.own = view s.site.own) ∧ f'.Discreet view := by
  induction h with
  | rests => exact ⟨⟨hd, rfl⟩, hf⟩
  | waits =>
    rw [timed_eq]
    exact ⟨⟨hd, rfl⟩, hf.routine, hf.callers⟩
  | @acts s s' f f' update next hr h ih =>
    have hl := hf.routine
    rw [hr] at hl
    obtain ⟨hd₁, hv₁⟩ := leaves_site (hl s.site).1 hd
    obtain ⟨⟨hd', hv'⟩, hf'⟩ := ih hd₁ ⟨(hl s.site).2, hf.callers⟩
    exact ⟨⟨hd', hv'.trans hv₁⟩, hf'⟩
  | @answered s s' f f' handle next r hr h ih =>
    have hl := hf.routine
    rw [hr] at hl
    exact ih hd ⟨hl r, hf.callers⟩
  | passes hr hw h ih =>
    have hl := hf.routine
    rw [hr] at hl
    obtain ⟨gates, rfl⟩ := exists_of_pass? hw
    exact ih ⟨hd.handlers, hd.calls⟩ ⟨hl, hf.callers⟩
  | misses hr h ih =>
    have hl := hf.routine
    rw [hr] at hl
    exact ih hd ⟨hl none, hf.callers⟩

/-- The turn of a discreet call. -/
theorem Driven.leaves (hs : Driven s n f s') (hf : f.Discreet view) : Leaves view except s s' := by
  intro hd
  cases hs with
  | cancelled _ _ he => exact ((leaves_dismiss s n hf).trans he.leaves) hd
  | @waits s₁ f' _ he =>
    obtain ⟨⟨hd', hv⟩, hp⟩ := discreet_drive hd hf turnBound n
    rw [he] at hd' hv hp
    have hs : Leaves view except s₁ (s₁.park n f') := (Leaves.store s₁ n fun _ _ => hp).trans (.of_eq rfl rfl rfl)
    obtain ⟨hd'', hv'⟩ := hs hd'
    exact ⟨hd'', hv'.trans hv⟩
  | @ends s₁ _ o _ he hend =>
    obtain ⟨⟨hd', hv⟩, -⟩ := discreet_drive hd hf turnBound n
    rw [he] at hd' hv
    obtain ⟨hd'', hv'⟩ := ((Leaves.without s₁ n).trans hend.leaves) hd'
    exact ⟨hd'', hv'.trans hv⟩

/-- What comes of a payload. -/
theorem Handled.leaves {payload : Bytes} (hs : Handled s payload s') : Leaves view except s s' := by
  cases hs with
  | answered he => exact leaves_reconnect s _
  | @done connection j s₁ _ o he hd hs =>
    have hr : Leaves view except s ((s.withConnection connection).rouse.runDirect j).2 :=
      (leaves_reconnect s connection).trans (leaves_runDirect _ j)
    rw [hd] at hr
    exact hr.trans hs.leaves
  | @begun connection j s₁ _ he hm h₁ hd =>
    have hs₁ : Leaves view except s s₁ := h₁ ▸ leaves_reconnect s connection
    intro hdis
    obtain ⟨hd₁, hv₁⟩ := hs₁ hdis
    obtain ⟨hd₂, hv₂⟩ := hd.leaves (hd₁.fiberOf j) ⟨hd₁.handlers, hd₁.calls⟩
    exact ⟨hd₂, hv₂.trans hv₁⟩
  | @spawned connection j s₁ he hm h₁ =>
    have hs₁ : Leaves view except s s₁ := h₁ ▸ leaves_reconnect s connection
    exact hs₁.trans (leaves_spawn s₁ fun hd => hd.fiberOf j)

/-- A discreet call on a worker goes on. -/
theorem Worked.leaves (hs : Worked s n s') (hn : except ≠ some n) : Leaves view except s s' := by
  intro hd
  have hstore {k : Nat} {s₁ : Session α} {f f' : Fiber α} {moved : Bool} (hf : s.fibers.find? n = some f)
      (hw : s.driveWorker k f false = (s₁, f', moved)) (place : Place) :
      (s₁.store n { f' with place }).Discreet view except ∧ view s₁.site.own = view s.site.own := by
    obtain ⟨⟨hd', hv⟩, hp⟩ := (labors_of_eq hw).leaves hd (hd.calls n f hf hn)
    have hplaced : Fiber.Discreet view { f' with place } := ⟨hp.routine, hp.callers⟩
    exact ⟨(Leaves.store s₁ n (fun _ _ => hplaced) hd').1, hv⟩
  cases hs with
  | @back k s₁ f f' o hf hw hr =>
    obtain ⟨hd', hv⟩ := hstore hf hw .here
    have ho : Onward { s₁.store n { f' with place := .here } with running := s₁.running.filter (· ≠ n) } _ :=
      (onward_freeWorker _).trans (onward_wake _ n)
    obtain ⟨hd'', hv'⟩ := Leaves.of_onward ho (by rw [site_wake, site_freeWorker]) ⟨hd'.handlers, hd'.calls⟩
    exact ⟨hd'', hv'.trans hv⟩
  | @stays k s₁ f f' hf hw => exact hstore hf hw f'.place

/-! ## Steps -/

/-- A session does one thing, and nothing but the calls in progress changes what is seen. -/
inductive Proceeds (view : α → γ) (s : Session α) : Session α → Prop
  /-- Something that no call has a part in. -/
  | onward {s' : Session α} (h : Onward s s') (hv : view s'.site.own = view s.site.own) : Proceeds view s s'
  /-- A fiber on a worker goes on. -/
  | worker {s' : Session α} {n : Nat} (hn : n ∈ s.running) (h : s.stepWorker n = some s') : Proceeds view s s'
  /-- A payload comes. -/
  | receive (payload : Bytes) : Proceeds view s (s.receive payload).1
  /-- A discreet routine begins on its own. -/
  | begin {r : Routine α} (hr : r.Lawful) (hd : r.Discreet view) : Proceeds view s (s.begin r)
  /-- A turn is used up for nothing. -/
  | pass {a : Actor} (ha : ∀ n, a = .fiber n → s.fibers.find? n = none) : Proceeds view s (s.taken a)
  /-- A fiber has its turn. -/
  | turn {n : Nat} {f : Fiber α} (hn : .fiber n ∈ s.ready) (hf : s.fibers.find? n = some f) :
    Proceeds view s ((s.taken (.fiber n)).driveFiber n f)

/-- A session comes to a state by such steps. -/
abbrev Meanwhile (view : α → γ) (s s' : Session α) : Prop := Relation.ReflTransGen (Proceeds view) s s'

/-- What a session does by itself is a row of such steps. -/
theorem spansRun_meanwhile : SpansRun (Meanwhile (α := α) view) :=
  ⟨⟨fun _ => .refl, .trans, fun h ho => .single (.onward h (by rw [ho])), fun _ payload => .single (.receive payload)⟩,
    fun hn h => .single (.worker hn h), fun ha => .single (.pass ha), fun hn hf => .single (.turn hn hf)⟩

/-- Bytes arrive. -/
theorem proceeds_feed (s : Session α) (bytes : Bytes) : Proceeds view s (s.feed bytes) := by
  unfold feed
  split
  · exact .receive bytes
  · refine .onward (onward_source s _) ?_
    unfold nudge
    split
    · rw [site_enqueue]
    · rfl

/-- Our side acts on the site and leaves what is seen as it is. -/
theorem proceeds_act {ρ : Type} {act : Site α → ρ × Site α} (ha : s.site.connection.ActsTo (act s.site).2.connection)
    (hv : view (act s.site).2.own = view s.site.own) : Proceeds view s (s.act act).2 := by
  refine .onward (onward_site ha) ?_
  rw [Session.act, site_rouse]
  exact hv

/-- The reader of what is written goes. -/
theorem proceeds_sever (s : Session α) : Proceeds view s s.sever := .onward (.of_eq rfl rfl rfl rfl rfl rfl rfl) rfl

/-- Each thing that happens meanwhile is a step. -/
theorem Proceeds.next (h : Proceeds view s s') : Next s s' := by
  cases h with
  | onward h => exact .aside (.onward h)
  | worker hn h => exact .aside (.worker hn (worked_of_stepWorker h))
  | receive payload => exact .aside (.receive s payload)
  | begin hr => exact .aside (.begin s hr)
  | pass ha => exact .pass ha
  | turn hn hf => exact .turn hn hf

/-- A row of such things is a row of steps. -/
theorem Meanwhile.later (h : Meanwhile view s s') : Later s s' :=
  Relation.ReflTransGen.mono (fun _ _ => Proceeds.next) _ _ h

/-- A step leaves what is seen as it is, unless it is the turn of the exception. -/
theorem Proceeds.leaves (h : Proceeds view s s') (hd : s.Discreet view except) (hw : ∀ n ∈ s.running, except ≠ some n) :
    Leaves view except s s' ∨ ∃ n f, except = some n ∧ .fiber n ∈ s.ready ∧ s.fibers.find? n = some f ∧
      s' = (s.taken (.fiber n)).driveFiber n f := by
  cases h with
  | onward h hv => exact .inl (.of_onward h hv)
  | worker hn h => exact .inl ((worked_of_stepWorker h).leaves (hw _ hn))
  | receive payload => exact .inl (handled_receive s payload).leaves
  | begin hr hdr => exact .inl (leaves_spawn s fun _ => ⟨hdr, nofun⟩)
  | pass => exact .inl (.of_eq rfl rfl rfl)
  | @turn n f hn hf =>
    by_cases he : except = some n
    · exact .inr ⟨n, f, he, hn, hf, rfl⟩
    · have ht : Leaves view except s (s.taken (.fiber n)) := .of_eq rfl rfl rfl
      exact .inl (ht.trans ((driven_driveFiber _ n f).leaves (hd.calls n f hf he)))

variable {handlers : Registry (Handler α)} {catalogue : Catalogue}

/-- While all calls are discreet, what is seen stays as it is. -/
theorem Meanwhile.leaves (h : Meanwhile view s s') : Leaves view none s s' := by
  intro hd
  induction h with
  | refl => exact ⟨hd, rfl⟩
  | tail _ hs ih =>
    obtain ⟨hd', hv⟩ := ih
    rcases hs.leaves hd' (by simp) with hl | ⟨n, f, he, -⟩
    · obtain ⟨hd'', hv'⟩ := hl hd'
      exact ⟨hd'', hv'.trans hv⟩
    · cases he

/-- While all calls are discreet but one that is here, a step leaves it and what is seen as they are, or the call has its turn. -/
theorem Proceeds.cases (h : Proceeds view s s') (hu : Underway handlers catalogue s) (hd : s.Discreet view (some n))
    (hf : s.fibers.find? n = some f) (hp : f.place = .here) :
    (s'.Discreet view (some n) ∧ view s'.site.own = view s.site.own ∧ ∃ f', s'.fibers.find? n = some f' ∧ f'.bare = f.bare) ∨
      .fiber n ∈ s.ready ∧ s' = (s.taken (.fiber n)).driveFiber n f := by
  rcases hu.next_of_call h.next hf with ⟨f', hf', hst⟩ | hturn
  · have hrunning (m : Nat) (hm : m ∈ s.running) : some n ≠ some m := by
      rintro he
      obtain rfl := Option.some.inj he
      simp [(hu.orderly.crew n hm).2 f hf] at hp
    rcases h.leaves hd hrunning with hl | ⟨m, g, he, hr, hg, rfl⟩
    · obtain ⟨hd', hv⟩ := hl hd
      exact .inl ⟨hd', hv, f', hf', hst.elsewhere (by simp [hp])⟩
    · obtain rfl := Option.some.inj he
      obtain rfl := Option.some.inj (hf.symm.trans hg)
      exact .inr ⟨hr, rfl⟩
  · exact .inr hturn

/-- The turn of the exception leaves the other calls as they are. -/
theorem Discreet.driveFiber (hd : s.Discreet view (some n)) (hh : s.handlers.Lawful) (hf : f.Lawful) (hj : f.job = none) :
    (s.driveFiber n f).Discreet view (some n) := by
  have alone {o : Outcome} {s₁ s' : Session α} (he : Ended s₁ o f.job s') : s' = s₁ := by
    rw [hj] at he
    cases he
    rfl
  have hdrive := (drive_onward (s := s) hh turnBound n hf).onward
  have hs := driven_driveFiber s n f
  generalize s.driveFiber n f = s' at hs ⊢
  cases hs with
  | cancelled _ _ he =>
    rw [alone he]
    unfold dismiss
    split
    · exact ((leaves_giveBack s f).trans (.store _ n fun _ hn => absurd rfl hn) hd).1
    · exact ((leaves_giveBack s f).trans (.without _ n) hd).1
  | @waits s₁ f' _ he =>
    rw [he] at hdrive
    have hs₁ : s₁.Discreet view (some n) := ⟨(hd.onward hdrive).handlers, (hd.onward hdrive).calls⟩
    obtain ⟨hq, -⟩ := Leaves.store s₁ n (f := f') (fun _ hn => absurd rfl hn) hs₁
    exact ⟨hq.handlers, hq.calls⟩
  | @ends s₁ _ o _ he hend =>
    rw [he] at hdrive
    have hs₁ : s₁.Discreet view (some n) := ⟨(hd.onward hdrive).handlers, (hd.onward hdrive).calls⟩
    rw [alone hend]
    exact (Leaves.without s₁ n hs₁).1

end Session

end Parley
