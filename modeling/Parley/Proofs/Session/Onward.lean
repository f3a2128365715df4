import Parley.Proofs.Handler.Lawful
import Parley.Proofs.Session.Node

/-!
# How a session goes on by itself

Most of what a session does leaves the peer's requests alone: fibers wait and get turns, workers and permits are handed on,
routines act on the site. `Session.Onward` says of two states of a session that there is no more to it: the same calls are in
progress, no turn is lost, and the connection is one that our side may leave. It holds of each of these operations, and of the
turn of a routine that is lawful, up to where it waits or ends.
-/

namespace Parley

variable {α : Type}

/-- The fiber as it is before what it waits for is given to it. -/
def Fiber.bare (f : Fiber α) : Fiber α := { f with granted := false }

namespace Fiber

variable {f f' : Fiber α}

theorem job_of_bare (h : f'.bare = f.bare) : f'.job = f.job := by
  have hj := congrArg job h
  exact hj

theorem place_of_bare (h : f'.bare = f.bare) : f'.place = f.place := by
  have hp := congrArg place h
  exact hp

theorem routine_of_bare (h : f'.bare = f.bare) : f'.routine = f.routine := by
  have hr := congrArg routine h
  exact hr

theorem callers_of_bare (h : f'.bare = f.bare) : f'.callers = f.callers := by
  have hc := congrArg callers h
  exact hc

end Fiber

/-- A routine comes to another when it goes on, whatever it finds at the site and whatever it gets. -/
inductive Routine.Leads : Routine α → Routine α → Prop
  | refl (r : Routine α) : Leads r r
  | act {update : Site α → Site α} {next : Site α → Routine α} {s : Site α} {r : Routine α} (h : Leads (next s) r) :
    Leads (.act update next) r
  | reply {handle : Nat} {next : PeerReply → Routine α} {v : PeerReply} {r : Routine α} (h : Leads (next v) r) :
    Leads (.reply handle next) r
  | wait {w : Wait} {next r : Routine α} (h : Leads next r) : Leads (.wait w next) r
  | invoke {name : String} {params : Json} {next : Option Outcome → Routine α} {o : Option Outcome} {r : Routine α}
    (h : Leads (next o) r) : Leads (.invoke name params next) r

/-- What leads to a routine leads to what that leads to. -/
theorem Routine.Leads.trans {r r' r'' : Routine α} (h : r.Leads r') (h' : r'.Leads r'') : r.Leads r'' := by
  induction h with
  | refl => exact h'
  | act _ ih => exact .act (ih h')
  | reply _ ih => exact .reply (ih h')
  | wait _ ih => exact .wait (ih h')
  | invoke _ ih => exact .invoke (ih h')

/-- The routine of a fiber is lawful, whoever called it. -/
structure Fiber.Lawful (f : Fiber α) : Prop where
  routine : f.routine.Lawful
  callers : ∀ next ∈ f.callers, ∀ o, (next o).Lawful

namespace Session

/-- The calls in progress, by the numbers of their fibers. -/
def calls (s : Session α) : List (Nat × Fiber α) := s.fibers.entries.map fun e => (e.1, e.2.bare)

/-- From one state to a later one the calls are the same, and the connection is left as our side may leave it. -/
structure Onward (s s' : Session α) : Prop where
  connection : s.site.connection.ActsTo s'.site.connection
  calls : s'.calls.Perm s.calls
  handlers : s'.handlers = s.handlers
  nextFiber : s'.nextFiber = s.nextFiber
  /-- Who has a turn keeps it, and its place. -/
  ready : s.ready <+: s'.ready
  /-- Who waits goes on waiting or has a turn. -/
  parked : ∀ n ∈ s.parked, n ∈ s'.parked ∨ .fiber n ∈ s'.ready
  running : s'.running = s.running

namespace Onward

variable {s s' s'' : Session α}

theorem refl (s : Session α) : Onward s s := ⟨.refl _, .refl _, rfl, rfl, List.prefix_refl _, fun _ hn => .inl hn, rfl⟩

theorem trans (h : Onward s s') (h' : Onward s' s'') : Onward s s'' := by
  refine ⟨h.connection.trans h'.connection, h'.calls.trans h.calls, h'.handlers.trans h.handlers,
    h'.nextFiber.trans h.nextFiber, h.ready.trans h'.ready, fun n hn => ?_, h'.running.trans h.running⟩
  rcases h.parked n hn with hp | hr
  · exact h'.parked n hp
  · exact .inr (h'.ready.subset hr)

/-- Where only the connection and what is neither a call nor a turn may differ, the connection decides. -/
theorem of_actsTo (h : s.site.connection.ActsTo s'.site.connection) (hf : s'.fibers = s.fibers) (hh : s'.handlers = s.handlers)
    (hn : s'.nextFiber = s.nextFiber) (hr : s'.ready = s.ready) (hp : s'.parked = s.parked) (hw : s'.running = s.running) :
    Onward s s' := by
  refine ⟨h, ?_, hh, hn, ?_, ?_, hw⟩
  · rw [Session.calls, hf]
    exact .refl _
  · exact hr.symm ▸ List.prefix_refl _
  · exact hp.symm ▸ fun _ hn => .inl hn

/-- What is neither the connection nor a call nor a turn may differ. -/
theorem of_eq (hs : s'.site.connection = s.site.connection) (hf : s'.fibers = s.fibers) (hh : s'.handlers = s.handlers)
    (hn : s'.nextFiber = s.nextFiber) (hr : s'.ready = s.ready) (hp : s'.parked = s.parked) (hw : s'.running = s.running) :
    Onward s s' :=
  of_actsTo (hs ▸ .refl _) hf hh hn hr hp hw

end Onward

/-- Who has nothing to wait for gets a turn. -/
theorem onward_enqueue (s : Session α) (a : Actor) : Onward s (s.enqueue a) := by
  unfold enqueue
  split
  · exact .refl s
  · exact ⟨.refl _, .refl _, rfl, rfl, List.prefix_append _ _, fun _ hn => .inl hn, rfl⟩

/-- An actor that is given a turn has one. -/
theorem mem_ready_enqueue (s : Session α) (a : Actor) : a ∈ (s.enqueue a).ready := by
  unfold enqueue
  split
  · rename_i h
    exact List.contains_iff_mem.mp h
  · exact List.mem_append_right _ List.mem_cons_self

/-- Who waits may be woken. -/
theorem onward_wake (s : Session α) (n : Nat) : Onward s (s.wake n) := by
  have he := onward_enqueue { s with parked := s.parked.filter (· ≠ n) } (.fiber n)
  refine ⟨he.connection, he.calls, he.handlers, he.nextFiber, he.ready, fun m hm => ?_, he.running⟩
  by_cases hmn : m = n
  · subst hmn
    exact .inr (mem_ready_enqueue _ _)
  · exact he.parked m (by simpa [hmn] using hm)

/-- A fiber in another state is the same call, if only what was given to it differs. -/
theorem onward_store {s : Session α} {n : Nat} {f f' : Fiber α} (hf : s.fibers.find? n = some f) (hb : f'.bare = f.bare) :
    Onward s (s.store n f') := by
  refine ⟨.refl _, ?_, rfl, rfl, List.prefix_refl _, fun _ hn => .inl hn, rfl⟩
  have he := (Table.entries_perm_erase hf).map fun e => (e.1, e.2.bare)
  simp only [calls, store, Table.insert, List.map_append, List.map_cons, List.map_nil, hb] at he ⊢
  exact List.perm_append_comm.trans he.symm

/-- Who waits may be given something. -/
theorem onward_grant {s : Session α} {n : Nat} {f : Fiber α} (hf : s.fibers.find? n = some f) : Onward s (s.grant n f) := by
  have hs : Onward s (s.store n { f with granted := true }) := onward_store hf rfl
  exact hs.trans (onward_wake _ n)

/-- To hand something on is nothing that a call has a part in. -/
theorem handsOn_onward : HandsOn (Onward (α := α)) :=
  ⟨.refl, .trans, onward_enqueue, onward_wake, onward_grant, fun _ _ _ => .of_eq rfl rfl rfl rfl rfl rfl rfl⟩

theorem onward_freeWorker (s : Session α) : Onward s s.freeWorker := handsOn_onward.freeWorker s

theorem onward_addPermit (s : Session α) (gate : String) : Onward s (s.addPermit gate) := handsOn_onward.addPermit s gate

theorem onward_giveBack (s : Session α) (f : Fiber α) : Onward s (s.giveBack f) := handsOn_onward.giveBack s f

theorem onward_pass? {s s' : Session α} {f : Fiber α} {w : Wait} (h : s.pass? f w = some s') : Onward s s' :=
  handsOn_onward.pass? h

theorem onward_rouse (s : Session α) : Onward s s.rouse := handsOn_onward.rouse s

/-- Our side acts on the site, and whoever waits is looked at. -/
theorem onward_site {s : Session α} {site : Site α} (h : s.site.connection.ActsTo site.connection) :
    Onward s { s with site }.rouse := by
  have hs : Onward s { s with site } := .of_actsTo h rfl rfl rfl rfl rfl rfl
  exact hs.trans (onward_rouse _)

/-! ## What leaves the site as it is -/

theorem site_enqueue (s : Session α) (a : Actor) : (s.enqueue a).site = s.site := by
  unfold enqueue
  split <;> rfl

theorem site_wake (s : Session α) (n : Nat) : (s.wake n).site = s.site := site_enqueue _ _

theorem site_grant (s : Session α) (n : Nat) (f : Fiber α) : (s.grant n f).site = s.site := site_wake _ n

/-- To hand something on leaves the site as it is. -/
theorem handsOn_site : HandsOn fun s s' : Session α => s'.site = s.site :=
  ⟨fun _ => rfl, fun h h' => h'.trans h, site_enqueue, site_wake, fun _ => site_grant _ _ _, fun _ _ _ => rfl⟩

/-- To look at those that wait leaves the site as it is. -/
theorem site_rouse (s : Session α) : s.rouse.site = s.site := handsOn_site.rouse s

theorem site_freeWorker (s : Session α) : s.freeWorker.site = s.site := handsOn_site.freeWorker s

/-- To give back what was given leaves the site as it is. -/
theorem site_giveBack (s : Session α) (f : Fiber α) : (s.giveBack f).site = s.site := handsOn_site.giveBack s f

end Session

/-! ## The turn of a routine -/

/-- A fiber later in the same call. A call that begins here goes to a worker only for a handler that it calls. -/
structure Fiber.Continues (f f' : Fiber α) : Prop where
  job : f'.job = f.job
  call : f'.call = f.call
  guarded : f'.guarded = f.guarded
  nested : (f.place ≠ .here → f.callers ≠ []) → f'.place ≠ .here → f'.callers ≠ []

namespace Fiber.Continues

variable {f f' f'' : Fiber α}

theorem refl (f : Fiber α) : f.Continues f := ⟨rfl, rfl, rfl, id⟩

theorem trans (h : f.Continues f') (h' : f'.Continues f'') : f.Continues f'' :=
  ⟨h'.job.trans h.job, h'.call.trans h.call, h'.guarded.trans h.guarded, h'.nested ∘ h.nested⟩

/-- What runs here waits for no worker. -/
theorem of_here (hj : f'.job = f.job) (hc : f'.call = f.call) (hg : f'.guarded = f.guarded) (hp : f'.place = .here) :
    f.Continues f' :=
  ⟨hj, hc, hg, fun _ h => absurd hp h⟩

/-- What has callers runs for them, wherever it runs. -/
theorem of_callers (hj : f'.job = f.job) (hc : f'.call = f.call) (hg : f'.guarded = f.guarded) (hn : f'.callers ≠ []) :
    f.Continues f' :=
  ⟨hj, hc, hg, fun _ _ => hn⟩

end Fiber.Continues

/-- A fiber on a worker later: its routine has gone on, and nothing else of the call has changed. -/
structure Fiber.Advances (f f' : Fiber α) : Prop where
  job : f'.job = f.job
  call : f'.call = f.call
  guarded : f'.guarded = f.guarded
  place : f'.place = f.place
  callers : f'.callers = f.callers
  routine : f.routine.Leads f'.routine

namespace Fiber.Advances

variable {f f' f'' : Fiber α}

protected theorem refl (f : Fiber α) : f.Advances f := ⟨rfl, rfl, rfl, rfl, rfl, .refl _⟩

protected theorem trans (h : f.Advances f') (h' : f'.Advances f'') : f.Advances f'' :=
  ⟨h'.job.trans h.job, h'.call.trans h.call, h'.guarded.trans h.guarded, h'.place.trans h.place, h'.callers.trans h.callers,
    h.routine.trans h'.routine⟩

end Fiber.Advances

namespace Session

/-- The turn ends, or the same call waits in a lawful state. -/
def Pause.Keeps (f : Fiber α) : Pause α → Prop
  | .waits f' => f'.Lawful ∧ f.Continues f'
  | .ends _ => True

/-- What a later call comes to, the call does. -/
theorem Pause.Keeps.of_continues {f f' : Fiber α} {p : Pause α} (h : p.Keeps f') (hc : f.Continues f') : p.Keeps f := by
  cases p with
  | waits g => exact ⟨h.1, hc.trans h.2⟩
  | ends o => trivial

/-- The same call goes on in a lawful state, or the turn is over. -/
def Progress.Keeps (f : Fiber α) : Progress α → Prop
  | .goesOn f' => f'.Lawful ∧ f.Continues f'
  | .pauses p => p.Keeps f

/-- To begin to wait changes nothing of the call. -/
theorem timed_eq (s : Session α) (f : Fiber α) : s.timed f = { f with deadline := (s.timed f).deadline } := by
  unfold timed
  split <;> rfl

/-- To begin to wait changes nothing of the routine. -/
theorem lawful_timed {s : Session α} {f : Fiber α} (hf : f.Lawful) : (s.timed f).Lawful := by
  rw [timed_eq]
  exact ⟨hf.routine, hf.callers⟩

/-- Nor of the call. -/
theorem continues_timed (s : Session α) (f : Fiber α) : f.Continues (s.timed f) := by
  rw [timed_eq]
  exact ⟨rfl, rfl, rfl, id⟩

/-- What a node of a lawful routine, or a whole turn, does to the session: it goes on by itself, and a fiber that goes to a worker is
counted among those on one. -/
structure Keeps (s : Session α) (n : Nat) (f : Fiber α) (s' : Session α) (p : Progress α) : Prop where
  onward : Onward s { s' with running := s.running }
  progress : p.Keeps f
  running : s'.running = s.running ∨ ∃ f', p = .pauses (.waits f') ∧ f'.place = .worker ∧ s'.running = s.running ++ [n]

/-- Behind a node a lawful call goes on as one. -/
theorem Keeps.goesOn {s s' : Session α} {n : Nat} {f f' : Fiber α} (h : Keeps s n f s' (.goesOn f')) :
    Onward s s' ∧ f'.Lawful ∧ f.Continues f' := by
  have ho := h.onward
  have hw : s'.running = s.running := h.running.resolve_right fun ⟨_, he, _⟩ => by cases he
  rw [← hw] at ho
  exact ⟨ho, h.progress⟩

/-- A node of a lawful routine does no more than our side may. -/
theorem Node.keeps {s s' : Session α} {n : Nat} {f : Fiber α} {p : Progress α} (h : Node s n f s' p) (hh : s.handlers.Lawful)
    (hf : f.Lawful) : Keeps s n f s' p := by
  have hr := hf.routine
  -- On its way to a worker the call keeps whoever called it.
  have queued {f' : Fiber α} (hp : f.place = .queued) (he : f' = { f with place := f'.place, granted := f'.granted }) :
      f.Continues f' := by
    rw [he]
    exact ⟨rfl, rfl, rfl, fun hn _ => hn (by rw [hp]; simp)⟩
  have stays {p : Progress α} (hk : p.Keeps f) : Keeps s n f s p := ⟨.refl s, hk, .inl rfl⟩
  cases h with
  | onWorker hp => exact stays ⟨hf, .refl f⟩
  | @refused next callers hp ht hc =>
    have hl := hf.callers
    rw [hc] at hl
    have ho := onward_giveBack s f
    exact ⟨⟨ho.connection, ho.calls, ho.handlers, ho.nextFiber, ho.ready, ho.parked, rfl⟩,
      ⟨⟨hl next List.mem_cons_self _, fun g hg => hl g (List.mem_cons_of_mem _ hg)⟩, .of_here rfl rfl rfl rfl⟩,
      .inl ho.running⟩
  | dismissed hp ht hc =>
    have ho := onward_giveBack s f
    exact ⟨⟨ho.connection, ho.calls, ho.handlers, ho.nextFiber, ho.ready, ho.parked, rfl⟩, trivial, .inl ho.running⟩
  | seated hp ht hg =>
    exact ⟨.of_eq rfl rfl rfl rfl rfl rfl rfl, ⟨⟨hr, hf.callers⟩, queued hp rfl⟩, .inr ⟨_, rfl, rfl, rfl⟩⟩
  | hired hp ht hg hi =>
    exact ⟨.of_eq rfl rfl rfl rfl rfl rfl rfl, ⟨⟨hr, hf.callers⟩, queued hp rfl⟩, .inr ⟨_, rfl, rfl, rfl⟩⟩
  | queues hp ht hg hi => exact stays ⟨hf, .refl f⟩
  | @returns o next callers hp hr' hc =>
    have hl := hf.callers
    rw [hc] at hl
    exact stays ⟨⟨hl next List.mem_cons_self _, fun g hg => hl g (List.mem_cons_of_mem _ hg)⟩, .of_here rfl rfl rfl hp⟩
  | ends hp hr' hc => exact stays trivial
  | acts hp hr' =>
    rw [hr'] at hr
    have ho := onward_site (hr.1 s.site)
    exact ⟨⟨ho.connection, ho.calls, ho.handlers, ho.nextFiber, ho.ready, ho.parked, rfl⟩,
      ⟨⟨hr.2 s.site, hf.callers⟩, .of_here rfl rfl rfl hp⟩, .inl ho.running⟩
  | answered hp hr' ha =>
    rw [hr'] at hr
    exact stays ⟨⟨hr _, hf.callers⟩, .of_here rfl rfl rfl hp⟩
  | unanswered hp hr' ha => exact stays ⟨hf, .refl f⟩
  | passes hp hr' hw =>
    rw [hr'] at hr
    have ho := onward_pass? hw
    exact ⟨⟨ho.connection, ho.calls, ho.handlers, ho.nextFiber, ho.ready, ho.parked, rfl⟩,
      ⟨⟨hr, hf.callers⟩, .of_here rfl rfl rfl hp⟩, .inl ho.running⟩
  | waits hp hr' hw => exact stays ⟨lawful_timed hf, continues_timed s f⟩
  | misses hp hr' hn =>
    rw [hr'] at hr
    exact stays ⟨⟨hr none, hf.callers⟩, .of_here rfl rfl rfl hp⟩
  | offloads hp hr' hb =>
    rw [hr'] at hr
    exact stays ⟨⟨hh .user _ _ hb _, List.forall_mem_cons.mpr ⟨hr, hf.callers⟩⟩,
      .of_callers rfl rfl rfl (List.cons_ne_nil _ _)⟩
  | invokes hp hr' hb hm =>
    rw [hr'] at hr
    exact stays ⟨⟨(hh .user _ _ hb).routine _, List.forall_mem_cons.mpr ⟨hr, hf.callers⟩⟩, .of_here rfl rfl rfl hp⟩

/-- What the turn of a fiber comes to: the session has gone on by itself, the turn has ended or the call waits, and the fiber
has gone to a worker at most. -/
abbrev Drives (s : Session α) (n : Nat) (f : Fiber α) (r : Session α × Pause α) : Prop := Keeps s n f r.1 (.pauses r.2)

/-- A lawful routine that has its turn does no more than our side may. -/
theorem drive_onward {s : Session α} (hh : s.handlers.Lawful) (fuel n : Nat) {f : Fiber α} (hf : f.Lawful) :
    Drives s n f (s.drive fuel n f) := by
  induction fuel generalizing s f with
  | zero => exact ⟨.refl s, ⟨hf, .refl f⟩, .inl rfl⟩
  | succ fuel ih =>
    have hnode := (node_cases s n f).keeps hh hf
    rw [drive_succ]
    generalize (s.node n f).1 = s', (s.node n f).2 = p at hnode
    cases p with
    | pauses p => exact hnode
    | goesOn f' =>
      obtain ⟨ho, hf', hc⟩ := hnode.goesOn
      obtain ⟨hr, hk, hw⟩ := ih (ho.handlers ▸ hh) hf'
      rw [ho.running] at hr hw
      exact ⟨ho.trans hr, hk.of_continues hc, hw⟩

/-- A lawful routine on a worker does no more than our side may. -/
theorem Labors.onward {s s' : Session α} {f f' : Fiber α} (h : Labors s f s' f') (hf : f.Lawful) :
    Onward s s' ∧ f'.Lawful ∧ f.Advances f' := by
  induction h with
  | rests s f => exact ⟨.refl s, hf, .refl f⟩
  | @waits s f w next hr =>
    have ht : f.Advances (s.timed f) := by
      rw [timed_eq]
      exact ⟨rfl, rfl, rfl, rfl, rfl, .refl _⟩
    exact ⟨.refl s, lawful_timed hf, ht⟩
  | @acts s s' f f' update next hr h ih =>
    have hl := hf.routine
    rw [hr] at hl
    obtain ⟨ho, hf', ha⟩ := ih ⟨hl.2 s.site, hf.callers⟩
    have hstep : f.Advances { f with routine := next s.site } := ⟨rfl, rfl, rfl, rfl, rfl, hr ▸ .act (.refl _)⟩
    exact ⟨(onward_site (hl.1 s.site)).trans ho, hf', hstep.trans ha⟩
  | @answered s s' f f' handle next r hr h ih =>
    have hl := hf.routine
    rw [hr] at hl
    obtain ⟨ho, hf', ha⟩ := ih ⟨hl r, hf.callers⟩
    have hstep : f.Advances { f with routine := next r } := ⟨rfl, rfl, rfl, rfl, rfl, hr ▸ .reply (.refl _)⟩
    exact ⟨ho, hf', hstep.trans ha⟩
  | @passes s s₁ s' f f' w next hr hw h ih =>
    have hl := hf.routine
    rw [hr] at hl
    obtain ⟨ho, hf', ha⟩ := ih ⟨hl, hf.callers⟩
    have hstep : f.Advances { f with routine := next, granted := false, deadline := none } :=
      ⟨rfl, rfl, rfl, rfl, rfl, hr ▸ .wait (.refl _)⟩
    exact ⟨(onward_pass? hw).trans ho, hf', hstep.trans ha⟩
  | @misses s s' f f' name params next hr h ih =>
    have hl := hf.routine
    rw [hr] at hl
    obtain ⟨ho, hf', ha⟩ := ih ⟨hl none, hf.callers⟩
    have hstep : f.Advances { f with routine := next none } := ⟨rfl, rfl, rfl, rfl, rfl, hr ▸ .invoke (.refl _)⟩
    exact ⟨ho, hf', hstep.trans ha⟩

end Session

end Parley
