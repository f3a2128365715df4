import Parley.Proofs.Conversation.Alike
import Parley.Proofs.Session.Reachable
import Parley.Proofs.Session.Turns

/-!
# How the request of a fiber ends

A fiber stays with its request until the turn at which its routine ends. A fiber that has nothing left to wait for ends its request
at its next turn, and `Session.Verdict` says with which outcome. A request for a direct handler is answered before it can have a
fiber.
-/

namespace Parley

variable {α : Type}

/-- A fiber later on, with the same job and for the same callers. Only on a worker its body has gone on. -/
structure Fiber.Stays (f f' : Fiber α) : Prop where
  job : f'.job = f.job
  callers : f'.callers = f.callers
  routine : f.routine.Leads f'.routine
  started : f.place = .worker → f'.place ≠ .queued
  elsewhere : f.place ≠ .worker → f'.bare = f.bare

namespace Fiber.Stays

variable {f f' f'' : Fiber α}

/-- What is given to a call does not matter. -/
theorem of_bare (h : f'.bare = f.bare) : f.Stays f' := by
  have hr := routine_of_bare h
  exact ⟨job_of_bare h, callers_of_bare h, hr ▸ .refl _, fun hw => by simp [place_of_bare h, hw], fun _ => h⟩

theorem refl (f : Fiber α) : f.Stays f := of_bare rfl

theorem trans (h : f.Stays f') (h' : f'.Stays f'') : f.Stays f'' := by
  refine ⟨h'.job.trans h.job, h'.callers.trans h.callers, h.routine.trans h'.routine, fun hw => ?_, fun hw => ?_⟩
  · by_cases hp : f'.place = .worker
    · exact h'.started hp
    · rw [place_of_bare (h'.elsewhere hp)]
      exact h.started hw
  · have hb := h.elsewhere hw
    exact (h'.elsewhere (by rwa [place_of_bare hb])).trans hb

end Fiber.Stays

namespace Session

variable {handlers : Registry (Handler α)} {catalogue : Catalogue} {s s' s'' : Session α} {n : Nat} {f f' : Fiber α} {j : Job}
  {id : MessageId} {o : Outcome}

/-- A session with handlers keeps to its conversation and keeps order. -/
structure Underway (handlers : Registry (Handler α)) (catalogue : Catalogue) (s : Session α) : Prop where
  follows : Follows (Conversation.start (handlers.map Handler.mode) catalogue) [] s
  orderly : Orderly s
  handlers : s.handlers = handlers

namespace Underway

/-- A step keeps to the conversation, and keeps order. -/
theorem next (h : Underway handlers catalogue s) (hs : Next s s') : Underway handlers catalogue s' :=
  ⟨h.follows.next hs, h.orderly.next h.follows hs, (hs.handlers h.follows).trans h.handlers⟩

/-- So do any number of steps. -/
theorem later (h : Underway handlers catalogue s) (hs : Later s s') : Underway handlers catalogue s' := by
  induction hs with
  | refl => exact h
  | tail _ hs ih => exact ih.next hs

/-- The session follows the conversation that begins where it is. -/
theorem here (h : Underway handlers catalogue s) : Follows ⟨s.site.connection, s.jobs⟩ [] s :=
  ⟨[], rfl, .refl _, h.follows.handlers, fun _ _ => h.follows.fiber⟩

/-- A connection that is not released was not released before. -/
theorem open_of_later (h : Underway handlers catalogue s) (hs : Later s s')
    (ho : s'.site.connection.outgoing.closed = false) : s.site.connection.outgoing.closed = false := by
  obtain ⟨ms, hc, -⟩ := h.here.later hs
  cases hcl : s.site.connection.outgoing.closed with
  | false => rfl
  | true =>
    rw [hc, Conversation.closed_run hcl ms] at ho
    cases ho

/-- A token that has fired stays fired. -/
theorem isFired_of_later (h : Underway handlers catalogue s) (hs : Later s s') {t : Token} (ht : s.isFired t = true) :
    s'.isFired t = true := by
  obtain ⟨ms, hc, -⟩ := h.here.later hs
  rw [isFired, hc]
  exact Conversation.isFired_run (v := ⟨s.site.connection, s.jobs⟩) ht ms

/-- The connection knows of each handler the mode it runs in. -/
theorem routes (h : Underway handlers catalogue s) : s.site.connection.routes = handlers.map Handler.mode := by
  obtain ⟨ms, hc, -⟩ := h.follows
  rw [hc]
  exact Conversation.routes_run _ ms

/-- The connection knows the shapes of its catalogue. -/
theorem catalogued (h : Underway handlers catalogue s) : s.site.connection.catalogue = catalogue := by
  obtain ⟨ms, hc, -⟩ := h.follows
  rw [hc]
  exact Conversation.catalogue_run _ ms

/-- The handler of a route runs in the mode of the route. -/
theorem find?_of_route (h : Underway handlers catalogue s) {origin : Origin} {name : String} {mode : Mode}
    (hr : s.site.connection.routes.find? origin name = some mode) :
    ∃ b, handlers.find? origin name = some b ∧ b.mode = mode := by
  rw [h.routes, Registry.find?_map] at hr
  exact Option.map_eq_some_iff.mp hr

/-- The handler of a direct route is an action. -/
theorem direct_of_route (h : Underway handlers catalogue s) {origin : Origin} {name : String}
    (hr : s.site.connection.routes.find? origin name = some .direct) :
    ∃ act, handlers.find? origin name = some (.direct act) := by
  obtain ⟨b, hb, hmode⟩ := h.find?_of_route hr
  cases b with
  | direct act => exact ⟨act, hb⟩
  | coroutine body => cases hmode
  | threaded body => cases hmode

end Underway

/-- So every session that can be reached does. -/
theorem Reachable.underway (h : Reachable handlers catalogue s) (hh : handlers.Lawful) : Underway handlers catalogue s := by
  obtain ⟨workers, own, hl⟩ := h.later
  have hm : Underway handlers catalogue (Session.make handlers catalogue workers own) := by
    refine ⟨⟨[], rfl, .refl _, hh, fun n f hf => ?_⟩, orderly_make handlers catalogue workers own, rfl⟩
    cases hf
  exact hm.later hl

/-- The job of a fiber is a job of the session. -/
theorem mem_jobs (hf : s.fibers.find? n = some f) (hj : f.job = some j) : j ∈ s.jobs :=
  List.mem_filterMap.mpr ⟨f, Table.mem_values_iff.mpr ⟨n, hf⟩, hj⟩

/-! ## Answers -/

/-- The outcome with which the request of a fiber ends at the fiber's next turn. -/
def Verdict (s : Session α) (j : Job) (f : Fiber α) (o : Outcome) : Prop :=
  s.isFired j.token = true ∧ (j.isGuarded = true ∨ j.mode = .threaded ∧ f.place = .queued) ∧ o = .error .cancelled ∨
    j.mode = .threaded ∧ f.place = .here ∧ f.routine = .done o

/-- The outcome of the job of a request ends the request. -/
theorem connection_settle (hd : j.duty = .request id) (s : Session α) (o : Outcome) :
    (s.settle j o).site.connection = s.site.connection.finish id o := by
  simp [settle, handBack, Connection.complete, hd, site_rouse, withConnection]

/-- The turn of a fiber that has nothing to wait for hands the outcome that is due to the connection. -/
theorem connection_driveFiber (hs : f.Serves handlers j) (hj : f.job = some j) (hd : j.duty = .request id)
    (hv : s.Verdict j f o) : (s.driveFiber n f).site.connection = s.site.connection.finish id o := by
  have ht := hs.token
  -- A fiber that runs its body on a worker is not guarded.
  have hthreaded (hm : j.mode = .threaded) : f.guarded = false := by
    rw [hs.guarded, Job.isGuarded, hd, hm]
    rfl
  unfold driveFiber
  rcases hv with ⟨hf, hg | ⟨hm, hp⟩, rfl⟩ | ⟨hm, hp, hr⟩
  · rw [if_pos (by rw [hs.guarded, hg, ht, hf]; rfl), hj]
    simp only [connection_settle hd]
    split
    · exact congrArg (Connection.finish · id _) (congrArg Site.connection (site_giveBack s f))
    · exact congrArg (Connection.finish · id _) (congrArg Site.connection (site_giveBack s f))
  · have hdrive : s.drive turnBound n f = (s.giveBack f, .ends (.error .cancelled)) :=
      drive_refused hp (ht ▸ hf) (hs.threaded hm).callers 999999 n
    rw [if_neg (by simp [hthreaded hm]), hdrive, hj]
    simp only [connection_settle hd]
    exact congrArg (Connection.finish · id _) (congrArg Site.connection (site_giveBack s f))
  · have hdrive : s.drive turnBound n f = (s, .ends o) := drive_done hp hr (hs.threaded hm).callers s 999999 n
    rw [if_neg (by simp [hthreaded hm]), hdrive, hj]
    simp only [connection_settle hd]

/-! ## A call between two states -/

/-- In one step a call stays as it is, or goes on on its worker, or has its turn. -/
theorem Underway.next_of_call (h : Underway handlers catalogue s) (hs : Next s s') (hf : s.fibers.find? n = some f) :
    (∃ f', s'.fibers.find? n = some f' ∧ f.Stays f') ∨
      .fiber n ∈ s.ready ∧ s' = (s.taken (.fiber n)).driveFiber n f := by
  have hn := (h.follows.fiber hf).2
  have hl := (h.follows.fiber hf).1
  cases hs with
  | aside hs =>
    refine .inl ?_
    rcases hs.spares h.follows hn with hsp | ⟨hr, hw⟩
    · obtain ⟨f', hf', hb⟩ := hsp.call hn f hf
      exact ⟨f', hf', .of_bare hb⟩
    · have hp := (h.orderly.crew n hr).2 f hf
      obtain ⟨f', hf', hj, hc, hq, hr⟩ := hw.call hl hp hf
      exact ⟨f', hf', hj, hc, hr, fun _ => hq, fun hne => absurd hp hne⟩
  | pass ha => exact .inl ⟨f, hf, .refl f⟩
  | turn hm hfind =>
    rename_i m g
    by_cases he : m = n
    · subst he
      obtain rfl := Option.some.inj (hf.symm.trans hfind)
      exact .inr ⟨hm, rfl⟩
    · have hsp : Spares n (s.taken (.fiber m)) ((s.taken (.fiber m)).driveFiber m g) :=
        (driven_driveFiber _ m g).spares he h.follows.handlers (h.follows.fiber hfind).1
      obtain ⟨f', hf', hb⟩ := hsp.call hn f hf
      exact .inl ⟨f', hf', .of_bare hb⟩

/-! ## Requests and their handlers -/

/-- The job of a request that is being served is for a handler of its mode. -/
theorem Underway.handler (h : Underway handlers catalogue s) (hj : j ∈ s.jobs) (hd : j.duty.id? = some id) :
    ∃ b, handlers.find? j.origin j.name = some b ∧ b.mode = j.mode := by
  obtain ⟨ms, -, hjs, -⟩ := h.follows
  have hm := (Conversation.made_of_mem_jobs (hjs.mem_iff.mpr hj) hd).1
  rw [Registry.find?_map] at hm
  exact Option.map_eq_some_iff.mp hm

/-- A request that is being served has a fiber at work on it, whose job has the token of the request. -/
theorem Underway.exists_fiber (h : Underway handlers catalogue s) (ho : s.site.connection.outgoing.closed = false) {k : Nat}
    (hk : s.site.connection.incoming.entries.find? id = some k) :
    ∃ n f j, s.fibers.find? n = some f ∧ f.job = some j ∧ j.duty.id? = some id ∧ j.token = .request k := by
  have hc := Incoming.contains_eq_true_iff.mpr ⟨k, hk⟩
  obtain ⟨j, hj, hd⟩ := ((h.follows.serves ho).1 id).mp hc
  obtain ⟨f, hv, hfj⟩ := List.mem_filterMap.mp hj
  obtain ⟨n, hf⟩ := Table.mem_values_iff.mp hv
  refine ⟨n, f, j, hf, hfj, hd, ?_⟩
  obtain ⟨ms, hcs, hjs, -⟩ := h.follows
  have hm : .teardown ∉ ms := fun hm => by
    rw [hcs, Conversation.closed_of_teardown hm] at ho
    cases ho
  obtain ⟨k', ht, hf'⟩ := ((Conversation.Tied.start _ catalogue).run hm).find? (hjs.mem_iff.mpr hj) hd
  rw [← hcs, hk] at hf'
  rw [ht, Option.some.inj hf']

/-- A request for a direct handler is answered at once, with the outcome of the handler. -/
theorem Underway.receive_direct (h : Underway handlers catalogue s) {payload : Bytes} {connection : Connection}
    (hr : s.site.connection.receive payload = (connection, some j)) (hd : j.duty = .request id) (hm : j.mode = .direct) :
    ∃ act, handlers.find? j.origin j.name = some (.direct act) ∧
      (s.receive payload).1.site.connection =
        (act j.call { s.site with connection }).2.connection.finish id (act j.call { s.site with connection }).1 ∧
      ((s.receive payload).1.site.connection.outgoing.closed = false →
        (s.receive payload).1.site.connection.queue =
          (act j.call { s.site with connection }).2.connection.queue ++
            (act j.call { s.site with connection }).2.connection.kept
              [.frame (Reply.ofOutcome id (act j.call { s.site with connection }).1)] ∧
        (s.receive payload).1.site.connection.incoming.contains id = false) := by
  have hid : j.duty.id? = some id := by
    rw [hd]
    rfl
  have hrec := Connection.receive_received s.site.connection payload
  rw [hr] at hrec
  obtain ⟨act, hact⟩ := h.direct_of_route (hm ▸ (hrec.made_of_ticket rfl hid).1)
  have hsite : (s.withConnection connection).rouse.site = { s.site with connection } := site_rouse _
  have hhandlers : (s.withConnection connection).rouse.handlers = handlers := (onward_rouse _).handlers.trans h.handlers
  have hc : (s.receive payload).1.site.connection =
      (act j.call { s.site with connection }).2.connection.finish id (act j.call { s.site with connection }).1 := by
    unfold Session.receive
    simp only [hr, hm, if_true, runDirect, hhandlers, hact, hsite, connection_settle hd, site_rouse]
  refine ⟨act, hact, hc, fun ho => ?_⟩
  have hserved : (act j.call { s.site with connection }).2.connection.incoming.contains id = true := by
    have hl : ∀ c (site : Site α), site.connection.ActsTo (act c site).2.connection := by
      have hl := h.follows.handlers j.origin j.name (.direct act) (by rw [h.handlers]; exact hact)
      exact hl
    rw [hc, Connection.finish_eq] at ho
    rw [((hl j.call { s.site with connection }).incoming ho).2]
    have hmem : (id, j.token) ∈ connection.incoming.tickets := by
      rw [hrec.tickets]
      refine List.mem_append_right _ (List.mem_filterMap.mpr ⟨j, List.mem_cons_self, ?_⟩)
      rw [Job.ticket?, hid]
      rfl
    obtain ⟨k, -, hk⟩ := Incoming.mem_tickets_iff.mp hmem
    exact Incoming.contains_eq_true_iff.mpr ⟨k, hk⟩
  rw [hc, Connection.finish_eq]
  simp [hserved, Incoming.contains_finish]

end Session

end Parley
