import Parley.Proofs.Session.Threads

/-!
# Cancelled requests

What becomes of a request of the peer when its token fires, by the mode of its handler. Between two turns a coroutine does nothing
more and is answered as cancelled, and so is a body that waits for a worker. In the middle of a turn a coroutine goes on until the
turn is over, a body that is about to get a worker gets it, a body that is on a worker goes on there, and a direct handler has ended
before its token could fire.
-/

namespace Parley

open Session

variable {α : Type} {handlers : Registry (Handler α)} {catalogue : Catalogue}

/-- What goes on behind all that a call has called, or its routine if it has called nothing, may end with an outcome. -/
def Fiber.MayEnd (f : Fiber α) (o : Outcome) : Prop :=
  match f.callers.getLast? with
  | none => f.routine.Leads (.done o)
  | some next => ∃ r, (next r).Leads (.done o)

namespace Fiber

variable {f f' : Fiber α} {o : Outcome}

/-- A call that has called nobody ends with what its routine ends with. -/
theorem mayEnd_of_alone (hc : f.callers = []) : f.MayEnd o ↔ f.routine.Leads (.done o) := by
  simp only [MayEnd, hc, List.getLast?_nil]

/-- A call that has called somebody ends with what the outermost caller makes of it. -/
theorem mayEnd_of_outermost {next : Option Outcome → Routine α} (hc : f.callers.getLast? = some next) :
    f.MayEnd o ↔ ∃ r, (next r).Leads (.done o) := by
  simp only [MayEnd, hc]

/-- Whatever the others do, what the outermost caller may end with is the same. -/
theorem mayEnd_congr {next : Option Outcome → Routine α} (hc : f.callers.getLast? = some next)
    (hc' : f'.callers.getLast? = f.callers.getLast?) : f'.MayEnd o ↔ f.MayEnd o := by
  rw [mayEnd_of_outermost hc, mayEnd_of_outermost (hc'.trans hc)]

/-- With the same callers it is the routine that may have gone on. -/
theorem mayEnd_of_leads (hc : f'.callers = f.callers) (hl : f.routine.Leads f'.routine) (h : f'.MayEnd o) : f.MayEnd o := by
  cases hlast : f.callers.getLast? with
  | none =>
    have hcs := List.getLast?_eq_none_iff.mp hlast
    exact (mayEnd_of_alone hcs).mpr (hl.trans ((mayEnd_of_alone (hc.trans hcs)).mp h))
  | some next => exact (mayEnd_congr hlast (by rw [hc])).mp h

/-- What was called comes back to the caller, and the caller may be the outermost. -/
theorem mayEnd_of_returned {next : Option Outcome → Routine α} {callers : List (Option Outcome → Routine α)}
    (hc : f.callers = next :: callers) (hc' : f'.callers = callers) {r : Option Outcome} (hr : f'.routine = next r)
    (h : f'.MayEnd o) : f.MayEnd o := by
  have hlast : f.callers.getLast? = some (callers.getLast?.getD next) := by rw [hc, List.getLast?_cons]
  cases hcs : callers.getLast? with
  | none =>
    rw [hcs] at hlast
    have halone := (mayEnd_of_alone (hc'.trans (List.getLast?_eq_none_iff.mp hcs))).mp h
    rw [hr] at halone
    exact (mayEnd_of_outermost hlast).mpr ⟨r, halone⟩
  | some outer =>
    rw [hcs] at hlast
    exact (mayEnd_congr hlast (by rw [hc', hcs, hlast]; rfl)).mp h

/-- Where a handler is called, its caller may be the outermost. -/
theorem mayEnd_of_called {name : String} {params : Json} {next : Option Outcome → Routine α}
    (hr : f.routine = .invoke name params next) (hc : f'.callers = next :: f.callers) (h : f'.MayEnd o) : f.MayEnd o := by
  have hlast : f'.callers.getLast? = some (f.callers.getLast?.getD next) := by rw [hc, List.getLast?_cons]
  cases hcs : f.callers.getLast? with
  | none =>
    rw [hcs] at hlast
    obtain ⟨r, hl⟩ := (mayEnd_of_outermost hlast).mp h
    exact (mayEnd_of_alone (List.getLast?_eq_none_iff.mp hcs)).mpr (hr ▸ .invoke hl)
  | some outer =>
    rw [hcs] at hlast
    exact (mayEnd_congr hcs (by rw [hcs, hlast]; rfl)).mp h

/-- A call that stays may end with no more than before. -/
theorem Stays.mayEnd (hs : f.Stays f') (h : f'.MayEnd o) : f.MayEnd o := mayEnd_of_leads hs.callers hs.routine h

end Fiber

namespace Session

variable {s s' : Session α} {n : Nat} {f : Fiber α}

/-- A call goes on and may still end with what it might have ended with before; or it has ended with such an outcome, or was refused
a worker. -/
def Progress.Narrows (f : Fiber α) : Progress α → Prop
  | .goesOn f' | .pauses (.waits f') => ∀ o, f'.MayEnd o → f.MayEnd o
  | .pauses (.ends o) => f.MayEnd o ∨ f.place = .queued ∧ f.callers = [] ∧ o = .error .cancelled

/-- Past a node a call may end with no more than before it. -/
theorem Node.narrows {p : Progress α} (h : Node s n f s' p) : p.Narrows f := by
  have on {r : Routine α} {f' : Fiber α} (hr : f.routine.Leads r) (hr' : f'.routine = r) (hc : f'.callers = f.callers) (o : Outcome) :
      f'.MayEnd o → f.MayEnd o :=
    Fiber.mayEnd_of_leads hc (hr' ▸ hr)
  cases h with
  | onWorker | queues | unanswered => exact fun _ => id
  | refused _ _ hc | returns _ _ hc => exact fun _ => Fiber.mayEnd_of_returned hc rfl rfl
  | dismissed hp _ hc => exact .inr ⟨hp, hc, rfl⟩
  | seated | hired => exact on (.refl _) rfl rfl
  | ends _ hr hc => exact .inl ((Fiber.mayEnd_of_alone hc).mpr (hr ▸ .refl _))
  | acts _ hr => exact on (hr ▸ .act (.refl _)) rfl rfl
  | answered _ hr => exact on (hr ▸ .reply (.refl _)) rfl rfl
  | passes _ hr => exact on (hr ▸ .wait (.refl _)) rfl rfl
  | waits =>
    rw [timed_eq]
    exact on (.refl _) rfl rfl
  | misses _ hr => exact on (hr ▸ .invoke (.refl _)) rfl rfl
  | offloads _ hr | invokes _ hr => exact fun _ => Fiber.mayEnd_of_called hr rfl

/-- To get a worker changes nothing of what a call may end with. -/
theorem narrows_seat (s : Session α) (n : Nat) (f : Fiber α) (o : Outcome) : (s.seat n f).2.MayEnd o → f.MayEnd o := by
  unfold seat
  split
  · exact id
  · split <;> exact id

/-- A call whose turn is over is there, up to what was given to it. -/
theorem exists_rest (s : Session α) (n : Nat) (f : Fiber α) :
    ∃ f', (s.rest n f).fibers.find? n = some f' ∧ f'.bare = f.bare := by
  have hr := onward_rouse ((s.taken (.fiber n)).park n f)
  exact mem_calls_iff.mp (hr.calls.mem_iff.mpr (mem_calls_iff.mpr ⟨f, find?_store_self _ _ _, rfl⟩))

end Session

/-- A call later in the same turn, or when it is over. It ends with nothing with which it could not have ended before. -/
structure Fiber.Develops (f f' : Fiber α) : Prop where
  continues : f.Continues f'
  narrows : ∀ o, f'.MayEnd o → f.MayEnd o

namespace Fiber.Develops

variable {f f' f'' : Fiber α}

/-- What is given to a call does not matter. -/
theorem of_bare (h : f'.bare = f.bare) : f.Develops f' := by
  have hs : f.Stays f' := .of_bare h
  have hc := congrArg call h
  have hg := congrArg guarded h
  refine ⟨⟨hs.job, hc, hg, ?_⟩, fun o => hs.mayEnd⟩
  rw [place_of_bare h, callers_of_bare h]
  exact id

theorem trans (h : f.Develops f') (h' : f'.Develops f'') : f.Develops f'' :=
  ⟨h.continues.trans h'.continues, fun o hm => h.narrows o (h'.narrows o hm)⟩

end Fiber.Develops

namespace Threads

variable {x y z : Threads α} {n : Nat} {f f' : Fiber α} {j : Job} {id : MessageId} {o : Outcome} {p : Phase} {s : Session α}

/-! ## Answers -/

/-- From one state to the next, the request of an id is answered with the outcome of its job. -/
structure Replies (j : Job) (id : MessageId) (o : Outcome) (x y : Threads α) : Prop where
  step : Step x y
  served : x.session.site.connection.incoming.contains id = true
  connection : y.session.site.connection = x.session.site.connection.finish id o
  /-- The answer is all that is queued. -/
  queue : y.session.site.connection.queue =
    x.session.site.connection.queue ++ x.session.site.connection.kept [.frame (Reply.ofOutcome id o)]
  ended : y.session.site.connection.incoming.contains id = false
  /-- No job answers this instance of the id ever again. -/
  last : ∀ z, Steps y z → ∀ j' ∈ z.session.jobs, j'.ticket? ≠ j.ticket?

/-- On the way from one state to a later one a fiber stays until its request is answered. -/
def Answered (n : Nat) (f : Fiber α) (j : Job) (id : MessageId) (o : Outcome) (x y : Threads α) : Prop :=
  ∃ u v f', Steps x u ∧ u.session.fibers.find? n = some f' ∧ f.Stays f' ∧ Replies j id o u v ∧ Steps v y

/-- Whatever happens behind an answer, it was given. -/
theorem Answered.trans (h : Answered n f j id o x y) (hs : Steps y z) : Answered n f j id o x z := by
  obtain ⟨u, v, f', hl, hf, hst, hr, hl'⟩ := h
  exact ⟨u, v, f', hl, hf, hst, hr, hl'.trans hs⟩

/-- Whatever has happened before, it is given. -/
theorem Answered.after (hs : Steps x y) (hst : f.Stays f') (h : Answered n f' j id o y z) : Answered n f j id o x z := by
  obtain ⟨u, v, f'', hl, hf, hst', hr, hl'⟩ := h
  exact ⟨u, v, f'', hs.trans hl, hf, hst.trans hst', hr, hl'⟩

/-- A step that hands the outcome of the job of a request to the connection answers the request. -/
theorem Sound.replies_of_finish (h : Sound handlers catalogue x) (hs : Step x y)
    (ho : y.session.site.connection.outgoing.closed = false) (hf : x.session.fibers.find? n = some f) (hj : f.job = some j)
    (hd : j.duty = .request id) (hc : y.session.site.connection = x.session.site.connection.finish id o) :
    Replies j id o x y := by
  have hid : j.duty.id? = some id := by
    rw [hd]
    rfl
  have hjobs := mem_jobs hf hj
  have hfollows := h.underway.follows
  have hserved := ((hfollows.serves (h.open_of_steps (.single hs) ho)).1 id).mpr ⟨j, hjobs, hid⟩
  have hended : y.session.site.connection.incoming.contains id = false := by
    rw [hc, Connection.finish_eq]
    simp [Incoming.contains_finish]
  refine ⟨hs, hserved, hc, ?_, hended, fun z hl j' hj' ht => ?_⟩
  · rw [hc, Connection.finish_eq]
    simp [hserved]
  · -- The token of the job is used up, and no job with it is left.
    have h' := h.step hs
    obtain ⟨k, htoken, hk⟩ : ∃ k, j.token = .request k ∧ k < y.session.site.connection.incoming.tokens := by
      obtain ⟨ms, hcs, hjs, -⟩ := hfollows
      obtain ⟨-, k, htoken, hk⟩ := Conversation.made_of_mem_jobs (hjs.mem_iff.mpr hjobs) hid
      refine ⟨k, htoken, ?_⟩
      rw [hc, Connection.finish_eq, hcs]
      exact hk
    have hticket : j.ticket? = some (id, .request k) := by rw [Job.ticket?, hid, htoken]; rfl
    obtain ⟨ms, -, hjs, -⟩ := h'.follows_steps hl h'.underway.here
    have hcount := Conversation.countP_ticket_run ⟨y.session.site.connection, y.session.jobs⟩ ms id hk
    have hnone : y.session.jobs.countP (fun j' => j'.ticket? = some (id, .request k)) = 0 := by
      refine List.countP_eq_zero.mpr fun j₁ hj₁ ht₁ => ?_
      obtain ⟨i, hi, he⟩ := Option.map_eq_some_iff.mp (of_decide_eq_true ht₁)
      obtain ⟨rfl, -⟩ := Prod.mk.inj he
      rw [((h'.underway.follows.serves ho).1 i).mpr ⟨j₁, hj₁, hi⟩] at hended
      cases hended
    have hzero : (Conversation.run ⟨y.session.site.connection, y.session.jobs⟩ ms).jobs.countP
        (fun j' => j'.ticket? = some (id, .request k)) = 0 := by
      have hnone : (Conversation.mk y.session.site.connection y.session.jobs).jobs.countP
          (fun j' => j'.ticket? = some (id, .request k)) = 0 := hnone
      omega
    exact List.countP_eq_zero.mp hzero j' (hjs.mem_iff.mpr hj') (decide_eq_true (ht.trans hticket))

/-- A routine that has ended hands its outcome to the connection. -/
theorem connection_conclude (hj : f.job = some j) (hd : j.duty = .request id) (s : Session α) (n : Nat) (o : Outcome) :
    (s.conclude n f o).site.connection = s.site.connection.finish id o := by
  rw [conclude, hj]
  exact connection_settle hd _ o

/-- At the node at which it ends, a routine leaves the site as it is. -/
theorem site_of_ends {s s' : Session α} (h : Node s n f s' (.pauses (.ends o))) : s'.site = s.site := by
  cases h with
  | dismissed => exact site_giveBack s f
  | ends => rfl

/-- So the request is answered with what its routine has ended with. -/
theorem Sound.replies_of_ends (h : Sound handlers catalogue x) (hf : x.session.fibers.find? n = some f) (hj : f.job = some j)
    (hd : j.duty = .request id) (hp : x.phase n = .polled) (hnode : x.session.node n f = (s, .pauses (.ends o)))
    (ho : (s.conclude n f o).site.connection.outgoing.closed = false) :
    Replies j id o x (x.moved n .rests (s.conclude n f o)) := by
  refine h.replies_of_finish (.move hf (.ends hp hnode)) ho hf hj hd ?_
  have hc := connection_conclude hj hd s n o
  rwa [site_of_ends (node_of_eq hnode)] at hc

/-! ## What cannot change any more -/

/-- Whenever a fiber moves on next, its request ends with an outcome: its token has fired, and the call ends with it and is between
two turns, or its body waits for a worker and is not about to get one; or its body has ended on a worker. -/
structure Due (x : Threads α) (n : Nat) (j : Job) (f : Fiber α) (o : Outcome) : Prop where
  verdict : x.session.Verdict j f o
  rests : j.isGuarded = true → x.phase n = .rests
  waits : x.phase n ≠ .seating

/-- What a fiber has nothing to wait for stays so while it stays. -/
theorem Due.of_stays (hv : x.Due n j f o) (ht : x.session.isFired j.token = true → y.session.isFired j.token = true)
    (hst : f.Stays f') (hp : y.phase n = x.phase n) : y.Due n j f' o := by
  have hb (hp : f.place ≠ .worker) := hst.elsewhere hp
  refine ⟨?_, fun hg => hp.trans (hv.rests hg), hp ▸ hv.waits⟩
  rcases hv.verdict with ⟨hf, hg | ⟨hm, hp⟩, rfl⟩ | ⟨hm, hp, hr⟩
  · exact .inl ⟨ht hf, .inl hg, rfl⟩
  · exact .inl ⟨ht hf, .inr ⟨hm, (Fiber.place_of_bare (hb (by simp [hp]))).trans hp⟩, rfl⟩
  · exact .inr ⟨hm, (Fiber.place_of_bare (hb (by simp [hp]))).trans hp, (Fiber.routine_of_bare (hb (by simp [hp]))).trans hr⟩

/-- A fiber that moves on in its turn ends its request with the outcome that is due. -/
theorem Due.node (hv : x.Due n j f o) (hs : f.Serves handlers j) (hp : x.phase n ≠ .rests) :
    (x.session.node n f).2 = .pauses (.ends o) := by
  have ht := hs.token
  rcases hv.verdict with ⟨hf, hg | ⟨hm, hq⟩, rfl⟩ | ⟨hm, hh, hr⟩
  · exact absurd (hv.rests hg) hp
  · simp only [Session.node, hq, ht, hf, (hs.threaded hm).callers, if_true]
  · simp only [Session.node, hh, hr, (hs.threaded hm).callers]

/-- A call that ends with its token, and that has something due, begins no turn. -/
theorem Due.not_guarded (hv : x.Due n j f o) (hs : f.Serves handlers j) (hd : j.duty = .request id)
    (ht : f.guarded = true → x.session.isFired f.call.token = false) : j.isGuarded = false := by
  rcases hv.verdict with ⟨hf, -⟩ | ⟨hm, -⟩
  · cases hg : j.isGuarded with
    | false => rfl
    | true =>
      have hlive := ht (hs.guarded.trans hg)
      rw [hs.token, hf] at hlive
      cases hlive
  · rw [Job.isGuarded, hd, hm]
    rfl

namespace Sound

/-- In one step a fiber for which an outcome is due stays as it is, or its request is answered with the outcome. -/
theorem step_of_due (h : Sound handlers catalogue x) (hf : x.session.fibers.find? n = some f) (hj : f.job = some j)
    (hd : j.duty = .request id) (hv : x.Due n j f o) (hs : Step x y) (ho : y.session.site.connection.outgoing.closed = false) :
    (∃ f', y.session.fibers.find? n = some f' ∧ f.Stays f' ∧ y.Due n j f' o) ∨ Replies j id o x y := by
  have hserves := h.underway.orderly.serves n f j hf hj
  rcases h.call_of_step hs hf with ⟨hp, -, f', hf', hst⟩ | ⟨p, s, hm, rfl⟩
  · exact .inl ⟨f', hf', hst, hv.of_stays (h.isFired_of_steps (.single hs)) hst hp⟩
  -- A fiber that moves on in its turn ends its request.
  have ends {s : Session α} {q : Progress α} (hp : x.phase n = .polled) (hnode : x.session.node n f = (s, q)) :
      q = .pauses (.ends o) := by
    have hq := hv.node hserves (by simp [hp])
    rwa [hnode] at hq
  cases hm with
  | turn => exact .inr (h.replies_of_finish hs ho hf hj hd (connection_driveFiber (s := x.session.taken _) hserves hj hd hv.verdict))
  | begins hp hr hw ht =>
    refine .inl ⟨f, hf, .refl f, hv.verdict, fun hg => ?_, by simp⟩
    rw [hv.not_guarded hserves hd ht] at hg
    cases hg
  | passes hp hnode => cases ends hp hnode
  | waits hp hnode => cases ends hp hnode
  | ends hp hnode =>
    obtain rfl := Pause.ends.inj (Progress.pauses.inj (ends hp hnode))
    exact .inr (h.replies_of_ends hf hj hd hp hnode ho)
  | looks hp hq ht =>
    rcases hv.verdict with ⟨hfd, -⟩ | ⟨-, hh, -⟩
    · rw [hserves.token, hfd] at ht
      cases ht
    · rw [hq] at hh
      cases hh
  | seats hp => exact absurd hp hv.waits

/-- So it stays until its request is answered with the outcome. -/
theorem stays_of_due (h : Sound handlers catalogue x) (hf : x.session.fibers.find? n = some f) (hj : f.job = some j)
    (hd : j.duty = .request id) (hv : x.Due n j f o) (hs : Steps x y) (ho : y.session.site.connection.outgoing.closed = false) :
    (∃ f', y.session.fibers.find? n = some f' ∧ f.Stays f' ∧ y.Due n j f' o) ∨ Answered n f j id o x y := by
  induction hs with
  | refl => exact .inl ⟨f, hf, .refl f, hv⟩
  | @tail u v hl hs ih =>
    have hu := h.steps hl
    rcases ih (hu.open_of_steps (.single hs) ho) with ⟨f', hf', hst, hv'⟩ | ha
    · rcases hu.step_of_due hf' (hst.job.trans hj) hd hv' hs ho with ⟨f'', hf'', hst', hv''⟩ | hr
      · exact .inl ⟨f'', hf'', hst.trans hst', hv''⟩
      · exact .inr ⟨u, v, f', hl, hf', hst, hr, .refl⟩
    · exact .inr (ha.trans (.single hs))

/-- A fiber for which an outcome is due has a turn, and a step answers its request. -/
theorem answerable (h : Sound handlers catalogue x) (ho : x.session.site.connection.outgoing.closed = false)
    (hf : x.session.fibers.find? n = some f) (hj : f.job = some j) (hd : j.duty = .request id) (hv : x.Due n j f o) :
    .fiber n ∈ x.session.ready ∧ ∃ z, Replies j id o x z := by
  have hserves := h.underway.orderly.serves n f j hf hj
  have hready : .fiber n ∈ x.session.ready := by
    refine h.underway.orderly.prompt ho n f j hf hj ?_
    rcases hv.verdict with ⟨hf, hm, -⟩ | ⟨hm, hp, -⟩
    · exact .inl ⟨hf, hm⟩
    · exact .inr ⟨hm, hp⟩
  have hopen : (x.session.site.connection.finish id o).outgoing.closed = false := by
    rw [Connection.finish_eq]
    exact ho
  refine ⟨hready, ?_⟩
  cases hp : x.phase n with
  | rests =>
    have hc := connection_driveFiber (n := n) (s := x.session.taken (.fiber n)) hserves hj hd hv.verdict
    exact ⟨_, h.replies_of_finish (.move hf (.turn hp hready)) (hc ▸ hopen) hf hj hd hc⟩
  | polled =>
    have hnode := hv.node hserves (by simp [hp])
    have he : x.session.node n f = ((x.session.node n f).1, .pauses (.ends o)) := by rw [← hnode]
    have hc := connection_conclude hj hd (x.session.node n f).1 n o
    rw [site_of_ends (node_of_eq he)] at hc
    exact ⟨_, h.replies_of_ends hf hj hd hp he (hc ▸ hopen)⟩
  | seating => exact absurd hp hv.waits

/-! ## Bodies on workers -/

/-- In one step a body that is on a worker, or has been, goes on there, or its request is answered with what it has come to. -/
theorem step_of_started (h : Sound handlers catalogue x) (hf : x.session.fibers.find? n = some f) (hj : f.job = some j)
    (hd : j.duty = .request id) (hm : j.mode = .threaded) (hq : f.place ≠ .queued) (hs : Step x y)
    (ho : y.session.site.connection.outgoing.closed = false) :
    (∃ f', y.session.fibers.find? n = some f' ∧ f.Stays f' ∧ f'.place ≠ .queued) ∨
      ∃ o, f.routine = .done o ∧ Replies j id o x y := by
  have hserves := h.underway.orderly.serves n f j hf hj
  have stays {f' : Fiber α} (hst : f.Stays f') : f'.place ≠ .queued := by
    by_cases hw : f.place = .worker
    · exact hst.started hw
    · rwa [Fiber.place_of_bare (hst.elsewhere hw)]
  cases hp : f.place with
  | queued => exact absurd hp hq
  | here =>
    obtain ⟨o, hr⟩ := (hserves.threaded hm).here hp
    have hg : j.isGuarded = false := by
      rw [Job.isGuarded, hd, hm]
      rfl
    have hv : x.Due n j f o := by
      refine ⟨.inr ⟨hm, hp, hr⟩, fun hg' => ?_, fun hs => hq (h.queued hf hs)⟩
      rw [hg] at hg'
      cases hg'
    rcases h.step_of_due hf hj hd hv hs ho with ⟨f', hf', hst, -⟩ | ha
    · exact .inl ⟨f', hf', hst, stays hst⟩
    · exact .inr ⟨o, hr, ha⟩
  | worker =>
    rcases h.call_of_step hs hf with ⟨-, -, f', hf', hst⟩ | ⟨p, s, hmove, rfl⟩
    · exact .inl ⟨f', hf', hst, stays hst⟩
    · -- What is on a worker begins no turn, and a whole turn leaves it there.
      have hrests : x.phase n = .rests := Classical.not_not.mp fun hne => (h.inTurn hf hne).place hp
      have hg : f.guarded = false := by
        rw [hserves.guarded, Job.isGuarded, hd, hm]
        rfl
      cases hmove with
      | turn =>
        refine .inl ⟨f, ?_, .refl f, hq⟩
        simp only [moved]
        rw [driveFiber, if_neg (by simp [hg]), drive_worker hp]
        exact find?_store_self _ _ _
      | begins _ _ hw => exact absurd hp hw
      | passes hx | waits hx | ends hx | looks hx | seats hx =>
        rw [hrests] at hx
        cases hx

/-- A body that is on a worker, or has been, goes on there whether or not its token has fired, and its request is answered with
what the body comes to. -/
theorem stays_of_started (h : Sound handlers catalogue x) (hf : x.session.fibers.find? n = some f) (hj : f.job = some j)
    (hd : j.duty = .request id) (hm : j.mode = .threaded) (hq : f.place ≠ .queued) (hs : Steps x y)
    (ho : y.session.site.connection.outgoing.closed = false) :
    (∃ f', y.session.fibers.find? n = some f' ∧ f.Stays f' ∧ f'.place ≠ .queued) ∨
      ∃ o, f.routine.Leads (.done o) ∧ Answered n f j id o x y := by
  induction hs with
  | refl => exact .inl ⟨f, hf, .refl f, hq⟩
  | @tail u v hl hs ih =>
    have hu := h.steps hl
    rcases ih (hu.open_of_steps (.single hs) ho) with ⟨f', hf', hst, hq'⟩ | ⟨o, hleads, ha⟩
    · rcases hu.step_of_started hf' (hst.job.trans hj) hd hm hq' hs ho with ⟨f'', hf'', hst', hq''⟩ | ⟨o, hr, ha⟩
      · exact .inl ⟨f'', hf'', hst.trans hst', hq''⟩
      · exact .inr ⟨o, hr ▸ hst.routine, u, v, f', hl, hf', hst, ha, .refl⟩
    · exact .inr ⟨o, hleads, ha.trans (.single hs)⟩

/-! ## In the middle of a turn -/

/-- In one step a call in the middle of its turn moves on, or its request is answered with what it has ended with, or because it was
refused a worker. -/
theorem step_of_turn (h : Sound handlers catalogue x) (hf : x.session.fibers.find? n = some f) (hj : f.job = some j)
    (hd : j.duty = .request id) (hp : x.phase n ≠ .rests) (hs : Step x y) (ho : y.session.site.connection.outgoing.closed = false) :
    (∃ f', y.session.fibers.find? n = some f' ∧ f.Develops f') ∨
      ∃ o, (f.MayEnd o ∨ j.mode = .threaded ∧ o = .error .cancelled) ∧ Replies j id o x y := by
  have hfollows := h.underway.follows
  obtain ⟨hl, hn⟩ := hfollows.fiber hf
  have hserves := h.underway.orderly.serves n f j hf hj
  have passed {s : Session α} {q : Progress α} (hnode : x.session.node n f = (s, q)) : Keeps x.session n f s q ∧ q.Narrows f :=
    ⟨(node_of_eq hnode).keeps hfollows.handlers hl, (node_of_eq hnode).narrows⟩
  rcases h.call_of_step hs hf with ⟨-, -, f', hf', hst⟩ | ⟨p, s, hm, rfl⟩
  · exact .inl ⟨f', hf', .of_bare (hst.elsewhere (h.inTurn hf hp).place)⟩
  cases hm with
  | turn hx | begins hx => exact absurd hx hp
  | passes _ hnode =>
    obtain ⟨hk, hw⟩ := passed hnode
    exact .inl ⟨_, find?_store_self _ _ _, hk.progress.2, hw⟩
  | waits _ hnode =>
    obtain ⟨hk, hw⟩ := passed hnode
    obtain ⟨f'', hf'', hb⟩ := exists_rest _ n _
    exact .inl ⟨f'', hf'', .trans ⟨hk.progress.2, hw⟩ (.of_bare hb)⟩
  | @ends s o hx hnode =>
    refine .inr ⟨o, ?_, h.replies_of_ends hf hj hd hx hnode ho⟩
    rcases (passed hnode).2 with hm | ⟨hq, hc, rfl⟩
    · exact .inl hm
    · -- A coroutine waits for a worker only where it has called somebody.
      refine .inr ⟨?_, rfl⟩
      cases hm : j.mode with
      | direct => exact absurd hm hserves.mode
      | coroutine => exact absurd hc (hserves.nested hm (by simp [hq]))
      | threaded => rfl
  | looks => exact .inl ⟨f, hf, .of_bare rfl⟩
  | seats hx =>
    have hk := keeps_seat hl (h.queued hf hx) x.session n
    obtain ⟨f'', hf'', hb⟩ := exists_rest (x.session.seat n f).1 n (x.session.seat n f).2
    exact .inl ⟨f'', hf'', .trans ⟨hk.progress.2, narrows_seat _ n f⟩ (.of_bare hb)⟩

/-- So it is in the middle of its turn until it comes to wait or is answered. -/
theorem rests_of_turn (h : Sound handlers catalogue x) (hf : x.session.fibers.find? n = some f) (hj : f.job = some j)
    (hd : j.duty = .request id) (hp : x.phase n ≠ .rests) (hs : Steps x y)
    (ho : y.session.site.connection.outgoing.closed = false) :
    (y.phase n ≠ .rests ∧ ∃ f', y.session.fibers.find? n = some f' ∧ f.Develops f') ∨
      (∃ u f', Steps x u ∧ u.phase n = .rests ∧ u.session.fibers.find? n = some f' ∧ f.Develops f' ∧ Steps u y) ∨
      ∃ o u v, (f.MayEnd o ∨ j.mode = .threaded ∧ o = .error .cancelled) ∧ Steps x u ∧ u.phase n ≠ .rests ∧
        Replies j id o u v ∧ Steps v y := by
  induction hs with
  | refl => exact .inl ⟨hp, f, hf, .of_bare rfl⟩
  | @tail u v hl hs ih =>
    have hu := h.steps hl
    rcases ih (hu.open_of_steps (.single hs) ho) with
      ⟨hp', f', hf', hdv⟩ | ⟨w, f', hw, hp', hf', hdv, hwu⟩ | ⟨o, w, w', hm, hw, hp', hr, hwu⟩
    · rcases hu.step_of_turn hf' (hdv.continues.job.trans hj) hd hp' hs ho with ⟨f'', hf'', hdv'⟩ | ⟨o, hm, hr⟩
      · by_cases hv : v.phase n = .rests
        · exact .inr (.inl ⟨v, f'', hl.tail hs, hv, hf'', hdv.trans hdv', .refl⟩)
        · exact .inl ⟨hv, f'', hf'', hdv.trans hdv'⟩
      · exact .inr (.inr ⟨o, u, v, hm.imp_left (hdv.narrows o), hl, hp', hr, .refl⟩)
    · exact .inr (.inl ⟨w, f', hw, hp', hf', hdv, hwu.tail hs⟩)
    · exact .inr (.inr ⟨o, w, w', hm, hw, hp', hr, hwu.tail hs⟩)

end Sound

/-! ## Between two turns -/

/-- Between two turns everything is as it should be. -/
theorem sound_atRest (h : Underway handlers catalogue s) : Sound handlers catalogue (atRest s) := ⟨h, fun _ hp => absurd rfl hp⟩

/-- Between two turns what is due is what the turn comes to. -/
theorem due_atRest (hv : s.Verdict j f o) : (atRest s).Due n j f o := ⟨hv, fun _ => rfl, by simp [atRest]⟩

/-- A fiber that has nothing to wait for is answered at its turn, and its turn comes when those before it have had theirs. -/
theorem answered_in_turn (h : Underway handlers catalogue s) (hf : s.fibers.find? n = some f) (hj : f.job = some j)
    (hd : j.duty = .request id) (hv : s.Verdict j f o) {fuel : Nat} (hk : s.ready.idxOf (.fiber n) < fuel)
    (ho : (s.run fuel).site.connection.outgoing.closed = false) : Answered n f j id o (atRest s) (atRest (s.run fuel)) := by
  induction fuel generalizing s f with
  | zero => cases hk
  | succ fuel ih =>
    have hs := sound_atRest h
    have hopen := h.open_of_later (later_run s _) ho
    have hr := (hs.answerable hopen hf hj hd (due_atRest hv)).1
    cases hready : s.ready with
    | nil =>
      have hr : .fiber n ∈ s.ready := hr
      rw [hready] at hr
      cases hr
    | cons a rest =>
      have ha : a ∈ s.ready := by rw [hready]; exact List.mem_cons_self
      have hrun : s.run (fuel + 1) = ((s.taken a).turn a).run fuel := by
        rw [run, hready]
        simp only [taken_of_ready hready]
      rw [hrun] at ho ⊢
      by_cases hn : a = .fiber n
      · subst hn
        have hturn : Next s ((s.taken (.fiber n)).driveFiber n f) := .turn ha hf
        have hl : Later ((s.taken (.fiber n)).driveFiber n f) (((s.taken (.fiber n)).turn (.fiber n)).run fuel) :=
          (alongside_turn_fiber (s := s.taken (.fiber n)) hf).later.trans (later_run _ _)
        have hopen := (h.next hturn).open_of_later hl ho
        have hc := connection_driveFiber (n := n) (s := s.taken (.fiber n)) (h.orderly.serves n f j hf hj) hj hd hv
        exact ⟨_, _, f, .refl, hf, .refl f, hs.replies_of_finish (step_of_next hturn) hopen hf hj hd hc, steps_of_later hl⟩
      · have hl : Later s ((s.taken a).turn a) := later_turn ha
        have hu := h.later hl
        have hopen := hu.open_of_later (later_run _ _) ho
        rcases hs.stays_of_due hf hj hd (due_atRest hv) (steps_of_later hl) hopen with ⟨f', hf', hst, hv'⟩ | ha
        · -- Those that had turns have kept their places, so this one is one place nearer.
          have hpre := ready_turn h.follows ha
          have hrest : (s.taken a).ready = rest := by rw [← taken_of_ready hready]
          obtain ⟨more, hmore⟩ := hrest ▸ hpre
          have hmem : .fiber n ∈ rest := by
            have hr : .fiber n ∈ s.ready := hr
            rw [hready] at hr
            exact (List.mem_cons.mp hr).resolve_left (Ne.symm hn)
          have hidx : ((s.taken a).turn a).ready.idxOf (.fiber n) < fuel := by
            have hne : (a == Actor.fiber n) = false := beq_eq_false_iff_ne.mpr hn
            rw [hready, List.idxOf_cons, hne, cond_false] at hk
            rw [← hmore, List.idxOf_append, if_pos hmem]
            omega
          exact (ih hu hf' (hst.job.trans hj) hv'.verdict hidx ho).after (steps_of_later hl) hst
        · exact ha.trans (steps_of_later (later_run _ _))

/-- What a cancellation does to a session: it leaves the requests being served and the calls as they are, fires the token of the
request that it names if there is one, and makes no difference to what the connection queues, whatever comes later. -/
theorem receive_cancels {s : Session α} {payload : Bytes} {named : Option MessageId} (hc : s.site.connection.Cancels payload named) :
    (s.receive payload).1.site.connection.incoming.entries = s.site.connection.incoming.entries ∧
      (s.receive payload).1.calls.Perm s.calls ∧
      (∀ t, (s.receive payload).1.isFired t = true ↔ s.isFired t = true ∨ s.site.connection.lifecycle ≠ .exited ∧
        ∃ id k, named = some id ∧ s.site.connection.incoming.entries.find? id = some k ∧ t = .request k) ∧
      ∀ jobs ms, (Conversation.mk (s.receive payload).1.site.connection jobs).output ms =
        (Conversation.mk s.site.connection jobs).output ms := by
  obtain ⟨hj, ha, hf⟩ := hc.receive
  have hs : (s.receive payload).1 = (s.withConnection (s.site.connection.receive payload).1).rouse := by
    unfold Session.receive
    simp only [hj]
  have hsite : (s.receive payload).1.site.connection = (s.site.connection.receive payload).1 := by
    rw [hs, site_rouse, withConnection]
  refine ⟨?_, ?_, fun t => ?_, fun jobs ms => ?_⟩
  · obtain ⟨fired, reports, he⟩ := ha
    rw [hsite, he]
  · rw [hs]
    exact (onward_rouse _).calls
  · rw [isFired, hsite]
    exact hf t
  · have hal : (Conversation.mk s.site.connection jobs).Alike (Conversation.mk (s.receive payload).1.site.connection jobs) :=
      ⟨hsite ▸ ha, rfl⟩
    exact hal.output ms

/-- What becomes of the requests of the peer when tokens fire, in every state that a session on several threads can come to, in five
parts. All but the last are about the time until the connection is released; what is said of a later state `y` holds of all of them,
in whatever order turns are given, however they overlap and whatever happens to the session on the way.
1. Each request that is being served has a fiber at work on it, whose job has the token of the request.
2. The job of a request, `shutdown` aside, is for a handler of its mode, and not for a direct one.
   - A coroutine whose token has fired and that is between two turns stays where it is, only what it has called may go on on a worker.
     Until its request is answered it has a turn, and a step answers it; the answer is the error that says that it was cancelled.
   - So it is with a body that waits for a worker, unless its token was looked at and it is about to get one: it does not begin.
   - A body that is on a worker, or was, goes on whether or not its token has fired, and the answer is what it comes to.
   - A call in the middle of its turn goes on whether or not its token has fired. It comes to wait, and is between two turns then; or
     it is answered in this turn, with what its routine ends with, which it might have ended with before, or because a body was refused
     a worker.
   - An answer is a result or an error with the id of the request, and that of a cancelled request has its code and names the id.
3. In a session whose turns do not overlap, a fiber that has nothing to wait for, because its token has fired or its body has ended,
   has its turn when those before it in the row have had theirs, and at this turn its request is answered.
4. A request for a direct handler is answered as soon as it comes, with the outcome of the handler.
5. A cancellation leaves what is being served and the calls as they are. It fires the token of the request that it names if there
   is one, and no other; so it fires nothing if it names none, or none that is being served, or one whose token has fired. What the
   connection queues later does not depend on it, if the outcomes of the jobs are the same. -/
theorem requests_end_by_mode (handlers : Registry (Handler α)) (catalogue : Catalogue) (x : Threads α) (hh : handlers.Lawful)
    (h : Reachable handlers catalogue x) :
    (∀ id k, x.session.site.connection.outgoing.closed = false → x.session.site.connection.incoming.entries.find? id = some k →
      ∃ n f j, x.session.fibers.find? n = some f ∧ f.job = some j ∧ j.duty.id? = some id ∧ j.token = .request k) ∧
    (∀ n f j id, x.session.fibers.find? n = some f → f.job = some j → j.duty = .request id →
      ∃ b, handlers.find? j.origin j.name = some b ∧ b.mode = j.mode ∧ j.mode ≠ .direct ∧
        (∀ y, Steps x y → y.session.site.connection.outgoing.closed = false →
          (x.session.isFired j.token = true → j.mode = .coroutine → x.phase n = .rests →
            (f.place ≠ .here → f.callers ≠ []) ∧
            ((∃ f', y.session.fibers.find? n = some f' ∧ f.Stays f' ∧ y.phase n = .rests ∧ .fiber n ∈ y.session.ready ∧
                ∃ z, Replies j id (.error .cancelled) y z) ∨
              Answered n f j id (.error .cancelled) x y)) ∧
          (x.session.isFired j.token = true → j.mode = .threaded → f.place = .queued → x.phase n ≠ .seating →
            f.routine = b.routine j.call ∧
            ((∃ f', y.session.fibers.find? n = some f' ∧ f'.bare = f.bare ∧ y.phase n ≠ .seating ∧ .fiber n ∈ y.session.ready ∧
                ∃ z, Replies j id (.error .cancelled) y z) ∨
              Answered n f j id (.error .cancelled) x y)) ∧
          (j.mode = .threaded → f.place ≠ .queued →
            (∃ f', y.session.fibers.find? n = some f' ∧ f.Stays f' ∧ f'.place ≠ .queued) ∨
              ∃ o, (b.routine j.call).Leads (.done o) ∧ f.routine.Leads (.done o) ∧ Answered n f j id o x y) ∧
          (x.phase n ≠ .rests →
            (y.phase n ≠ .rests ∧ ∃ f', y.session.fibers.find? n = some f' ∧ f.Develops f') ∨
            (∃ u f', Steps x u ∧ u.phase n = .rests ∧ u.session.fibers.find? n = some f' ∧ f.Develops f' ∧ Steps u y) ∨
            ∃ o u v, (f.MayEnd o ∨ j.mode = .threaded ∧ o = .error .cancelled) ∧ Steps x u ∧ u.phase n ≠ .rests ∧
              Replies j id o u v ∧ Steps v y)) ∧
        (∀ v, Reply.ofOutcome id (.ok v) = .result id v) ∧
        (∀ e, Reply.ofOutcome id (.error e) = .error (some id) (e.toResponseError (some id))) ∧
        Reply.ofOutcome id (.error .cancelled) =
          .error (some id) ⟨-32800, "Request with id \"" ++ id.text ++ "\" is canceled", none⟩) ∧
    (∀ s, Session.Reachable handlers catalogue s → ∀ n f j id o fuel, s.fibers.find? n = some f → f.job = some j →
      j.duty = .request id → s.Verdict j f o → s.ready.idxOf (.fiber n) < fuel →
      (s.run fuel).site.connection.outgoing.closed = false →
      .fiber n ∈ s.ready ∧ Answered n f j id o (atRest s) (atRest (s.run fuel))) ∧
    (∀ payload connection j id, x.session.site.connection.receive payload = (connection, some j) → j.duty = .request id →
      j.mode = .direct →
      ∃ act, handlers.find? j.origin j.name = some (.direct act) ∧
        (x.session.receive payload).1.site.connection =
          (act j.call { x.session.site with connection }).2.connection.finish id (act j.call { x.session.site with connection }).1 ∧
        ((x.session.receive payload).1.site.connection.outgoing.closed = false →
          (x.session.receive payload).1.site.connection.queue =
            (act j.call { x.session.site with connection }).2.connection.queue ++
              (act j.call { x.session.site with connection }).2.connection.kept
                [.frame (Reply.ofOutcome id (act j.call { x.session.site with connection }).1)] ∧
          (x.session.receive payload).1.site.connection.incoming.contains id = false)) ∧
    ∀ payload named, x.session.site.connection.Cancels payload named →
      (x.session.receive payload).1.site.connection.incoming.entries = x.session.site.connection.incoming.entries ∧
      (x.session.receive payload).1.calls.Perm x.session.calls ∧
      (∀ t, (x.session.receive payload).1.isFired t = true ↔
        x.session.isFired t = true ∨ x.session.site.connection.lifecycle ≠ .exited ∧
          ∃ id k, named = some id ∧ x.session.site.connection.incoming.entries.find? id = some k ∧ t = .request k) ∧
      ((∀ id k, named = some id → x.session.site.connection.incoming.entries.find? id = some k →
          x.session.isFired (.request k) = true) →
        ∀ t, (x.session.receive payload).1.isFired t = x.session.isFired t) ∧
      ∀ jobs ms, (Conversation.mk (x.session.receive payload).1.site.connection jobs).output ms =
        (Conversation.mk x.session.site.connection jobs).output ms := by
  have hs := h.sound hh
  have hu := hs.underway
  refine ⟨fun id k ho hk => hu.exists_fiber ho hk, fun n f j id hf hj hd => ?_, fun s hr n f j id o fuel hf hj hd hv hk ho => ?_,
    fun payload connection j id hr hd hm => hu.receive_direct hr hd hm, fun payload named hc => ?_⟩
  · have hserves := hu.orderly.serves n f j hf hj
    have hid : j.duty.id? = some id := by
      rw [hd]
      rfl
    obtain ⟨b, hb, hmode⟩ := hu.handler (mem_jobs hf hj) hid
    have hbody : x.session.handlers.bodyOf j = b.routine j.call := by
      rw [hu.handlers, Registry.bodyOf, hb]
    refine ⟨b, hb, hmode, hserves.mode, fun y hl ho => ⟨fun ht hm hp => ⟨hserves.nested hm, ?_⟩, fun ht hm hq hp => ?_,
      fun hm hq => ?_, fun hp => hs.rests_of_turn hf hj hd hp hl ho⟩, fun _ => rfl, fun _ => rfl, rfl⟩
    -- A coroutine is guarded: its token is looked at before its next turn begins.
    · have hg : j.isGuarded = true := by
        rw [Job.isGuarded, hd, hm]
        rfl
      have hv : x.Due n j f (.error .cancelled) := ⟨.inl ⟨ht, .inl hg, rfl⟩, fun _ => hp, by simp [hp]⟩
      rcases hs.stays_of_due hf hj hd hv hl ho with ⟨f', hf', hst, hv'⟩ | ha
      · obtain ⟨hready, hanswer⟩ := (hs.steps hl).answerable ho hf' (hst.job.trans hj) hd hv'
        exact .inl ⟨f', hf', hst, hv'.rests hg, hready, hanswer⟩
      · exact .inr ha
    -- A threaded body is refused by whoever hands out workers, not by the guard.
    · have hg : j.isGuarded = false := by
        rw [Job.isGuarded, hd, hm]
        rfl
      have hv : x.Due n j f (.error .cancelled) :=
        ⟨.inl ⟨ht, .inr ⟨hm, hq⟩, rfl⟩, fun hg' => by simp [hg] at hg', hp⟩
      refine ⟨((hserves.threaded hm).queued hq).trans hbody, ?_⟩
      rcases hs.stays_of_due hf hj hd hv hl ho with ⟨f', hf', hst, hv'⟩ | ha
      · obtain ⟨hready, hanswer⟩ := (hs.steps hl).answerable ho hf' (hst.job.trans hj) hd hv'
        exact .inl ⟨f', hf', hst.elsewhere (by simp [hq]), hv'.waits, hready, hanswer⟩
      · exact .inr ha
    · rcases hs.stays_of_started hf hj hd hm hq hl ho with hst | ⟨o, hleads, ha⟩
      · exact .inl hst
      · exact .inr ⟨o, hbody ▸ (hserves.threaded hm).leads.trans hleads, hleads, ha⟩
  · have hu := hr.underway hh
    have hopen := hu.open_of_later (later_run s fuel) ho
    exact ⟨((sound_atRest hu).answerable hopen hf hj hd (due_atRest hv)).1, answered_in_turn hu hf hj hd hv hk ho⟩
  · obtain ⟨he, hcalls, hf, ho⟩ := receive_cancels hc
    refine ⟨he, hcalls, hf, fun hfired t => ?_, ho⟩
    rw [Bool.eq_iff_iff, hf t]
    constructor
    · rintro (ht | ⟨-, i, k, hn, hk, rfl⟩)
      · exact ht
      · exact hfired i k hn hk
    · exact .inl

/-- One method of each mode that waits: a coroutine that never ends, and a threaded body that waits for a latch. -/
def patientHandlers : Registry (Handler Unit) :=
  { features :=
      (({} : Table String (Handler Unit)).insert "sleep" (.coroutine fun _ => .wait .forever (.done (.ok .null)))).insert "work"
        (.threaded fun _ => .wait (.latch "go") (.done (.ok (.bool true)))) }

/-- They are the only two. -/
theorem eq_of_find?_patientHandlers {origin : Origin} {name : String} {b : Handler Unit}
    (h : patientHandlers.find? origin name = some b) :
    b = .coroutine (fun _ => .wait .forever (.done (.ok .null))) ∨
      b = .threaded fun _ => .wait (.latch "go") (.done (.ok (.bool true))) := by
  cases origin with
  | builtin => cases h
  | command => cases h
  | user =>
    simp only [Registry.find?, patientHandlers, Table.find?_insert] at h
    split at h
    · exact .inr (Option.some.inj h).symm
    · split at h
      · exact .inl (Option.some.inj h).symm
      · cases h

theorem lawful_patientHandlers : patientHandlers.Lawful := by
  intro origin name b hb
  rcases eq_of_find?_patientHandlers hb with rfl | rfl
  · exact fun _ => trivial
  · exact fun _ => trivial

/-- The one worker is at work for the request `2`, the request `3` waits for it, and the coroutine of the request `1` waits too;
then all three are cancelled. -/
def cancelledAtWork : Session Unit :=
  (((((((Session.make patientHandlers {} 1 ()).feed (Message.request (.num 1) "sleep" .null).encode).feed
    (Message.request (.num 2) "work" .null).encode).feed (Message.request (.num 3) "work" .null).encode).run 3).feed
    (Message.cancellation (.num 1)).encode).feed (Message.cancellation (.num 2)).encode).feed
    (Message.cancellation (.num 3)).encode

/-- A fiber with what is known of its job and its place. -/
theorem exists_call {d : Duty} {m : Mode} {t : Token} {p : Place}
    (h : ((s.fibers.find? n).bind fun f => f.job.map fun j => (j.duty, j.mode, j.token, f.place)) = some (d, m, t, p)) :
    ∃ f j, s.fibers.find? n = some f ∧ f.job = some j ∧ j.duty = d ∧ j.mode = m ∧ j.token = t ∧ f.place = p := by
  obtain ⟨f, hf, h⟩ := Option.bind_eq_some_iff.mp h
  obtain ⟨j, hj, h⟩ := Option.map_eq_some_iff.mp h
  simp only [Prod.mk.injEq] at h
  exact ⟨f, j, hf, hj, h⟩

/-- In `cancelledAtWork` the requests `1` and `3` are answered as cancelled in the next two turns. The request `2` is answered with
what its body returns, when the latch is released. -/
theorem requests_end_by_mode_cancelledAtWork :
    patientHandlers.Lawful ∧ Reachable patientHandlers {} (atRest cancelledAtWork) ∧
    (∃ f j, j.mode = .coroutine ∧
      Answered 0 f j (.num 1) (.error .cancelled) (atRest cancelledAtWork) (atRest (cancelledAtWork.run 2))) ∧
    (∃ f j, f.place = .queued ∧
      Answered 2 f j (.num 3) (.error .cancelled) (atRest cancelledAtWork) (atRest (cancelledAtWork.run 2))) ∧
    ∃ f j, f.place = .worker ∧ cancelledAtWork.isFired j.token = true ∧
      Answered 1 f j (.num 2) (.ok (.bool true)) (atRest cancelledAtWork) (atRest ((cancelledAtWork.release "go").run 4)) := by
  have hr : Session.Reachable patientHandlers {} cancelledAtWork :=
    .feed (.feed (.feed (.run (.feed (.feed (.feed (.make 1 ()) _) _) _) 3) _) _) _
  have hx : Reachable patientHandlers {} (atRest cancelledAtWork) := ⟨_, hr, .refl⟩
  obtain ⟨-, hfibers, hturn, -⟩ := requests_end_by_mode patientHandlers {} (atRest cancelledAtWork) lawful_patientHandlers hx
  have hopen : (cancelledAtWork.run 2).site.connection.outgoing.closed = false := by decide +kernel
  refine ⟨lawful_patientHandlers, hx, ?_, ?_, ?_⟩
  · obtain ⟨f, j, hf, hj, hd, hm, ht, -⟩ := exists_call (s := cancelledAtWork) (n := 0) (d := .request (.num 1))
      (m := .coroutine) (t := .request 0) (p := .here) (by decide +kernel)
    have hv : cancelledAtWork.Verdict j f (.error .cancelled) := by
      refine .inl ⟨ht ▸ by decide +kernel, .inl ?_, rfl⟩
      simp [Job.isGuarded, hd, hm]
    exact ⟨f, j, hm, (hturn _ hr 0 f j (.num 1) _ 2 hf hj hd hv (by decide +kernel) hopen).2⟩
  · obtain ⟨f, j, hf, hj, hd, hm, ht, hp⟩ := exists_call (s := cancelledAtWork) (n := 2) (d := .request (.num 3))
      (m := .threaded) (t := .request 2) (p := .queued) (by decide +kernel)
    have hv : cancelledAtWork.Verdict j f (.error .cancelled) := .inl ⟨ht ▸ by decide +kernel, .inr ⟨hm, hp⟩, rfl⟩
    exact ⟨f, j, hp, (hturn _ hr 2 f j (.num 3) _ 2 hf hj hd hv (by decide +kernel) hopen).2⟩
  · obtain ⟨f, j, hf, hj, hd, hm, ht, hp⟩ := exists_call (s := cancelledAtWork) (n := 1) (d := .request (.num 2))
      (m := .threaded) (t := .request 1) (p := .worker) (by decide +kernel)
    have hfired : cancelledAtWork.isFired j.token = true := ht ▸ by decide +kernel
    obtain ⟨b, hb, hmode, -, hends, -⟩ := hfibers 1 f j (.num 2) hf hj hd
    have hl : Later cancelledAtWork ((cancelledAtWork.release "go").run 4) := (onward_release _ _).later.trans (later_run _ 4)
    have hgone : ((cancelledAtWork.release "go").run 4).fibers.contains 1 = false := by decide +kernel
    obtain ⟨-, -, hstarted, -⟩ := hends _ (steps_of_later hl) (by decide +kernel)
    rcases hstarted hm (by simp [hp]) with ⟨f', hf', -⟩ | ⟨o, ho, -, ha⟩
    · have hf' : ((cancelledAtWork.release "go").run 4).fibers.find? 1 = some f' := hf'
      simp [Table.contains, hf'] at hgone
    · refine ⟨f, j, hp, hfired, ?_⟩
      rcases eq_of_find?_patientHandlers hb with rfl | rfl
      · rw [hm] at hmode
        cases hmode
      · cases ho with
        | wait ho =>
          cases ho
          exact ha

/-- A coroutine that takes a look at the session before it ends, and a threaded body that ends at once. -/
def glancingHandlers : Registry (Handler Unit) :=
  { features :=
      (({} : Table String (Handler Unit)).insert "glance" (.coroutine fun _ => .act (fun s => s) fun _ => .done (.ok (.bool true)))).insert
        "reckon" (.threaded fun _ => .done (.ok (.bool true))) }

/-- A fiber is at work: its routine has not ended. -/
def isAtWork (f : Fiber Unit) : Bool :=
  match f.routine with
  | .done _ => false
  | .act .. | .reply .. | .wait .. | .invoke .. => true

/-- A request for one of them has come. -/
def asked (method : String) : Session Unit :=
  (Session.make glancingHandlers {} 1 ()).feed (Message.request (.num 1) method .null).encode

/-- The turn of its call has come so far, and the request is cancelled then. -/
def cancelledAt (method : String) (p : Phase) : Threads Unit :=
  { (atRest (asked method)).moved 0 p (asked method) with session := (asked method).feed (Message.cancellation (.num 1)).encode }

/-- The turn of a call that was asked for begins. -/
theorem exists_begun (method : String) (p : Place) (hp : p ≠ .worker) (hr : .fiber 0 ∈ (asked method).ready)
    (h : (((asked method).fibers.find? 0).map fun f => (f.place, (asked method).isFired f.call.token)) = some (p, false)) :
    ∃ f, (asked method).fibers.find? 0 = some f ∧ f.place = p ∧ (asked method).isFired f.call.token = false ∧
      Step (atRest (asked method)) ((atRest (asked method)).moved 0 .polled (asked method)) := by
  obtain ⟨f, hf, h⟩ := Option.map_eq_some_iff.mp h
  obtain ⟨rfl, hlive⟩ := Prod.mk.inj h
  exact ⟨f, hf, rfl, hlive, .move hf (.begins rfl hr hp fun _ => hlive)⟩

/-- Its turn has begun, and the coroutine has passed no node. -/
theorem reachable_cancelledAtGlance : Reachable glancingHandlers {} (cancelledAt "glance" .polled) := by
  obtain ⟨f, -, -, -, hbegins⟩ := exists_begun "glance" .here (by simp) (by decide +kernel) (by decide +kernel)
  exact ⟨asked "glance", .feed (.make 1 ()) _, .tail (.single hbegins) (.aside (.receive (asked "glance") _))⟩

/-- The token of a call that waits for a worker was looked at, and there is a worker for it. -/
theorem reachable_cancelledAtReckon : Reachable glancingHandlers {} (cancelledAt "reckon" .seating) := by
  obtain ⟨f, hf, hp, hlive, hbegins⟩ := exists_begun "reckon" .queued (by simp) (by decide +kernel) (by decide +kernel)
  have hlooks : Step ((atRest (asked "reckon")).moved 0 .polled (asked "reckon"))
      (((atRest (asked "reckon")).moved 0 .polled (asked "reckon")).moved 0 .seating (asked "reckon")) :=
    .move hf (.looks rfl hp hlive)
  have hphases : ((atRest (asked "reckon")).moved 0 .polled (asked "reckon")).moved 0 .seating (asked "reckon") =
      (atRest (asked "reckon")).moved 0 .seating (asked "reckon") := by
    simp only [moved, mk.injEq, true_and]
    funext m
    split <;> rfl
  rw [hphases] at hlooks
  exact ⟨asked "reckon", .feed (.make 1 ()) _, .tail (.tail (.single hbegins) hlooks) (.aside (.receive (asked "reckon") _))⟩

/-- A request of some mode is answered with a result of its own although its token had fired when its call was as it says. -/
def AnsweredAnyway (mode : Mode) (call : Fiber Unit → Prop) : Prop :=
  ∃ x y f j, Reachable glancingHandlers {} x ∧ x.session.fibers.find? 0 = some f ∧ f.job = some j ∧ j.duty = .request (.num 1) ∧
    j.mode = mode ∧ x.session.isFired j.token = true ∧ call f ∧ x.session.site.connection.queue = [] ∧ Steps x y ∧
    y.session.fibers.find? 0 = none ∧ y.session.site.connection.outgoing.closed = false ∧
    y.session.site.connection.queue = [.frame (.result (.num 1) (.bool true))]

/-- A coroutine that waits has been called, then the queue of the connection was closed. -/
def unheard : Session Unit :=
  (((Session.make patientHandlers {} 1 ()).feed (Message.request (.num 1) "sleep" .null).encode).run 3).dropWriter

/-- That the one answer to a coroutine's request is the error of a cancelled one, if its token fires before it has ended, is not so,
and that of a threaded one, if its token fires while it waits for a worker, need not be so either. In the middle of its turn, when the
token has fired and the body has not ended, a coroutine still ends with its own result; and a call that waited gets the worker for
which its token was looked at before. Where the queue is closed there is no answer. -/
theorem cancelled_request_ends_otherwise :
    AnsweredAnyway .coroutine (fun f => ∀ o, f.routine ≠ .done o) ∧ AnsweredAnyway .threaded (fun f => f.place = .queued) ∧
    Session.Reachable patientHandlers {} unheard ∧ unheard.site.connection.incoming.contains (.num 1) = true ∧
      ((unheard.feed (Message.cancellation (.num 1)).encode).run 3).site.connection.incoming.contains (.num 1) = false ∧
      ((unheard.feed (Message.cancellation (.num 1)).encode).run 3).site.connection.queue = [] := by
  refine ⟨?_, ?_, .dropWriter (.run (.feed (.make 1 ()) _) 3), by decide +kernel, by decide +kernel, by decide +kernel⟩
  · obtain ⟨f, j, hf, hj, hd, hm, ht, -⟩ := exists_call (s := (cancelledAt "glance" .polled).session) (n := 0)
      (d := .request (.num 1)) (m := .coroutine) (t := .request 0) (p := .here) (by decide +kernel)
    have hfired : (cancelledAt "glance" .polled).session.isFired (.request 0) = true := by decide +kernel
    have hsteps : Steps (cancelledAt "glance" .polled) (((cancelledAt "glance" .polled).go 0).go 0) :=
      .tail (.single (step_go rfl (by decide +kernel))) (step_go (by decide +kernel) (by decide +kernel))
    have hwork : ((cancelledAt "glance" .polled).session.fibers.find? 0).all isAtWork = true := by decide +kernel
    refine ⟨_, _, f, j, reachable_cancelledAtGlance, hf, hj, hd, hm, ht ▸ hfired, fun o ho => ?_, by decide +kernel, hsteps,
      by decide +kernel, by decide +kernel, by rfl⟩
    simp [hf, isAtWork, ho] at hwork
  · obtain ⟨f, j, hf, hj, hd, hm, ht, hp⟩ := exists_call (s := (cancelledAt "reckon" .seating).session) (n := 0)
      (d := .request (.num 1)) (m := .threaded) (t := .request 0) (p := .queued) (by decide +kernel)
    have hfired : (cancelledAt "reckon" .seating).session.isFired (.request 0) = true := by decide +kernel
    have hsome : ((cancelledAt "reckon" .seating).session.fibers.find? 0).isSome = true := by decide +kernel
    have hseated : Step (cancelledAt "reckon" .seating) ((cancelledAt "reckon" .seating).sit 0) := step_sit rfl hsome
    have hrest := sit_eq (x := cancelledAt "reckon" .seating) (n := 0) hsome fun m hm => phase_moved_of_ne hm _ _ _
    rw [hrest] at hseated
    have hsteps := Relation.ReflTransGen.trans (.single hseated)
      (steps_of_later (later_run ((cancelledAt "reckon" .seating).sit 0).session 3))
    exact ⟨_, _, f, j, reachable_cancelledAtReckon, hf, hj, hd, hm, ht ▸ hfired, hp, by decide +kernel, hsteps, by decide +kernel,
      by decide +kernel, by rfl⟩

end Threads

end Parley
