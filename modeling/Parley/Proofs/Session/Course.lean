import Parley.Proofs.Conversation.Jobs
import Parley.Proofs.Session.Cases
import Parley.Proofs.Session.Steps

/-!
# The course of a session

A session with lawful handlers follows a conversation: whatever it has done so far, there is a run of moves that leads to its
connection, and the jobs that are open after the run are those of its fibers (`Session.Follows`). Each part of a session keeps
to this; between the parts a job can be in hand that is in no fiber yet, or no longer. So what holds after every run of a
conversation holds of the connection of every session.
-/

namespace Parley

namespace Session

variable {α : Type}

/-- The jobs of the fibers. -/
def jobs (s : Session α) : List Job := s.fibers.values.filterMap Fiber.job

/-- The session is where the conversation is. The jobs in hand are in no fiber. -/
structure At (v : Conversation) (inHand : List Job) (s : Session α) : Prop where
  connection : s.site.connection = v.connection
  jobs : v.jobs.Perm (inHand ++ s.jobs)
  handlers : s.handlers.Lawful
  fibers : ∀ n f, s.fibers.find? n = some f → f.Lawful ∧ n < s.nextFiber

/-- The session is where a run of the conversation leads. -/
def Follows (first : Conversation) (inHand : List Job) (s : Session α) : Prop := ∃ ms, At (first.run ms) inHand s

/-! ## Calls that go on -/

/-- The jobs of a session are those of its calls. -/
theorem jobs_eq_calls (s : Session α) : s.jobs = s.calls.filterMap fun e => e.2.job := by
  simp only [jobs, Table.values, calls, List.filterMap_map]
  rfl

/-- A call in progress is the bare state of a fiber. -/
theorem mem_calls_iff {s : Session α} {n : Nat} {g : Fiber α} :
    (n, g) ∈ s.calls ↔ ∃ f, s.fibers.find? n = some f ∧ f.bare = g := by
  simp only [calls, List.mem_map, Prod.exists, Prod.mk.injEq]
  constructor
  · rintro ⟨m, f, hm, rfl, rfl⟩
    exact ⟨f, Table.mem_entries_iff.mp hm, rfl⟩
  · rintro ⟨f, hf, rfl⟩
    exact ⟨n, f, Table.mem_entries_iff.mpr hf, rfl, rfl⟩

theorem lawful_bare_iff {f : Fiber α} : f.bare.Lawful ↔ f.Lawful :=
  ⟨fun h => ⟨h.routine, h.callers⟩, fun h => ⟨h.routine, h.callers⟩⟩

/-- Setting a fiber aside commutes with what goes on. -/
theorem Onward.without {s s' : Session α} (h : Onward s s') (n : Nat) : Onward (s.without n) (s'.without n) := by
  refine ⟨h.connection, ?_, h.handlers, h.nextFiber, h.ready, h.parked, h.running⟩
  have hc (s : Session α) : (s.without n).calls = s.calls.filter fun e => e.1 ≠ n := by
    simp [Session.calls, Session.without, Table.erase, List.filter_map, Function.comp_def]
  rw [hc, hc]
  exact h.calls.filter _

namespace Follows

variable {first : Conversation} {inHand : List Job} {s s' : Session α}

/-- The handlers are lawful all along. -/
theorem handlers (h : Follows first inHand s) : s.handlers.Lawful := h.elim fun _ h => h.handlers

/-- Whose turn it is has no part in the conversation. -/
theorem congr (h : Follows first inHand s) (hc : s'.site.connection = s.site.connection) (hf : s'.fibers = s.fibers)
    (hh : s'.handlers = s.handlers) (hn : s'.nextFiber = s.nextFiber) : Follows first inHand s' := by
  obtain ⟨ms, h⟩ := h
  refine ⟨ms, hc.trans h.connection, ?_, hh ▸ h.handlers, ?_⟩
  · rw [Session.jobs, hf]
    exact h.jobs
  · rw [hf, hn]
    exact h.fibers

/-- What goes on by itself keeps to the conversation. -/
theorem onward (h : Follows first inHand s) (ho : Onward s s') : Follows first inHand s' := by
  obtain ⟨ms, hc, hj, hh, hf⟩ := h
  obtain ⟨ms', -, hr⟩ := ho.connection
  have hrun : first.run (ms ++ ms') = ⟨s'.site.connection, (first.run ms).jobs⟩ := by
    rw [Conversation.run_append, ← hr, hc]
  refine ⟨ms ++ ms', by rw [hrun], ?_, ho.handlers ▸ hh, fun n f hn => ?_⟩
  · rw [hrun]
    refine hj.trans (.append_left _ ?_)
    rw [jobs_eq_calls, jobs_eq_calls]
    exact (ho.calls.filterMap _).symm
  · obtain ⟨g, hg, hb⟩ := mem_calls_iff.mp (ho.calls.mem_iff.mp (mem_calls_iff.mpr ⟨f, hn, rfl⟩))
    obtain ⟨hl, hlt⟩ := hf n g hg
    rw [ho.nextFiber, ← lawful_bare_iff, ← hb, lawful_bare_iff]
    exact ⟨hl, hlt⟩

/-- The fibers are lawful, and their numbers are below the next one. -/
theorem fiber (h : Follows first inHand s) {n : Nat} {f : Fiber α} (hf : s.fibers.find? n = some f) :
    f.Lawful ∧ n < s.nextFiber :=
  h.elim fun _ h => h.fibers n f hf

/-- A fiber that is set aside leaves its job in hand. -/
theorem take (h : Follows first inHand s) {n : Nat} {f : Fiber α} (hf : s.fibers.find? n = some f) :
    Follows first (f.job.toList ++ inHand) (s.without n) := by
  obtain ⟨ms, hc, hj, hh, hl⟩ := h
  refine ⟨ms, hc, hj.trans ?_, hh, fun m g hg => ?_⟩
  · have hp := (Table.values_perm_erase hf).filterMap Fiber.job
    have hs : s.jobs.Perm (f.job.toList ++ (s.without n).jobs) := by
      cases hfj : f.job <;> simpa [Session.jobs, Session.without, hfj] using hp
    rw [List.append_assoc]
    exact (hs.append_left inHand).trans (List.perm_append_comm_assoc _ _ _)
  · exact hl m g (find?_of_without hg)

/-- A fiber that was set aside comes back with its job. -/
theorem put {n : Nat} {f : Fiber α} (h : Follows first (f.job.toList ++ inHand) (s.without n)) (hf : f.Lawful)
    (hn : n < s.nextFiber) : Follows first inHand (s.store n f) := by
  obtain ⟨ms, hc, hj, hh, hl⟩ := h
  refine ⟨ms, hc, hj.trans ?_, hh, fun m g hg => ?_⟩
  · have hs : (f.job.toList ++ (s.without n).jobs).Perm (s.store n f).jobs := by
      have he : (s.store n f).jobs = (s.without n).jobs ++ f.job.toList := by
        cases hfj : f.job <;> simp [Session.jobs, Session.without, store, Table.insert, Table.values, hfj]
      rw [he]
      exact List.perm_append_comm
    rw [List.append_assoc]
    exact (List.perm_append_comm_assoc _ _ _).trans (hs.append_left inHand)
  · rcases find?_of_store hg with ⟨rfl, rfl⟩ | hg
    · exact ⟨hf, hn⟩
    · exact hl m g hg

/-- The number of the next fiber is free, and can be used up. -/
theorem numbered (h : Follows first inHand s) :
    Follows first inHand ({ s with nextFiber := s.nextFiber + 1 }.without s.nextFiber) := by
  have hn : s.fibers.find? s.nextFiber = none :=
    Option.eq_none_iff_forall_ne_some.mpr fun f hf => Nat.lt_irrefl _ (h.fiber hf).2
  obtain ⟨ms, hc, hj, hh, hl⟩ := h
  have he : s.fibers.erase s.nextFiber = s.fibers := Table.erase_of_find?_eq_none hn
  refine ⟨ms, hc, ?_, hh, fun n f hf => ?_⟩
  · simpa [Session.jobs, Session.without, he] using hj
  · have hf' : s.fibers.find? n = some f := by simpa [Session.without, he] using hf
    exact ⟨(hl n f hf').1, Nat.lt_succ_of_lt (hl n f hf').2⟩

/-- A call that begins takes its job over. -/
theorem spawn {f : Fiber α} (h : Follows first (f.job.toList ++ inHand) s) (hf : f.Lawful) : Follows first inHand (s.spawn f) :=
  (h.numbered.put hf (Nat.lt_succ_self _)).onward (onward_enqueue _ _)

end Follows

/-! ## Jobs -/

/-- The fiber of a job is lawful. -/
theorem lawful_fiberOf {s : Session α} (hh : s.handlers.Lawful) (j : Job) : (s.fiberOf j).Lawful := by
  refine ⟨?_, by simp [fiberOf]⟩
  simp only [fiberOf]
  split
  · rename_i h hf
    exact (hh _ _ h hf).routine _
  · trivial

/-- A direct handler does no more than our side may. -/
theorem runDirect_onward {s : Session α} (hh : s.handlers.Lawful) (j : Job) : Onward s (s.runDirect j).2 := by
  unfold runDirect
  split
  · rename_i run hf
    exact onward_site (hh _ _ _ hf j.call s.site)
  · exact .refl s

/-- Behind the job of a user's handler of a notification no job follows. -/
theorem handBack_next {s : Session α} {j next : Job} {o : Outcome} (h : (s.handBack j o).2 = some next) (s' : Session α)
    (o' : Outcome) : (s'.handBack next o').2 = none := by
  have hn : next.duty = .notification := by
    simp only [handBack, Connection.complete] at h
    cases hd : j.duty with
    | builtin =>
      rw [hd] at h
      obtain ⟨mode, -, rfl⟩ := Option.map_eq_some_iff.mp h
      rfl
    | _ => simp [hd] at h
  simp [handBack, Connection.complete, hn]

namespace Follows

variable {first : Conversation} {inHand : List Job} {s : Session α}

/-- The session makes a move of the conversation: it takes the connection over, and what of the jobs is in no fiber is in hand. -/
theorem move {ms : List Move} (h : At (first.run ms) inHand s) {m : Move} {connection : Connection} {js : List Job}
    (hm : (first.run ms).step m = ⟨connection, js⟩) {inHand' : List Job} (hj : js.Perm (inHand' ++ s.jobs)) :
    Follows first inHand' (s.withConnection connection).rouse := by
  have hr : first.run (ms ++ [m]) = ⟨connection, js⟩ := by
    rw [Conversation.run_append, Conversation.run_cons, Conversation.run_nil, hm]
  have hs : Follows first inHand' (s.withConnection connection) :=
    ⟨ms ++ [m], by rw [hr, withConnection], by rw [hr]; exact hj, h.handlers, h.fibers⟩
  exact hs.onward (onward_rouse _)

/-- The outcome of a job is handed back: the job ends, and the one that follows is in hand. -/
theorem handBack {j : Job} (h : Follows first (j :: inHand) s) (o : Outcome) :
    Follows first ((s.handBack j o).2.toList ++ inHand) (s.handBack j o).1 := by
  obtain ⟨ms, h⟩ := h
  obtain ⟨n, hn, hi⟩ := List.getElem_of_mem (h.jobs.mem_iff.mpr List.mem_cons_self)
  have hi : (first.run ms).jobs[n]? = some j := List.getElem?_eq_some_iff.mpr ⟨hn, hi⟩
  obtain ⟨before, after, hb, he⟩ := Conversation.eraseIdx_split hi
  have hm : (first.run ms).step (.finish n o) =
      ⟨(s.site.connection.complete j o).1, before ++ after ++ (s.site.connection.complete j o).2.toList⟩ := by
    simp only [Conversation.step, hi, Conversation.absorb, he, h.connection]
  have hj := h.jobs
  rw [hb] at hj
  have hr : (before ++ after).Perm (inHand ++ s.jobs) := (List.perm_middle.symm.trans hj).cons_inv
  have hp := List.perm_append_comm.trans (hr.append_left (s.site.connection.complete j o).2.toList)
  rw [← List.append_assoc] at hp
  exact move h hm hp

/-- A job whose outcome is handed back is no longer in hand, nor is the one that follows. -/
theorem settled {j : Job} {o : Outcome} {s' : Session α} (h : Follows first (j :: inHand) s) (hs : Settled s j o s') :
    Follows first inHand s' := by
  have hb := h.handBack o
  cases hs with
  | last he =>
    rw [he] at hb
    exact hb
  | @done s₁ s₂ next o' he hd =>
    rw [he] at hb
    have hr := hb.onward (runDirect_onward hb.handlers next)
    rw [hd] at hr
    have hf := hr.handBack o'
    rw [handBack_next (s := s) (by rw [he]) s₂ o'] at hf
    exact hf
  | begun he hm =>
    rw [he] at hb
    exact hb.spawn (lawful_fiberOf hb.handlers _)

/-- Whoever ends, the session keeps to the conversation. -/
theorem ended {job : Option Job} {o : Outcome} {s' : Session α} (h : Follows first (job.toList ++ inHand) s)
    (he : Ended s o job s') : Follows first inHand s' := by
  cases he with
  | alone => exact h
  | settled hs => exact h.settled hs

/-- A fiber that was set aside ends early. -/
theorem dismiss {n : Nat} {f : Fiber α} (h : Follows first inHand (s.without n)) (hf : f.Lawful) (hn : n < s.nextFiber) :
    Follows first inHand (s.dismiss n f) := by
  have hg := onward_giveBack s f
  have hw := h.onward (hg.without n)
  unfold Session.dismiss
  split
  · exact put (f := { f with job := none, guarded := false, callers := [] }) hw ⟨hf.routine, by simp⟩ (hg.nextFiber ▸ hn)
  · exact hw

/-- A fiber that was set aside has its turn. -/
theorem driven {n : Nat} {f : Fiber α} {s' : Session α} (h : Follows first (f.job.toList ++ inHand) (s.without n))
    (hf : f.Lawful) (hn : n < s.nextFiber) (hd : Driven s n f s') : Follows first inHand s' := by
  have hl : s.handlers.Lawful := h.handlers
  cases hd with
  | cancelled _ _ he => exact (h.dismiss hf hn).ended he
  | @waits s₁ f' _ hd =>
    have hr := drive_onward (s := s) hl turnBound n hf
    rw [hd] at hr
    obtain ⟨hl, hc⟩ : f'.Lawful ∧ f.Continues f' := hr.progress
    have hw : Follows first (f'.job.toList ++ inHand) (s₁.without n) :=
      (hc.job ▸ h.onward (hr.onward.without n)).congr rfl rfl rfl rfl
    exact (hw.put hl (hr.onward.nextFiber ▸ hn)).congr rfl rfl rfl rfl
  | @ends s₁ _ o _ hd he =>
    have hr := drive_onward (s := s) hl turnBound n hf
    rw [hd] at hr
    have hw : Follows first (f.job.toList ++ inHand) (s₁.without n) :=
      (h.onward (hr.onward.without n)).congr rfl rfl rfl rfl
    exact hw.ended he

end Follows

/-! ## Steps -/

namespace Follows

variable {first : Conversation} {inHand : List Job} {s : Session α}

/-- A payload is handed to the connection, and the job that comes of it begins. -/
theorem handled (h : Follows first inHand s) {payload : Bytes} {s' : Session α} (hs : Handled s payload s') :
    Follows first inHand s' := by
  have hr : Follows first ((s.site.connection.receive payload).2.toList ++ inHand)
      (s.withConnection (s.site.connection.receive payload).1).rouse := by
    obtain ⟨ms, h⟩ := h
    have hm : (first.run ms).step (.receive payload) =
        ⟨(s.site.connection.receive payload).1, (first.run ms).jobs ++ (s.site.connection.receive payload).2.toList⟩ := by
      simp only [Conversation.step, Conversation.absorb, h.connection]
    have hp := List.perm_append_comm.trans (h.jobs.append_left (s.site.connection.receive payload).2.toList)
    rw [← List.append_assoc] at hp
    exact move h hm hp
  cases hs with
  | answered he =>
    rw [he] at hr
    exact hr
  | @done connection j s₁ _ o he hd hs =>
    rw [he] at hr
    have hr := hr.onward (runDirect_onward hr.handlers j)
    rw [hd] at hr
    exact hr.settled hs
  | begun he hm h₁ hd =>
    rw [he, h₁] at hr
    exact hr.numbered.driven (lawful_fiberOf hr.handlers _) (Nat.lt_succ_self _) hd
  | spawned he hm h₁ =>
    rw [he, h₁] at hr
    exact hr.spawn (lawful_fiberOf hr.handlers _)

/-- A fiber on a worker goes on. -/
theorem worked (h : Follows first inHand s) {n : Nat} {s' : Session α} (hs : Worked s n s') : Follows first inHand s' := by
  -- Whatever the fiber has come to, it goes back with its job.
  have hp {k : Nat} {s₁ : Session α} {f f' f'' : Fiber α} {moved : Bool} (hf : s.fibers.find? n = some f)
      (hd : s.driveWorker k f false = (s₁, f', moved)) (hj : f''.job = f'.job) (hl : f'.Lawful → f''.Lawful) :
      Follows first inHand (s₁.store n f'') := by
    obtain ⟨ho, hl', ha⟩ := (labors_of_eq hd).onward (h.fiber hf).1
    have hw := (h.take hf).onward (ho.without n)
    exact put (by rw [hj, ha.job]; exact hw) (hl hl') (ho.nextFiber ▸ (h.fiber hf).2)
  cases hs with
  | @back k s₁ f f' o hf hd hr =>
    have hq : Follows first inHand (s₁.store n { f' with place := .here }) :=
      hp hf hd rfl fun hl => ⟨hl.routine, hl.callers⟩
    have hr : Follows first inHand
        { s₁.store n { f' with place := .here } with running := s₁.running.filter (· ≠ n) } :=
      hq.congr rfl rfl rfl rfl
    exact hr.onward ((onward_freeWorker _).trans (onward_wake _ n))
  | stays hf hd => exact hp hf hd rfl id

/-- A step that uses up no turn keeps to the conversation. -/
theorem aside (h : Follows first inHand s) (hs : Aside s s') : Follows first inHand s' := by
  cases hs with
  | onward ho => exact h.onward ho
  | worker hn hw => exact h.worked hw
  | receive payload => exact h.handled (handled_receive s payload)
  | begin hr => exact h.spawn ⟨hr, by simp⟩

/-- One step keeps to the conversation. -/
theorem next (h : Follows first inHand s) (hs : Next s s') : Follows first inHand s' := by
  cases hs with
  | aside hs => exact h.aside hs
  | pass => exact h.congr rfl rfl rfl rfl
  | @turn n f hn hf =>
    have ht : Follows first (f.job.toList ++ inHand) ((s.taken (.fiber n)).without n) := (h.take hf).congr rfl rfl rfl rfl
    exact ht.driven (h.fiber hf).1 (h.fiber hf).2 (driven_driveFiber _ n f)

/-- After any number of steps the session is still where a run of the conversation leads. -/
theorem later (h : Follows first inHand s) (hs : Later s s') : Follows first inHand s' := by
  induction hs with
  | refl => exact h
  | tail _ hs ih => exact ih.next hs

end Follows

end Session

end Parley
