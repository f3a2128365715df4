import Parley.Proofs.Session.Modes
import Parley.Proofs.Session.Serving

/-!
# Outcomes of a kind

A coroutine that, wherever it acts at the connection it was made for, comes to outcomes of one kind only (`Routine.ComesTo`), does so
in a session, too, whatever it waits for, whoever it calls and whatever else happens: as long as it is at work it can come to no other
outcome, and when its request is answered it is with one of them (`Session.Underway.replied`). What it comes to may depend on what
those come back with whom it calls, and on its token (`Aim`).
-/

namespace Parley

variable {α : Type}

/-- What a call is to come to, and what is taken for granted of whatever it meets. -/
structure Aim where
  /-- What the connections route where it acts. -/
  routes : Registry Mode
  /-- What a call of a feature of the user comes back with; with none, if there is no such feature. -/
  back : String → Option Outcome → Prop
  /-- That its token fires. -/
  fired : Prop
  /-- What it ends with. -/
  reached : Outcome → Prop

/-- Handlers are such as an aim takes them for. -/
structure Aim.BorneOut (a : Aim) (handlers : Registry (Handler α)) : Prop where
  routes : handlers.map Handler.mode = a.routes
  missing : ∀ name, handlers.find? .user name = none → a.back name none
  found : ∀ name b, handlers.find? .user name = some b → ∀ c o, (b.routine c).Leads (.done o) → a.back name (some o)
  cancelled : a.fired → a.reached (.error .cancelled) ∧ ∀ name, a.back name (some (.error .cancelled))

variable {a : Aim}

namespace Routine

/-- Whatever a routine finds at the sites where it acts, and whatever it gets, it ends with what is aimed at. -/
def ComesTo (a : Aim) : Routine α → Prop
  | .done o => a.reached o
  | .act _ next => ∀ s, s.connection.routes = a.routes → (next s).ComesTo a
  | .reply _ next => ∀ r, (next r).ComesTo a
  | .wait _ next => next.ComesTo a
  | .invoke name _ next => ∀ o, a.back name o → (next o).ComesTo a

/-- A routine that somebody called may come back with an outcome. -/
def MayReturn (a : Aim) (r : Routine α) (o : Outcome) : Prop := r.Leads (.done o) ∨ a.fired ∧ o = .error .cancelled

/-- Whatever a routine comes back with, and those who called it after it, the outermost ends with what is aimed at. -/
def ComesBackTo (a : Aim) : List (Option Outcome → Routine α) → Routine α → Prop
  | [], r => r.ComesTo a
  | next :: callers, r => ∀ o, r.MayReturn a o → ComesBackTo a callers (next (some o))

end Routine

/-- A call ends with what is aimed at. -/
def Fiber.ComesTo (a : Aim) (f : Fiber α) : Prop := Routine.ComesBackTo a f.callers f.routine

namespace Fiber.ComesTo

variable {f f' : Fiber α}

/-- With the same callers the routine may go on. One that nobody called still has to come to what is aimed at. -/
theorem leads (hc : f.ComesTo a) (hcs : f'.callers = f.callers) (hl : f.routine.Leads f'.routine)
    (halone : f.callers = [] → f.routine.ComesTo a → f'.routine.ComesTo a) : f'.ComesTo a := by
  unfold Fiber.ComesTo at hc ⊢
  rw [hcs]
  cases he : f.callers with
  | nil =>
    rw [he] at hc
    exact halone he hc
  | cons next callers =>
    rw [he] at hc
    exact fun o ho => hc o (ho.imp_left hl.trans)

/-- What was called comes back. -/
theorem returned {o : Outcome} {next : Option Outcome → Routine α} {callers : List (Option Outcome → Routine α)}
    (hc : f.ComesTo a) (hcs : f.callers = next :: callers) (ho : f.routine.MayReturn a o) (hcs' : f'.callers = callers)
    (hr : f'.routine = next (some o)) : f'.ComesTo a := by
  unfold Fiber.ComesTo at hc ⊢
  rw [hcs] at hc
  rw [hcs', hr]
  exact hc o ho

/-- A feature of the user is called. -/
theorem called {handlers : Registry (Handler α)} {name : String} {params : Json} {next : Option Outcome → Routine α} {b : Handler α}
    (hc : f.ComesTo a) (hb : a.BorneOut handlers) (hr : f.routine = .invoke name params next)
    (hh : handlers.find? .user name = some b) {c : Call} (hcs : f'.callers = next :: f.callers) (hr' : f'.routine = b.routine c) :
    f'.ComesTo a := by
  unfold Fiber.ComesTo at hc ⊢
  rw [hcs, hr']
  rw [hr] at hc
  intro o ho
  cases he : f.callers with
  | nil =>
    rw [he] at hc
    refine hc (some o) ?_
    rcases ho with hl | ⟨hf, rfl⟩
    · exact hb.found name b hh c o hl
    · exact (hb.cancelled hf).2 name
  | cons outer callers =>
    rw [he] at hc
    exact fun o' ho' => hc o' (ho'.imp_left .invoke)

/-- While a call stays, it still comes to what is aimed at: on a worker there is only what it has called. -/
theorem stays (hc : f.ComesTo a) (hs : f.Stays f') (hn : f.place ≠ .here → f.callers ≠ []) : f'.ComesTo a := by
  refine hc.leads hs.callers hs.routine fun he hr => ?_
  have hp : f.place = .here := Classical.not_not.mp fun hne => hn hne he
  rwa [Fiber.routine_of_bare (hs.elsewhere (by simp [hp]))]

end Fiber.ComesTo

namespace Connection

/-- A token that has fired stays fired, whatever our side does. -/
theorem ActsTo.isFired {c c' : Connection} {t : Token} (h : c.ActsTo c') (ht : c.isFired t = true) : c'.isFired t = true := by
  obtain ⟨ms, -, hrun⟩ := h
  have hf := Conversation.isFired_run (v := ⟨c, []⟩) ht ms
  rwa [hrun] at hf

end Connection

namespace Session

/-- A turn ends with what is aimed at, or the call that waits will. -/
def Pause.ComesTo (a : Aim) : Pause α → Prop
  | .waits f => f.ComesTo a
  | .ends o => a.reached o

/-- The call that goes on will end with what is aimed at, and has callers if it is not here; or its turn is over. -/
def Progress.ComesTo (a : Aim) : Progress α → Prop
  | .goesOn f => f.ComesTo a ∧ (f.place ≠ .here → f.callers ≠ [])
  | .pauses p => p.ComesTo a

variable {handlers : Registry (Handler α)} {catalogue : Catalogue} {s s' t : Session α} {n : Nat} {f f' : Fiber α} {j : Job}
  {id : MessageId}

/-- At a node a call that comes to what is aimed at ends with it, or goes on to come to it. -/
theorem Node.comesTo {p : Progress α} (h : Node s n f s' p) (hb : a.BorneOut s.handlers) (hr : s.site.connection.routes = a.routes)
    (hfired : s.isFired f.call.token = true → a.fired) (hc : f.ComesTo a) (hn : f.place ≠ .here → f.callers ≠ []) :
    p.ComesTo a := by
  have here (hp : f.place = .here) (callers : List (Option Outcome → Routine α)) : f.place ≠ .here → callers ≠ [] :=
    fun hne => absurd hp hne
  have queued (hp : f.place = .queued) : f.callers ≠ [] := hn (by simp [hp])
  cases h with
  | onWorker | queues | unanswered => exact hc
  | refused hp ht hcs => exact ⟨hc.returned hcs (.inr ⟨hfired ht, rfl⟩) rfl rfl, fun hne => absurd rfl hne⟩
  | dismissed hp ht hcs => exact absurd hcs (queued hp)
  | seated | hired => exact hc.leads rfl (.refl _) fun _ => id
  | returns hp hr' hcs => exact ⟨hc.returned hcs (.inl (hr' ▸ .refl _)) rfl rfl, here hp _⟩
  | ends hp hr' hcs =>
    unfold Fiber.ComesTo at hc
    rw [hcs, hr'] at hc
    exact hc
  | acts hp hr' => exact ⟨hc.leads rfl (hr' ▸ .act (.refl _)) fun _ hf => by rw [hr'] at hf; exact hf s.site hr, here hp _⟩
  | answered hp hr' => exact ⟨hc.leads rfl (hr' ▸ .reply (.refl _)) fun _ hf => by rw [hr'] at hf; exact hf _, here hp _⟩
  | passes hp hr' => exact ⟨hc.leads rfl (hr' ▸ .wait (.refl _)) fun _ hf => by rw [hr'] at hf; exact hf, here hp _⟩
  | waits =>
    rw [timed_eq]
    exact hc.leads rfl (.refl _) fun _ => id
  | @misses name params next hp hr' hh =>
    exact ⟨hc.leads rfl (hr' ▸ .invoke (.refl _)) fun _ hf => by rw [hr'] at hf; exact hf none (hb.missing name hh), here hp _⟩
  | offloads hp hr' hh => exact ⟨hc.called hb hr' hh rfl rfl, fun _ => List.cons_ne_nil _ _⟩
  | invokes hp hr' hh => exact ⟨hc.called hb hr' hh rfl rfl, here hp _⟩

/-- At its turn a call that comes to what is aimed at ends with it, or goes on to come to it. -/
theorem comesTo_drive (hh : s.handlers.Lawful) (hf : f.Lawful) (hb : a.BorneOut s.handlers)
    (hr : s.site.connection.routes = a.routes) (hc : f.ComesTo a) (hn : f.place ≠ .here → f.callers ≠ []) (fuel n : Nat)
    (hfired : (s.drive fuel n f).1.isFired f.call.token = true → a.fired) : (s.drive fuel n f).2.ComesTo a := by
  induction fuel generalizing s f with
  | zero => exact hc
  | succ fuel ih =>
    have hnode := node_cases s n f
    have hkeeps := hnode.keeps hh hf
    have hlater : s.isFired f.call.token = true → (s.drive (fuel + 1) n f).1.isFired f.call.token = true :=
      (drive_onward hh (fuel + 1) n hf).onward.connection.isFired
    have hcomes := hnode.comesTo hb hr (fun ht => hfired (hlater ht)) hc hn
    rw [drive_succ] at hfired ⊢
    generalize (s.node n f).1 = s', (s.node n f).2 = p at hkeeps hcomes hfired
    cases p with
    | pauses p => exact hcomes
    | goesOn f' =>
      -- Where the session goes on by itself, it keeps its handlers and its routes.
      obtain ⟨ho, hf', hcont⟩ := hkeeps.goesOn
      rw [← hcont.call] at hfired
      exact ih (ho.handlers ▸ hh) hf' (ho.handlers ▸ hb) (ho.connection.setup.1.trans hr) hcomes.1 hcomes.2 hfired

/-- On the way from one state to a later one, the request of an id is answered with an outcome, behind all that was queued before. -/
def Replied (id : MessageId) (o : Outcome) (s s' : Session α) : Prop :=
  ∃ (t t' : Session α) (c : Connection), Later s t ∧ Next t t' ∧ Later t' s' ∧ c.incoming.contains id = true ∧
    t'.site.connection = c.finish id o ∧ t'.site.connection.queue = c.queue ++ c.kept [.frame (Reply.ofOutcome id o)]

/-- At its turn the call of a request waits, or hands the outcome to the connection, which our side may have changed meanwhile. -/
theorem driveFiber_cases (hh : s.handlers.Lawful) (hf : f.Lawful) (hj : f.job = some j) (hd : j.duty = .request id) (n : Nat) :
    (∃ f', (s.driveFiber n f).fibers.find? n = some f' ∧ f.Continues f' ∧ (s.drive turnBound n f).2 = .waits f' ∧
        (s.driveFiber n f).site = (s.drive turnBound n f).1.site) ∨
      ∃ c o, s.site.connection.ActsTo c ∧ (s.driveFiber n f).site.connection = c.finish id o ∧
        (s.isFired f.call.token = true ∧ o = .error .cancelled ∨
          (s.drive turnBound n f).2 = .ends o ∧ (s.drive turnBound n f).1.site.connection = c) := by
  unfold driveFiber
  split
  · rename_i hg
    refine .inr ⟨s.site.connection, .error .cancelled, .refl _, ?_, .inl ⟨(Bool.and_eq_true_iff.mp hg).2, rfl⟩⟩
    rw [hj]
    simp only [connection_settle hd]
    split
    · exact congrArg (Connection.finish · id _) (congrArg Site.connection (site_giveBack s f))
    · exact congrArg (Connection.finish · id _) (congrArg Site.connection (site_giveBack s f))
  · have hdrive := drive_onward (s := s) hh turnBound n hf
    split
    · rename_i s₁ f' he
      rw [he] at hdrive
      exact .inl ⟨f', find?_store_self _ _ _, hdrive.progress.2, by rw [he], by rw [he]; rfl⟩
    · rename_i s₁ o he
      rw [he] at hdrive
      refine .inr ⟨s₁.site.connection, o, hdrive.onward.connection, ?_, .inr (by rw [he]; exact ⟨rfl, rfl⟩)⟩
      rw [hj]
      simp only [connection_settle hd]

/-- A coroutine that comes to what is aimed at is at work on it, until its request is answered with it. -/
theorem Underway.replied (h : Underway handlers catalogue s) (hf : s.fibers.find? n = some f) (hj : f.job = some j)
    (hd : j.duty = .request id) (hm : j.mode = .coroutine) (hb : a.BorneOut handlers) (hc : f.ComesTo a) (hs : Later s s')
    (hfired : s'.isFired j.token = true → a.fired) (ho : s'.site.connection.outgoing.closed = false) :
    (∃ f', s'.fibers.find? n = some f' ∧ f'.job = some j ∧ f'.ComesTo a) ∨ ∃ o, a.reached o ∧ Replied id o s s' := by
  induction hs with
  | refl => exact .inl ⟨f, hf, hj, hc⟩
  | @tail t t' hl hn ih =>
    have hu := h.later hl
    have hopen := hu.open_of_later (.single hn) ho
    rcases ih (fun ht => hfired (hu.isFired_of_later (.single hn) ht)) hopen with
      ⟨f', hf', hj', hc'⟩ | ⟨o, hp, u, u', c, hb, hnext, ha, hserved, hfin, hq⟩
    · have hserves := hu.orderly.serves n f' j hf' hj'
      have hnested := hserves.nested hm
      rcases hu.next_of_call hn hf' with ⟨f'', hf'', hst⟩ | ⟨hready, rfl⟩
      · exact .inl ⟨f'', hf'', hst.job.trans hj', hc'.stays hst hnested⟩
      -- The coroutine has its turn, which either leaves it at work or answers the request.
      · have hlawful : (t.taken (.fiber n)).handlers.Lawful := hu.follows.handlers
        have hfl := (hu.follows.fiber hf').1
        have hborne : a.BorneOut (t.taken (.fiber n)).handlers := hu.handlers.symm ▸ hb
        have hturn := comesTo_drive (s := t.taken (.fiber n)) hlawful hfl hborne (hu.routes.trans hb.routes) hc' hnested turnBound n
        rcases driveFiber_cases hlawful hfl hj' hd n with ⟨f'', hf'', hcont, he, hsite⟩ | ⟨c, o, hacts, hfin, hout⟩
        · rw [he] at hturn
          refine .inl ⟨f'', hf'', hcont.job.trans hj', hturn fun ht => hfired ?_⟩
          rw [hserves.token] at ht
          rwa [isFired, hsite]
        · have hp : a.reached o := by
            -- Either it was refused, since its token had fired, or the routine itself came to the outcome.
            rcases hout with ⟨ht, rfl⟩ | ⟨he, rfl⟩
            · exact (hb.cancelled (hfired (hu.isFired_of_later (.single hn) (hserves.token ▸ ht)))).1
            · rw [he] at hturn
              refine hturn fun ht => hfired ?_
              rw [hserves.token] at ht
              rw [isFired, hfin, Connection.finish_eq]
              simpa [Session.isFired, Connection.isFired] using ht
          have hserved : c.incoming.contains id = true := by
            have hco : c.outgoing.closed = false := by
              rw [hfin, Connection.finish_eq] at ho
              exact ho
            rw [(hacts.incoming hco).2]
            exact ((hu.follows.serves hopen).1 id).mpr ⟨j, mem_jobs hf' hj', by rw [hd]; rfl⟩
          refine .inr ⟨o, hp, t, _, c, hl, hn, .refl, hserved, hfin, ?_⟩
          rw [hfin, Connection.finish_eq]
          simp [hserved]
    · exact .inr ⟨o, hp, u, u', c, hb, hnext, ha.tail hn, hserved, hfin, hq⟩

end Session

end Parley
