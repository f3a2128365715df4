import Parley.Proofs.Handler.Sending
import Parley.Proofs.Session.Alone

/-!
# One function in all modes, in a session

A request for a handler that is made of a function is answered with what the function comes to, and reported if that is a failure
that was not declared, whichever way the handler was made of the function. A handler that calls another one gets from it what the
function comes to, too. By itself such a request takes a few turns of its own, and when it is over nothing else has changed: the
requests that are served, the calls in progress and the free workers are what they were. Whatever else happens meanwhile, the call
can always go on, or waits for a worker.
-/

namespace Parley

variable {α : Type}

namespace Handler

/-- A coroutine that calls another handler, and makes its outcome of what that comes to. -/
def relay (name : String) (pick : Json → Json) (conclude : Option Outcome → Outcome) : Handler α :=
  .coroutine fun c => .invoke name (pick c.params) fun o => .done (conclude o)

/-- A handler comes to an outcome by computing it in a mode, or by calling one that does. -/
inductive Yields (handlers : Registry (Handler α)) (outcome : Json → Outcome) (mode : Mode) : Handler α → Prop
  | computes {b : Handler α} (hm : b.mode = mode) (hc : b.Computes outcome) : Yields handlers outcome mode b
  | relays {name : String} {pick : Json → Json} {conclude : Option Outcome → Outcome} {b : Handler α} {inner : Json → Outcome}
    (hb : handlers.find? .user name = some b) (hm : b.mode = mode) (hc : b.Computes inner)
    (ho : ∀ params, conclude (some (inner (pick params))) = outcome params) :
    Yields handlers outcome mode (relay name pick conclude)

end Handler

/-- What the outcome of a request is for. -/
def Duty.ofRequest (id : MessageId) (method : String) : Duty :=
  if method = Connection.shutdownMethod then .shutdown id else .request id

/-- The job of a request has its id. -/
theorem Duty.id?_ofRequest (id : MessageId) (method : String) : (Duty.ofRequest id method).id? = some id := by
  unfold ofRequest
  split <;> rfl

/-- The params that the handler of a request gets: a command gets the arguments. -/
def Connection.handed (method : String) (sent : Json) : Json :=
  if method = commandMethod then .arr (((sent.field? "arguments").bind Json.arr?).getD []) else sent

/-- What the registry holds for a request is what the connection knows the mode of. -/
theorem Connection.target_of_calledBy {handlers : Registry (Handler α)} {c : Connection}
    (hr : c.routes = handlers.map Handler.mode) {id : MessageId} {method : String} {sent : Json} {b : Handler α}
    (hb : b ∈ handlers.calledBy (.request id method sent)) (token : Token) :
    ∃ origin name, handlers.find? origin name = some b ∧
      c.Target id method sent ⟨Duty.ofRequest id method, origin, name, b.mode, method, handed method sent, token⟩ := by
  by_cases hm : method = commandMethod
  · subst hm
    simp only [Registry.calledBy, if_true, Option.mem_toList, Option.bind_eq_some_iff] at hb
    obtain ⟨name, ⟨v, hv, hname⟩, hfind⟩ := hb
    refine ⟨.command, name, hfind, .inr ⟨by decide, ?_, rfl⟩⟩
    simp [route, handed, hv, hname, hr, Registry.find?_map, hfind]
  · simp only [Registry.calledBy, if_neg hm, Option.mem_toList, Registry.lookup, Option.map_eq_some_iff] at hb
    obtain ⟨⟨origin, b'⟩, hserving, rfl⟩ := hb
    have hmodes : c.routes.serving? method = some (origin, b'.mode) := by
      rw [hr, Registry.serving?_map, hserving]
      rfl
    refine ⟨origin, method, Registry.find?_of_serving? hserving, ?_⟩
    by_cases hs : method = shutdownMethod
    · exact .inl ⟨hs, hmodes, by simp [Duty.ofRequest, hs], rfl, by simp [handed, hm]⟩
    · exact .inr ⟨hs, by simp [route, handed, hm, hmodes], by simp [Duty.ofRequest, hs]⟩

namespace Session

variable {handlers : Registry (Handler α)} {catalogue : Catalogue} {s s' t : Session α} {n : Nat} {f f' g : Fiber α}
  {j : Job} {id : MessageId} {o o₁ : Outcome} {outcome : Json → Outcome} {mode : Mode} {b : Handler α} {payload : Bytes}
  {connection : Connection}

/-! ## From the payload on -/

/-- The call of a request whose handler only computes is ready to compute. -/
theorem computes_fiberOf {outcome : Json → Outcome} {b : Handler α} (hb : s.handlers.find? j.origin j.name = some b)
    (hc : b.Computes outcome) : (s.fiberOf j).Computes (outcome j.params) [] := by
  refine ⟨rfl, ?_⟩
  simp only [fiberOf, hb]
  exact hc.routine j.call

/-- The call of a request whose handler calls another one is about to do so. -/
theorem routine_fiberOf_relay {name : String} {pick : Json → Json} {conclude : Option Outcome → Outcome}
    (hb : s.handlers.find? j.origin j.name = some (Handler.relay name pick conclude)) :
    (s.fiberOf j).routine = .invoke name (pick j.params) fun o => .done (conclude o) := by
  simp only [fiberOf, hb]
  rfl

/-- A request for a direct handler that only computes is concluded as soon as it comes, and nothing else has changed. -/
theorem receive_computed (hr : s.site.connection.receive payload = (connection, some j)) (hd : j.duty.id? = some id)
    (hm : j.mode = .direct) (hbm : b.mode = j.mode) (hb : s.handlers.find? j.origin j.name = some b) (hc : b.Computes outcome) :
    (s.receive payload).1.site = { s.site with connection := (connection.complete j (outcome j.params)).1 } ∧
      (s.receive payload).1.fibers = s.fibers ∧ (s.receive payload).1.idle = s.idle ∧
      (s.receive payload).1.running = s.running := by
  obtain ⟨run, rfl⟩ : ∃ run, b = .direct run := by
    cases b with
    | direct run => exact ⟨run, rfl⟩
    | coroutine => rw [hm] at hbm; cases hbm
    | threaded => rw [hm] at hbm; cases hbm
  have hrun : ∀ site, run j.call site = (outcome j.params, site) := hc.direct run rfl j.call
  have hb' : (s.withConnection connection).rouse.handlers.find? j.origin j.name = some (.direct run) := by
    rw [handlers_rouse]
    exact hb
  simp only [receive, hr, hm, if_true, runDirect, hb', hrun, settle_of_id hd]
  simp only [site_rouse, fibers_rouse, idle_rouse, running_rouse, withConnection, and_self]

/-- A request has begun: its call has a turn, and nothing else has changed but the connection. -/
structure Opens (connection : Connection) (j : Job) (s s' : Session α) : Prop where
  site : s'.site = { s.site with connection }
  fibers : s'.fibers = s.fibers.insert s.nextFiber (s.fiberOf j)
  idle : s'.idle = s.idle
  running : s'.running = s.running
  parked : ∀ m ∈ s'.parked, m ∈ s.parked
  ready : .fiber s.nextFiber ∈ s'.ready

/-- A request that is not done at once begins. -/
theorem opens_receive (hr : s.site.connection.receive payload = (connection, some j)) (hd : j.duty.id? = some id)
    (hm : j.mode ≠ .direct) :
    Opens connection j s (s.receive payload).1 := by
  have hb : j.duty ≠ .builtin := fun he => by
    rw [he] at hd
    cases hd
  obtain ⟨-, hsite, -, hready⟩ := receive_leaves hr hm hb
  have hl : j.isInline = false := by simp [Job.isInline, hm, hb]
  have hf : (s.withConnection connection).rouse.fiberOf j = s.fiberOf j := by
    unfold fiberOf
    rw [handlers_rouse, withConnection]
  have hs : (s.receive payload).1 = (s.withConnection connection).rouse.spawn (s.fiberOf j) := by
    simp [receive, hr, hm, hl, hf]
  have hnext : (s.withConnection connection).rouse.nextFiber = s.nextFiber := nextFiber_rouse _
  refine ⟨hsite, ?_, ?_, ?_, fun m hp => ?_, hready⟩
  · rw [hs, Session.spawn, fibers_enqueue, store, fibers_rouse, hnext, withConnection]
  · rw [hs, Session.spawn, enqueue_eq, store, idle_rouse, withConnection]
  · rw [hs, Session.spawn, enqueue_eq, store, running_rouse, withConnection]
  · rw [hs, Session.spawn, enqueue_eq] at hp
    exact parked_rouse (s := s.withConnection connection) hp

/-- Whoever waited for a worker when a request began still waits, and nobody else does. -/
theorem Opens.nobodyWaits (hop : Opens connection j s s') (hst : Staffed none 0 s) (hw : s.NobodyWaits) : s'.NobodyWaits := by
  refine nobodyWaits_iff.mpr fun m hm g hmg hgq => ?_
  -- The call of the request itself has a turn, and so it does not wait.
  have hne : m ≠ s.nextFiber := fun he => Nat.lt_irrefl _ (he ▸ hst.parked m (hop.parked m hm))
  rw [hop.fibers, Table.find?_insert, if_neg hne] at hmg
  exact nobodyWaits_iff.mp hw m (hop.parked m hm) g hmg hgq

/-- By itself a request is concluded, and all that it has changed is the connection. -/
theorem Underway.exists_finished (h : Underway handlers catalogue s) (hst : Staffed none 0 s)
    (hr : s.site.connection.receive payload = (connection, some j)) (hd : j.duty.id? = some id)
    (hb : handlers.find? j.origin j.name = some b) (hbm : b.mode = j.mode) (hy : b.Yields handlers outcome mode)
    (ht : connection.isFired j.token = false) (hi : mode = .threaded → 0 < s.idle ∧ s.NobodyWaits) :
    ∃ s', OwnSteps s.nextFiber (s.receive payload).1 s' ∧
      s'.site = { s.site with connection := (connection.complete j (outcome j.params)).1 } ∧ s'.fibers = s.fibers ∧
      s'.idle = s.idle ∧ s'.running = s.running := by
  have hbs := h.handlers ▸ hb
  by_cases hm : j.mode = .direct
  · cases hy with
    | computes hmode hc => exact ⟨_, .none _, receive_computed hr hd hm hbm hbs hc⟩
    | relays => cases hbm.trans hm
  · have hu : Underway handlers catalogue (s.receive payload).1 := h.next (.aside (.receive s payload))
    have hop := opens_receive hr hd hm
    have hf : (s.receive payload).1.fibers.find? s.nextFiber = some (s.fiberOf j) := by
      rw [hop.fibers, Table.find?_insert, if_pos rfl]
    have hlive : (s.receive payload).1.isFired j.token = false := by
      rw [isFired, hop.site]
      exact ht
    -- The number was free before, so to erase the fiber is to be back where the payload came.
    have hfree : s.fibers.find? s.nextFiber = none :=
      Option.eq_none_iff_forall_ne_some.mpr fun f hf => Nat.lt_irrefl _ (h.follows.fiber hf).2
    have hroom (hth : mode = .threaded) : 0 < (s.receive payload).1.idle ∧ (s.receive payload).1.NobodyWaits :=
      ⟨hop.idle ▸ (hi hth).1, hop.nobodyWaits hst (hi hth).2⟩
    obtain ⟨s', hsteps, hfin⟩ :
        ∃ s', OwnSteps s.nextFiber (s.receive payload).1 s' ∧
          Finishes s.nextFiber j (outcome j.params) (s.receive payload).1 s' := by
      cases hy with
      | computes hmode hc =>
        refine hu.finishes_computing hf rfl hd hop.ready hlive (computes_fiberOf hbs hc) ?_
        by_cases hth : j.mode = .threaded
        · exact .inr ⟨by simp [fiberOf, hth], rfl, hroom (hmode.symm.trans (hbm.trans hth))⟩
        · exact .inl (by simp [fiberOf, hth])
      | @relays name pick conclude b inner hb' hmode hc ho =>
        have hco : j.mode = .coroutine := hbm.symm
        exact hu.finishes_relaying hf rfl hd hop.ready hlive (by simp [fiberOf, hco]) rfl (routine_fiberOf_relay hbs) rfl hb' hc
          (congrArg Routine.done (ho _)) fun hth => hroom (hmode.symm.trans hth)
    refine ⟨s', hsteps, ?_, ?_, ?_, ?_⟩
    · rw [hfin.site, hop.site]
    · rw [hfin.fibers, hop.fibers, Table.erase_insert, Table.erase_of_find?_eq_none hfree]
    · rw [hfin.idle, hop.idle]
    · rw [hfin.running, hop.running]

/-- The call of a request is on its way: here it has a turn, on its worker it can go on, and where it waits for one it is in a row. -/
structure OnItsWay (n : Nat) (id : MessageId) (s : Session α) (f : Fiber α) : Prop where
  fiber : s.fibers.find? n = some f
  job : (f.job.bind fun j => j.duty.id?) = some id
  here : f.place = .here → .fiber n ∈ s.ready
  worker : f.place = .worker → ∃ s', s.stepWorker n = some s'
  queued : f.place = .queued → n ∈ s.parked ∨ .fiber n ∈ s.ready

/-- A call that only computes is on its way. -/
theorem Underway.onItsWay {callers : List (Option Outcome → Routine α)} (h : Underway handlers catalogue s)
    (hf : s.fibers.find? n = some f) (hj : f.job = some j) (hd : j.duty.id? = some id) (hc : f.Computes o callers)
    (hr : f.place = .here → .fiber n ∈ s.ready) : OnItsWay n id s f := by
  refine ⟨hf, by rw [hj]; exact hd, hr, fun _ => ?_, fun _ => h.orderly.placed n f j hf hj⟩
  obtain ⟨s₁, -, hstep⟩ := stepWorker_brief hf hc.routine
  exact ⟨_, hstep⟩

/-- The call of a request that only computes is on its way or the request was concluded. -/
theorem Underway.on_its_way_computing (h : Underway handlers catalogue s) (hf : s.fibers.find? n = some f) (hj : f.job = some j)
    (hd : j.duty.id? = some id) (hc : f.Computes o []) (hr : f.place = .here → .fiber n ∈ s.ready) (hs : Later s s')
    (ht : s'.isFired j.token = false) (ho : s'.site.connection.outgoing.closed = false) :
    (∃ f', OnItsWay n id s' f') ∨ ∃ t t', Concludes id (j.duty.told o) t t' ∧ Later s t ∧ Later t' s' := by
  rcases h.computes hf hj hc hr hs ht with ⟨f', hf', hj', hc', hr'⟩ | ⟨t, f', hl, hf', hj', hc', hp', hr', hl'⟩
  · exact .inl ⟨f', (h.later hs).onItsWay hf' hj' hd hc' hr'⟩
  · have hu := h.later hl
    have hl'' : Later t s' := .head (.turn hr' hf') hl'
    obtain ⟨t₁, hk, hdrive⟩ := drive_ends hc' hp' (t.taken (.fiber n)) n
    exact .inr ⟨t, _, hu.concludes hf' hj' hd (hu.live_of_later hl'' ht) (hu.open_of_later hl'' ho) hk hdrive, hl, hl'⟩

/-- The call of a request whose handler calls one that only computes, and ends with what it makes of that, is on its way or the
request was concluded. -/
theorem Underway.on_its_way_relaying (h : Underway handlers catalogue s) (hf : s.fibers.find? n = some f) (hj : f.job = some j)
    (hd : j.duty.id? = some id) (hr : .fiber n ∈ s.ready) (hp : f.place = .here) {name : String} {params : Json}
    {next : Option Outcome → Routine α} (hrt : f.routine = .invoke name params next) (hcl : f.callers = [])
    (hb : handlers.find? .user name = some b) (hc : b.Computes outcome) (hn : next (some (outcome params)) = .done o)
    (hs : Later s s') (ht : s'.isFired j.token = false) (ho : s'.site.connection.outgoing.closed = false) :
    (∃ f', OnItsWay n id s' f') ∨ ∃ t t', Concludes id (j.duty.told o) t t' ∧ Later s t ∧ Later t' s' := by
  rcases h.invokes hf hj hp hrt hr hb hc hs ht with ⟨f', hf', hbare, hr'⟩ | ⟨f', hf', hj', hc', hr'⟩ |
    ⟨hl, hr', hf', hj', hk, hfar, hdrive, hgp, hgr, hgc, hl'⟩
  · have hp' := (Fiber.place_of_bare hbare).trans hp
    refine .inl ⟨f', hf', ?_, fun _ => hr', fun hw => ?_, fun _ => .inr hr'⟩
    · rw [Fiber.job_of_bare hbare, hj]
      exact hd
    · rw [hp'] at hw
      cases hw
  · exact .inl ⟨f', (h.later hs).onItsWay hf' hj' hd hc' hr'⟩
  · rename_i t t₁ f' g rest
    have hu := h.later hl
    have hl'' : Later t s' := .head (.turn hr' hf') hl'
    obtain ⟨r, rfl⟩ : ∃ r, rest = r + 1 := ⟨rest - 1, by simp only [turnBound] at hfar; omega⟩
    rw [drive_done hgp (hgr.trans hn) (hgc.trans hcl)] at hdrive
    exact .inr ⟨t, _, hu.concludes hf' hj' hd (hu.live_of_later hl'' ht) (hu.open_of_later hl'' ho) hk hdrive, hl, hl'⟩

/-- Whatever else happens, a request that is not cancelled is on its way to its conclusion, or was concluded. -/
theorem Underway.on_its_way_or_concluded (h : Underway handlers catalogue s)
    (hr : s.site.connection.receive payload = (connection, some j)) (hd : j.duty.id? = some id)
    (hb : handlers.find? j.origin j.name = some b) (hbm : b.mode = j.mode) (hy : b.Yields handlers outcome mode)
    (hs : Later (s.receive payload).1 s') (ht : s'.isFired j.token = false) (ho : s'.site.connection.outgoing.closed = false) :
    (∃ f, OnItsWay s.nextFiber id s' f) ∨
      ∃ t t', Concludes id (j.duty.told (outcome j.params)) t t' ∧
        (t = s.withConnection connection ∨ Later (s.receive payload).1 t) ∧ Later t' s' := by
  have hu : Underway handlers catalogue (s.receive payload).1 := h.next (.aside (.receive s payload))
  have hbs := h.handlers ▸ hb
  by_cases hm : j.mode = .direct
  · cases hy with
    | relays => cases hbm.trans hm
    | computes hmode hc =>
      obtain ⟨hsite, -⟩ := receive_computed hr hd hm hbm hbs hc
      have hrec := Connection.receive_received s.site.connection payload
      rw [hr] at hrec
      obtain ⟨-, hserved, -⟩ := hrec.reserves rfl hd
      exact .inr ⟨s.withConnection connection, _, .of_site hd hserved hsite, .inl rfl, hs⟩
  · have hop := opens_receive hr hd hm
    have hf : (s.receive payload).1.fibers.find? s.nextFiber = some (s.fiberOf j) := by
      rw [hop.fibers, Table.find?_insert, if_pos rfl]
    have hend : (∃ f, OnItsWay s.nextFiber id s' f) ∨
        ∃ t t', Concludes id (j.duty.told (outcome j.params)) t t' ∧ Later (s.receive payload).1 t ∧ Later t' s' := by
      cases hy with
      | computes hmode hc =>
        exact hu.on_its_way_computing hf rfl hd (computes_fiberOf hbs hc) (fun _ => hop.ready) hs ht ho
      | @relays name pick conclude b inner hb' hmode hc hn =>
        have hco : j.mode = .coroutine := hbm.symm
        exact hu.on_its_way_relaying hf rfl hd hop.ready (by simp [fiberOf, hco]) (routine_fiberOf_relay hbs) rfl hb' hc
          (congrArg Routine.done (hn _)) hs ht ho
    rcases hend with hway | ⟨t, t', hc, hl, hl'⟩
    · exact .inl hway
    · exact .inr ⟨t, t', hc, .inr hl, hl'⟩

/-! ## Requests for what the registry holds -/

/-- A request whose id is free begins for what the registry holds for it. -/
theorem Underway.exists_job (h : Underway handlers catalogue s) {method : String} {sent : Json}
    (ha : s.site.connection.lifecycle = .active) (hf : s.site.connection.incoming.contains id = false)
    (hd : s.site.connection.reads payload = .ok (.request id method sent))
    (hb : b ∈ handlers.calledBy (.request id method sent)) :
    ∃ connection j, s.site.connection.receive payload = (connection, some j) ∧ handlers.find? j.origin j.name = some b ∧
      b.mode = j.mode ∧ j.params = Connection.handed method sent ∧ j.duty = Duty.ofRequest id method ∧
      j.token = .request s.site.connection.incoming.tokens ∧ j.method = method ∧
      connection.isFired j.token = s.isFired j.token := by
  obtain ⟨origin, name, hfind, htarget⟩ :=
    Connection.target_of_calledBy h.routes hb (.request s.site.connection.incoming.tokens)
  obtain ⟨incoming, hbegin⟩ : ∃ incoming, s.site.connection.incoming.begin? id =
      some (s.site.connection.incoming.tokens, incoming) := by simp [Incoming.begin?, hf]
  refine ⟨{ s.site.connection with incoming },
    ⟨.ofRequest id method, origin, name, b.mode, method, Connection.handed method sent,
      .request s.site.connection.incoming.tokens⟩, ?_, hfind, rfl, rfl, rfl, rfl, rfl, Incoming.isFired_begin hbegin _⟩
  have hopened : s.site.connection.opened payload = s.site.connection := Connection.opened_of_not_told (by rw [hd]; rfl)
  rw [Connection.receive_of_ok hd, if_neg (by simp [ha]), hopened, Connection.receiveMessage, Connection.receiveRequest,
    if_neg (by simp [ha])]
  rcases htarget with ⟨rfl, hserving, hduty, rfl, hparams⟩ | ⟨hm, hroute, hduty⟩
  · rw [if_pos rfl]
    simp only [Connection.receiveShutdown, hbegin]
    simp only at hserving hduty hparams
    simp only [hserving, hduty, hparams]
  · rw [if_neg hm]
    simp only at hroute hduty
    simp only [hroute, hduty, Connection.beginJob, hbegin]

/-- From one state to another a request was answered with an outcome, reported if it must be, and nothing else has changed: the
requests that are served, the calls in progress and the free workers are what they were. -/
structure Exchanges (id : MessageId) (o : Outcome) (s s' : Session α) : Prop where
  queue : s'.site.connection.queue = s.site.connection.queue ++ s.site.connection.kept [.frame (Reply.ofOutcome id o)]
  reports : s'.site.connection.reports = s.site.connection.reports ++ Report.ofOutcome o
  entries : s'.site.connection.incoming.entries = s.site.connection.incoming.entries
  own : s'.site.own = s.site.own
  fibers : s'.fibers = s.fibers
  idle : s'.idle = s.idle
  running : s'.running = s.running

/-- The request that comes in a payload is served in a mode and has an outcome: by itself it comes to that, if a worker is free
where it needs one; whatever else happens, it is on its way to that, or it has come to it. -/
structure Fulfils (s : Session α) (payload : Bytes) (id : MessageId) (o : Outcome) (mode : Mode) : Prop where
  alone : s.isFired (.request s.site.connection.incoming.tokens) = false →
    (mode = .threaded → 0 < s.idle ∧ s.NobodyWaits) →
    ∃ s', OwnSteps s.nextFiber (s.receive payload).1 s' ∧ Exchanges id o s s'
  among : ∀ s', Later (s.receive payload).1 s' → s'.isFired (.request s.site.connection.incoming.tokens) = false →
    s'.site.connection.outgoing.closed = false →
    (∃ f, OnItsWay s.nextFiber id s' f) ∨
      ∃ t t', Concludes id o t t' ∧
        (t = s.withConnection (s.site.connection.receive payload).1 ∨ Later (s.receive payload).1 t) ∧ Later t' s'

/-- A request is fulfilled with the outcome of its handler, if this only computes or calls one that does. -/
theorem Underway.fulfils (h : Underway handlers catalogue s) (hst : Staffed none 0 s) {method : String} {sent : Json}
    (ha : s.site.connection.lifecycle = .active) (hf : s.site.connection.incoming.contains id = false)
    (hd : s.site.connection.reads payload = .ok (.request id method sent))
    (hb : b ∈ handlers.calledBy (.request id method sent)) (hy : b.Yields handlers outcome mode) :
    s.Fulfils payload id ((Duty.ofRequest id method).told (outcome (Connection.handed method sent))) mode := by
  obtain ⟨connection, j, hr, hfind, hbm, hparams, hduty, htoken, -, hfired⟩ := h.exists_job ha hf hd hb
  have hid : j.duty.id? = some id := by rw [hduty, Duty.id?_ofRequest]
  have hopened : s.site.connection.opened payload = s.site.connection := Connection.opened_of_not_told (by rw [hd]; rfl)
  have hrec := Connection.receive_received s.site.connection payload
  rw [hr, hopened] at hrec
  obtain ⟨hconn, hserved, hentries⟩ := hrec.reserves rfl hid
  rw [← hduty, ← hparams]
  refine ⟨fun ht hi => ?_, fun s' hs ht ho => ?_⟩
  · rw [← htoken, ← hfired] at ht
    obtain ⟨s', hsteps, hsite, hfibers, hidle, hrunning⟩ := h.exists_finished hst hr hid hfind hbm hy ht hi
    obtain ⟨hqueue, -⟩ := Connection.complete_answers hid hserved (outcome j.params)
    obtain ⟨hreports, herased⟩ := Connection.complete_concludes hid hserved (outcome j.params)
    simp only at hconn
    refine ⟨s', hsteps, ?_, ?_, ?_, ?_, hfibers, hidle, hrunning⟩
    all_goals rw [hsite]
    · rw [hqueue, hconn]
      rfl
    · rw [hreports, hconn]
    · rw [herased]
      exact hentries
  · rw [← htoken] at ht
    rw [hr]
    exact h.on_its_way_or_concluded hr hid hfind hbm hy hs ht ho

/-- A function comes to the same in all modes, in every state that a session can come to, in five parts. What the function comes
to is `F.outcome` of the params; it does not depend on the way `k` in which a handler is made of the function.
1. A handler can be made of the function in each way.
2. A request for such a handler is fulfilled with what the function comes to for the params: that is queued as the answer, and
   reported if it is a failure that was not declared.
3. So is a request for a coroutine that calls such a handler and makes its outcome of what that comes to.
4. Any handler that calls such a handler, by the name of a feature for which it is registered, and is not cancelled, is about to call
   it, or waits for what the function comes to, or has got just that and gone on with it.
5. Every worker is free or has one call, which is on it or has a turn to go to it. -/
theorem modes_agree {ρ : Type} (F : TypedFunction ρ) (handlers : Registry (Handler α)) (catalogue : Catalogue) (s : Session α)
    (hh : handlers.Lawful) (h : Reachable handlers catalogue s) :
    (∀ k : Registration, ∃ b : Handler α, F.register k = .ok b ∧ b.mode = k.mode ∧ b.Lawful) ∧
    (∀ k (b : Handler α) payload id method sent, F.register k = .ok b → s.site.connection.lifecycle = .active →
      s.site.connection.incoming.contains id = false → s.site.connection.reads payload = .ok (.request id method sent) →
      b ∈ handlers.calledBy (.request id method sent) →
      s.Fulfils payload id ((Duty.ofRequest id method).told (F.outcome (Connection.handed method sent))) k.mode) ∧
    (∀ k (b : Handler α) name pick conclude payload id method sent, F.register k = .ok b →
      handlers.find? .user name = some b → s.site.connection.lifecycle = .active →
      s.site.connection.incoming.contains id = false → s.site.connection.reads payload = .ok (.request id method sent) →
      Handler.relay name pick conclude ∈ handlers.calledBy (.request id method sent) →
      s.Fulfils payload id
        ((Duty.ofRequest id method).told (conclude (some (F.outcome (pick (Connection.handed method sent)))))) k.mode) ∧
    (∀ k (b : Handler α) name params next n f j s', F.register k = .ok b → handlers.find? .user name = some b →
      s.fibers.find? n = some f → f.job = some j → f.place = .here → f.routine = .invoke name params next → .fiber n ∈ s.ready →
      Later s s' → s'.isFired j.token = false →
      (∃ f', s'.fibers.find? n = some f' ∧ f'.bare = f.bare ∧ .fiber n ∈ s'.ready) ∨
      (∃ f', s'.fibers.find? n = some f' ∧ f'.job = some j ∧ f'.Computes (F.outcome params) (next :: f.callers) ∧
        (f'.place = .here → .fiber n ∈ s'.ready)) ∨
      GoesOn n j (next (some (F.outcome params))) f.callers s s') ∧
    s.idle + s.engaged none = s.workers ∧
    (∀ n f, s.fibers.find? n = some f → f.place = .worker → n ∈ s.running) ∧
    ∀ n f, s.fibers.find? n = some f → f.place = .queued → f.granted = true → .fiber n ∈ s.ready := by
  have hu := h.underway hh
  have hst := h.staffed hh
  refine ⟨fun k => ?_, fun k b payload id method sent hk ha hf hd hb => ?_,
    fun k b name pick conclude payload id method sent hk hfind ha hf hd hb => ?_,
    fun k b name params next n f j s' hk hfind hf hj hp hr hready hs ht => ?_, hst.workers, fun n f => hst.manned n f nofun,
    fun n f => hst.handed n f nofun⟩
  · obtain ⟨b, hb, hm, hc⟩ := F.exists_register (α := α) k
    exact ⟨b, hb, hm, hc.lawful⟩
  · obtain ⟨hm, hc⟩ := F.register_computes hk
    exact hu.fulfils hst ha hf hd hb (.computes hm hc)
  · obtain ⟨hm, hc⟩ := F.register_computes hk
    have hy : (Handler.relay name pick conclude).Yields handlers (fun params => conclude (some (F.outcome (pick params)))) k.mode :=
      .relays hfind hm hc fun _ => rfl
    exact hu.fulfils hst ha hf hd hb hy
  · exact hu.invokes hf hj hp hr hready hfind (F.register_computes hk).2 hs ht

/-- Additions, and a coroutine that asks for them. -/
def sums (b : Handler Unit) : Registry (Handler Unit) :=
  { features := (({} : Table String (Handler Unit)).insert "math/add" b).insert "math/sum"
      (.relay "math/add" (fun params => params) fun o => o.getD (.error (.failed "no such handler"))) }

theorem lawful_sums {b : Handler Unit} (hb : b.Lawful) : (sums b).Lawful := by
  intro origin name b' h
  cases origin with
  | builtin => cases h
  | command => cases h
  | user =>
    rcases Registry.find?_insert_cases h with rfl | h
    · exact fun _ _ => trivial
    · rcases Registry.find?_insert_cases h with rfl | h
      · exact hb
      · cases h

def sumParams (a b : Int) : Json := Json.object [("a", .int a), ("b", .int b)]

/-- What is asked of a handler for additions is answered: with a sum or with the overflow, with what is wrong with the params, and
with the sum again when another handler asks for it. -/
structure Adds (b : Handler Unit) (mode : Mode) : Prop where
  sum : (make (sums b) {} 1 ()).Fulfils (Message.request (.num 1) "math/add" (sumParams 2 3)).encode (.num 1)
    (.ok (Json.object [("sum", .int 5)])) mode
  overflow : (make (sums b) {} 1 ()).Fulfils (Message.request (.num 1) "math/add" (sumParams (Nat.pow 2 63 - 1) 1)).encode
    (.num 1) (.error (.panicked "attempt to add with overflow")) mode
  unread : (make (sums b) {} 1 ()).Fulfils (Message.request (.num 1) "math/add" .null).encode (.num 1)
    (.error (.invalidParams "invalid type: null, expected struct AddParams")) mode
  asked : (make (sums b) {} 1 ()).Fulfils (Message.request (.num 1) "math/sum" (sumParams 2 3)).encode (.num 1)
    (.ok (Json.object [("sum", .int 5)])) mode

/-- Addition comes to the same in all modes. -/
theorem modes_agree_addition :
    (∃ b, Demo.addition.register .direct = .ok b ∧ Adds b .direct) ∧
    (∃ b, Demo.addition.register (.coroutine true) = .ok b ∧ Adds b .coroutine) ∧
    (∃ b, Demo.addition.register .threaded = .ok b ∧ Adds b .threaded) ∧
    ∃ b, Demo.addition.register .offloaded = .ok b ∧ Adds b .threaded := by
  have hall (k : Registration) : ∃ b, Demo.addition.register k = .ok b ∧ Adds b k.mode := by
    obtain ⟨b, hk, -, hc⟩ := Demo.addition.exists_register (α := Unit) k
    obtain ⟨-, hfulfils, hasked, -⟩ :=
      modes_agree Demo.addition (sums b) {} (make (sums b) {} 1 ()) (lawful_sums hc.lawful) (.make 1 ())
    have hreads (method : String) {params : Json} (hp : params.fits 126 = true) (hn : params.normal = params) :
        (make (sums b) {} 1 ()).site.connection.reads (Message.request (.num 1) method params).encode =
          .ok (.request (.num 1) method params) := by
      have hd : Message.decode ({} : Catalogue) {} (Message.request (.num 1) method params).encode =
          (.ok (.request (.num 1) method params.normal), {}) := Message.decode_request (rfl : (MessageId.num 1).IsAccepted) hp rfl {}
      rw [hn] at hd
      exact congrArg Prod.fst hd
    refine ⟨b, hk, ?_, ?_, ?_, ?_⟩
    · exact hfulfils k b _ (.num 1) "math/add" (sumParams 2 3) hk rfl rfl (hreads _ rfl rfl) (List.mem_singleton.mpr rfl)
    · exact hfulfils k b _ (.num 1) "math/add" (sumParams (Nat.pow 2 63 - 1) 1) hk rfl rfl (hreads _ rfl rfl)
        (List.mem_singleton.mpr rfl)
    · exact hfulfils k b _ (.num 1) "math/add" .null hk rfl rfl (hreads _ rfl rfl) (List.mem_singleton.mpr rfl)
    · exact hasked k b "math/add" (fun params => params) _ _ (.num 1) "math/sum" (sumParams 2 3) hk rfl rfl rfl
        (hreads _ rfl rfl) (List.mem_singleton.mpr rfl)
  exact ⟨hall .direct, hall (.coroutine true), hall .threaded, hall .offloaded⟩

end Session

end Parley
