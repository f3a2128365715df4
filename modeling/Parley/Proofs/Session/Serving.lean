import Parley.Proofs.Handler.Blind
import Parley.Proofs.Session.Leaving

/-!
# Serving directly

When all handlers are direct, what a payload comes to is there as soon as it has been taken. `Site.serve` is the site behind a
payload together with the handlers that were called, in their order and with their outcomes, and a session does nothing else with
a payload (`Session.receive_eq_serve`). What holds of the connection and of the handlers holds of the two together: nothing looks
at what was queued or reported before, and the stage of life changes with `shutdown` and `exit` alone.
-/

namespace Parley

namespace Connection

/-- Our side changes neither the handlers nor the shapes. -/
theorem ActsTo.setup {c c' : Connection} (h : c.ActsTo c') : c'.routes = c.routes ∧ c'.catalogue = c.catalogue := by
  obtain ⟨ms, -, hr⟩ := h
  have hroutes := Conversation.routes_run ⟨c, []⟩ ms
  have hcatalogue := Conversation.catalogue_run ⟨c, []⟩ ms
  rw [hr []] at hroutes hcatalogue
  exact ⟨hroutes, hcatalogue⟩

/-- The job of a request is for a handler that there is. -/
theorem find?_of_receiveRequest {c : Connection} (hl : c.lifecycle ≠ .exited) {id : MessageId} {method : String} {params : Json}
    {j : Job} (h : (c.receiveRequest id method params).2 = some j) : c.routes.find? j.origin j.name = some j.mode := by
  have hr := Received.ofRequest hl id method params
  generalize c.receiveRequest id method params = s at hr h
  cases hr with
  | begun j' ha hb ht hm hn =>
    obtain rfl := Option.some.inj h
    rcases ht with ⟨-, hs, -, hname, -⟩ | ⟨-, hr, -⟩
    · exact hname ▸ Registry.find?_of_serving? hs
    · exact find?_of_route hr
  | _ => cases h

/-- The job of a notification is for a handler that there is. -/
theorem find?_of_receiveNotification {c : Connection} {method : String} {params : Json} {j : Job}
    (h : (c.receiveNotification method params).2 = some j) : c.routes.find? j.origin j.name = some j.mode := by
  unfold receiveNotification at h
  split at h
  · cases h
  · split at h
    · unfold receiveExit at h
      split at h
      · cases h
      · rename_i hs
        obtain rfl := Option.some.inj h
        exact Registry.find?_of_serving? hs
    · split at h
      · cases h
      · unfold receiveFeature at h
        split at h
        · rename_i hb
          obtain rfl := Option.some.inj h
          exact hb
        · obtain ⟨mode, hu, rfl⟩ := Option.map_eq_some_iff.mp h
          exact hu

/-- The job of a payload is for a handler that there is. -/
theorem find?_of_receive {c : Connection} {payload : Bytes} {j : Job} (h : (c.receive payload).2 = some j) :
    c.routes.find? j.origin j.name = some j.mode := by
  cases hd : c.reads payload with
  | error f =>
    rw [receive_of_error hd] at h
    cases h
  | ok m =>
    rw [receive_of_ok hd] at h
    split at h
    · cases h
    · rename_i hl
      cases m with
      | request id method params => exact find?_of_receiveRequest (c := c.opened payload) hl h
      | notification method params => exact find?_of_receiveNotification (c := c.opened payload) h
      | result id v => cases h
      | error id e => cases id <;> cases h

/-- The job that follows another is for a handler that there is. -/
theorem find?_of_complete {c : Connection} {j next : Job} {o : Outcome} (h : (c.complete j o).2 = some next) :
    c.routes.find? next.origin next.name = some next.mode := by
  unfold complete at h
  cases hd : j.duty with
  | builtin =>
    rw [hd] at h
    obtain ⟨mode, hu, rfl⟩ := Option.map_eq_some_iff.mp h
    exact hu
  | _ =>
    rw [hd] at h
    cases h

/-- No `exit` has been processed. -/
structure Staying (c : Connection) : Prop where
  exitCode : c.exitCode = none
  lifecycle : c.lifecycle ≠ .exited

/-- A payload that is no `exit` does not end the connection. -/
theorem Staying.receive {c : Connection} (h : c.Staying) {payload : Bytes} (ht : c.takes .exit (c.reads payload) = false) :
    (c.receive payload).1.Staying := by
  have hs := (receive_received c payload).stage
  have he : (c.opened payload).ends .exit (c.reads payload) = false := by
    have ht : (c.opened payload).takes .exit (c.reads payload) = false := ht
    rw [ends, ht, Bool.false_and]
  rw [he] at hs
  refine ⟨hs.2.trans h.exitCode, ?_⟩
  rw [hs.1]
  simp only [Bool.false_eq_true, if_false]
  split
  · simp
  · exact h.lifecycle

/-- The outcome of a job that is not for `exit` does not end the connection. -/
theorem Staying.complete {c : Connection} (h : c.Staying) {j : Job} (hj : j.duty.isFor .exit = false) (o : Outcome) :
    (c.complete j o).1.Staying := by
  have hs := complete_stage c j o
  rw [hj] at hs
  refine ⟨hs.2.trans h.exitCode, ?_⟩
  rw [hs.1]
  simp only [Bool.false_eq_true, if_false]
  split
  · simp
  · exact h.lifecycle

/-- Our side does not end the connection. -/
theorem Staying.actsTo {c c' : Connection} (h : c.Staying) (ha : c.ActsTo c') : c'.Staying :=
  ⟨ha.stage.2.trans h.exitCode, fun hl => h.lifecycle (ha.stage.1.symm.trans hl)⟩

/-- The job that a payload begins is for `exit` only if the payload is one. -/
theorem isFor_of_receive {c : Connection} {payload : Bytes} {j : Job} (h : (c.receive payload).2 = some j)
    (ht : c.takes .exit (c.reads payload) = false) : j.duty.isFor .exit = false := by
  have ha := (receive_received c payload).account .exit
  have ht : (c.opened payload).takes .exit (c.reads payload) = false := ht
  rw [h, ht] at ha
  simp only [Option.toList_some, List.countP_singleton, Bool.toNat_false, Nat.add_eq_zero_iff] at ha
  simpa using ha.1

/-- The job that follows another is not for `exit`. -/
theorem isFor_of_complete {c : Connection} {j next : Job} {o : Outcome} (h : (c.complete j o).2 = some next) :
    next.duty.isFor .exit = false := by
  have hc := complete_isFor c j o .exit
  rw [h] at hc
  simpa using hc

end Connection

variable {α : Type}

/-- Calls the direct handler of a job. -/
def Registry.call (handlers : Registry (Handler α)) (j : Job) (site : Site α) : Outcome × Site α :=
  match handlers.find? j.origin j.name with
  | some (.direct run) => run j.call site
  | _ => (.error (.failed "no handler"), site)

namespace Site

/-- Calls the direct handler of a job and hands its outcome to the connection, which may have a next job. -/
def carryOut (handlers : Registry (Handler α)) (j : Job) (site : Site α) : (Outcome × Option Job) × Site α :=
  let (o, site) := handlers.call j site
  let (connection, next) := site.connection.complete j o
  ((o, next), { site with connection })

/-- Hands a payload to the connection and calls the direct handlers of what comes of it; gives the jobs with their outcomes. -/
def serve (handlers : Registry (Handler α)) (payload : Bytes) (site : Site α) : List (Job × Outcome) × Site α :=
  match site.connection.receive payload with
  | (connection, none) => ([], { site with connection })
  | (connection, some j) =>
    match carryOut handlers j { site with connection } with
    | ((o, none), site) => ([(j, o)], site)
    | ((o, some next), site) =>
      let ((o', _), site) := carryOut handlers next site
      ([(j, o), (next, o')], site)

variable {handlers : Registry (Handler α)}

/-- A lawful handler does no more than our side may. -/
theorem actsTo_call (hh : handlers.Lawful) (j : Job) (site : Site α) :
    site.connection.ActsTo (handlers.call j site).2.connection := by
  unfold Registry.call
  split
  · rename_i run hf
    exact hh _ _ _ hf j.call site
  · exact .refl _

/-- A blind handler is called blindly. -/
theorem blind_call (hb : handlers.Blind) (j : Job) : Blind (handlers.call j) := by
  intro site items news
  unfold Registry.call
  split
  · rename_i run hf
    exact hb _ _ _ hf j.call site items news
  · rfl

/-- A job is carried out blindly. -/
theorem blind_carryOut (hb : handlers.Blind) (j : Job) : Blind (carryOut handlers j) := by
  intro site items news
  have hc := blind_call hb j site items news
  simp only [carryOut, hc]
  simp only [behind, Connection.behind_complete, Connection.Step.behind]

/-- What serving a payload comes to. -/
inductive Serves (handlers : Registry (Handler α)) (payload : Bytes) (site : Site α) : List (Job × Outcome) × Site α → Prop where
  /-- No job begins. -/
  | answered {connection : Connection} (h : site.connection.receive payload = (connection, none)) :
      Serves handlers payload site ([], { site with connection })
  /-- A job is carried out. -/
  | done {connection : Connection} {j : Job} {o : Outcome} {site' : Site α}
      (h : site.connection.receive payload = (connection, some j))
      (hj : carryOut handlers j { site with connection } = ((o, none), site')) : Serves handlers payload site ([(j, o)], site')
  /-- A job is carried out, and another that follows. -/
  | followed {connection : Connection} {j next : Job} {o o' : Outcome} {rest : Option Job} {site₁ site' : Site α}
      (h : site.connection.receive payload = (connection, some j))
      (hj : carryOut handlers j { site with connection } = ((o, some next), site₁))
      (hn : carryOut handlers next site₁ = ((o', rest), site')) : Serves handlers payload site ([(j, o), (next, o')], site')

/-- Nothing else comes of serving a payload. -/
theorem serves_serve (handlers : Registry (Handler α)) (payload : Bytes) (site : Site α) :
    Serves handlers payload site (serve handlers payload site) := by
  unfold serve
  split
  · rename_i connection he
    exact .answered he
  · rename_i connection j he
    split
    · rename_i o site₁ hj
      exact .done he hj
    · rename_i o next site₁ hj
      exact .followed he hj rfl

/-- A payload is served blindly. -/
theorem blind_serve (hb : handlers.Blind) (payload : Bytes) : Blind (serve handlers payload) := by
  intro site items news
  have hr : (site.behind items news).connection.receive payload = (site.connection.receive payload).behind items news :=
    site.connection.behind_receive items news payload
  have hs := serves_serve handlers payload site
  generalize serve handlers payload site = r at hs ⊢
  cases hs with
  | answered h =>
    rw [h] at hr
    simp only [serve, hr]
    rfl
  | @done connection j o site' h hj =>
    have hb := blind_carryOut hb j { site with connection } items news
    rw [h] at hr
    rw [hj] at hb
    simp only [serve, hr, Connection.Step.behind]
    simp only [behind] at hb ⊢
    rw [hb]
  | @followed connection j next o o' rest site₁ site' h hj hn =>
    have hb₁ := blind_carryOut hb j { site with connection } items news
    have hb₂ := blind_carryOut hb next site₁ items news
    rw [h] at hr
    rw [hj] at hb₁
    rw [hn] at hb₂
    simp only [serve, hr, Connection.Step.behind]
    simp only [behind] at hb₁ hb₂ ⊢
    simp only [hb₁, hb₂]

/-- A handler that is called changes neither the handlers nor the shapes nor the writer. -/
theorem sameSetup_call (hh : handlers.Lawful) (hb : handlers.Blind) (j : Job) (site : Site α) :
    Connection.SameSetup site.connection (handlers.call j site).2.connection := by
  have ha := actsTo_call hh j site
  exact ⟨ha.setup.1, ha.setup.2, (blind_call hb j).writable (actsTo_call hh j) site⟩

/-- No job changes what the connection is made for. -/
theorem sameSetup_carryOut (hh : handlers.Lawful) (hb : handlers.Blind) (j : Job) (site : Site α) :
    Connection.SameSetup site.connection (carryOut handlers j site).2.connection :=
  (sameSetup_call hh hb j site).trans (Connection.complete_sameSetup _ j _)

/-- No payload does. -/
theorem sameSetup_serve (hh : handlers.Lawful) (hb : handlers.Blind) (payload : Bytes) (site : Site α) :
    Connection.SameSetup site.connection (serve handlers payload site).2.connection := by
  have hr := site.connection.receive_sameSetup payload
  have hc (j : Job) (site : Site α) := sameSetup_carryOut hh hb j site
  have hs := serves_serve handlers payload site
  generalize serve handlers payload site = r at hs ⊢
  cases hs with
  | answered h =>
    rw [h] at hr
    exact hr
  | @done connection j o site' h hj =>
    have hc := hc j { site with connection }
    rw [h] at hr
    rw [hj] at hc
    exact hr.trans hc
  | @followed connection j next o o' rest site₁ site' h hj hn =>
    have hc₁ := hc j { site with connection }
    have hc₂ := hc next site₁
    rw [h] at hr
    rw [hj] at hc₁
    rw [hn] at hc₂
    exact (hr.trans hc₁).trans hc₂

/-- A job that is not for `exit` does not end the connection, whatever its handler does, and nor is the one that follows for it. -/
theorem staying_carryOut (hh : handlers.Lawful) {j : Job} (hj : j.duty.isFor .exit = false) {site : Site α}
    (h : site.connection.Staying) :
    (carryOut handlers j site).2.connection.Staying ∧
      ∀ next, (carryOut handlers j site).1.2 = some next → next.duty.isFor .exit = false :=
  ⟨(h.actsTo (actsTo_call hh j site)).complete hj _, fun _ hn => Connection.isFor_of_complete hn⟩

/-- The job that follows one that was carried out is for a handler that there is. -/
theorem find?_of_carryOut (hh : handlers.Lawful) {j next : Job} {site : Site α}
    (h : (carryOut handlers j site).1.2 = some next) :
    site.connection.routes.find? next.origin next.name = some next.mode := by
  rw [← (actsTo_call hh j site).setup.1]
  exact Connection.find?_of_complete h

/-- A payload that is no `exit` does not end the connection, whatever the handlers that it calls do. -/
theorem staying_serve (hh : handlers.Lawful) {payload : Bytes} {site : Site α} (h : site.connection.Staying)
    (ht : site.connection.takes .exit (site.connection.reads payload) = false) :
    (serve handlers payload site).2.connection.Staying := by
  have hr := h.receive ht
  have hf (j : Job) (hj : (site.connection.receive payload).2 = some j) := Connection.isFor_of_receive hj ht
  have hs := serves_serve handlers payload site
  generalize serve handlers payload site = r at hs ⊢
  cases hs with
  | answered he =>
    rw [he] at hr
    exact hr
  | @done connection j o site' he hj =>
    rw [he] at hr hf
    have hstay : ({ site with connection } : Site α).connection.Staying := hr
    have hc := staying_carryOut hh (hf j rfl) hstay
    rw [hj] at hc
    exact hc.1
  | @followed connection j next o o' rest site₁ site' he hj hn =>
    rw [he] at hr hf
    have hstay : ({ site with connection } : Site α).connection.Staying := hr
    have hc₁ := staying_carryOut hh (hf j rfl) hstay
    rw [hj] at hc₁
    have hc₂ := staying_carryOut hh (hc₁.2 next rfl) hc₁.1
    rw [hn] at hc₂
    exact hc₂.1

/-- An `exit` ends the connection, with the code of the stage at which it comes. -/
theorem exitCode_serve (hh : handlers.Lawful) {payload : Bytes} {site : Site α}
    (ht : site.connection.takes .exit (site.connection.reads payload) = true) :
    (serve handlers payload site).2.connection.exitCode = some site.connection.leavingCode := by
  unfold serve
  rcases Connection.receive_of_takes_exit ht with ⟨-, he⟩ | ⟨origin, mode, params, -, he⟩
  · simp only [he, Connection.completeExit_eq]
    rfl
  · have hl := (actsTo_call hh ⟨.exit, origin, Connection.exitMethod, mode, Connection.exitMethod, params, .connection⟩
      { site with connection := site.connection.opened payload }).stage.1
    simp [he, carryOut, Connection.complete, Connection.completeExit_eq, Connection.noteFailure_eq, hl, Connection.leavingCode]

end Site

namespace Session

variable {s : Session α}

/-- A session calls the direct handler of a job at its site. -/
theorem runDirect_eq_call (s : Session α) (j : Job) :
    (s.runDirect j).1 = (s.handlers.call j s.site).1 ∧ (s.runDirect j).2.site = (s.handlers.call j s.site).2 ∧
      (s.runDirect j).2.handlers = s.handlers := by
  unfold runDirect Registry.call
  cases s.handlers.find? j.origin j.name with
  | none => exact ⟨rfl, rfl, rfl⟩
  | some b =>
    cases b with
    | direct run => exact ⟨rfl, site_rouse _, handlers_rouse _⟩
    | _ => exact ⟨rfl, rfl, rfl⟩

/-- A session carries a job out at its site. -/
theorem carryOut_eq_handBack {j : Job} {o : Outcome} {s₁ : Session α} (h : s.runDirect j = (o, s₁)) :
    Site.carryOut s.handlers j s.site = ((o, (s₁.handBack j o).2), (s₁.handBack j o).1.site) ∧
      (s₁.handBack j o).1.handlers = s.handlers := by
  obtain ⟨ho, hs, hh⟩ := runDirect_eq_call s j
  rw [h] at ho hs hh
  have hc : s.handlers.call j s.site = (o, s₁.site) := Prod.ext ho.symm hs.symm
  refine ⟨?_, (handlers_rouse _).trans hh⟩
  rw [handBack, site_rouse]
  simp only [Site.carryOut, hc, withConnection]

/-- The handlers of the session are lawful and blind, and the connection knows them: all are direct. -/
structure Blind (s : Session α) : Prop where
  lawful : s.handlers.Lawful
  blind : s.handlers.Blind
  routes : s.site.connection.routes = s.handlers.map Handler.mode

/-- Every handler of a session whose handlers are blind is direct. -/
theorem Blind.mode (h : s.Blind) {origin : Origin} {name : String} {mode : Mode}
    (hr : s.site.connection.routes.find? origin name = some mode) : mode = .direct := by
  rw [h.routes, Registry.find?_map] at hr
  obtain ⟨b, hb, rfl⟩ := Option.map_eq_some_iff.mp hr
  exact (h.blind _ _ _ hb).mode

/-- When all handlers are direct, the loop waits for nothing. -/
theorem Blind.receive_waits (h : s.Blind) (payload : Bytes) : (s.receive payload).2 = none := by
  cases hw : (s.receive payload).2 with
  | none => rfl
  | some n =>
    obtain ⟨-, -, method, mode, hn, hm⟩ := (s.receive_waits_iff payload n).mp hw
    exact absurd (h.mode hn.2.2.2.2) hm

/-- When all handlers are direct, a session does nothing with a payload but serve it at its site. -/
theorem Blind.receive_eq_serve (h : s.Blind) (payload : Bytes) :
    (s.receive payload).1.site = (s.site.serve s.handlers payload).2 ∧ (s.receive payload).1.handlers = s.handlers := by
  have hmode (connection : Connection) (j : Job) (hr : s.site.connection.receive payload = (connection, some j)) :
      j.mode = .direct := h.mode (Connection.find?_of_receive (by rw [hr]))
  have hs := handled_receive s payload
  generalize (s.receive payload).1 = s' at hs ⊢
  cases hs with
  | answered hr =>
    refine ⟨?_, handlers_rouse _⟩
    simp only [Site.serve, hr, site_rouse, withConnection]
  | @done connection j s₁ _ o hr hd hs =>
    have hsite : (s.withConnection connection).rouse.site = { s.site with connection } := site_rouse _
    have hhandlers : (s.withConnection connection).rouse.handlers = s.handlers := handlers_rouse _
    obtain ⟨hc, hh⟩ := carryOut_eq_handBack hd
    rw [hsite, hhandlers] at hc
    rw [hhandlers] at hh
    -- The job that follows a builtin one is served by the same registry, so it is direct, too.
    have hnext (next : Job) (hn : (s₁.handBack j o).2 = some next) : next.mode = .direct := by
      have hnext : (Site.carryOut s.handlers j { s.site with connection }).1.2 = some next := by rw [hc, hn]
      have hroute := Site.find?_of_carryOut h.lawful hnext
      have hroutes := (s.site.connection.receive_sameSetup payload).routes
      rw [hr] at hroutes
      exact h.mode (hroutes ▸ hroute)
    cases hs with
    | last he =>
      rw [he] at hc hh
      refine ⟨?_, hh⟩
      simp only [Site.serve, hr, hc]
    | @done s₂ s₃ next o' he hd' =>
      rw [he] at hc hh
      obtain ⟨hc', hh'⟩ := carryOut_eq_handBack hd'
      rw [hh] at hc'
      refine ⟨?_, hh'.trans hh⟩
      simp only [Site.serve, hr, hc, hc']
    | @begun s₂ next he hm =>
      rw [he] at hnext
      exact absurd (hnext next rfl) hm
  | begun hr hm => exact absurd (hmode _ _ hr) hm
  | spawned hr hm => exact absurd (hmode _ _ hr) hm

end Session

end Parley
