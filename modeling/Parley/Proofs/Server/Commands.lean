import Parley.Proofs.Registry.Calls
import Parley.Proofs.Server.Documents
import Parley.Proofs.Session.Outcomes

/-!
# What a server registers and what it offers

The registry of a server is what the calls that were taken have made of it, whatever else was tried (`Server.registrations_stay`). The
commands that the client is told of in answer to `initialize` are those that requests are routed for: the answer is made when the
user's handler of `initialize` has come back, from the connection as it is then, which has its commands for good.
-/

namespace Parley

namespace Registry

variable {β γ : Type}

/-- A registry of modes has the same commands. -/
theorem commandNames_map (f : β → γ) (r : Registry β) : (r.map f).commandNames = r.commandNames := by
  simp [commandNames, map, Table.keys, Table.map, Function.comp_def]

end Registry

/-- A request that names a command is routed exactly when the connection has a handler of this name. -/
theorem Connection.exists_route_iff {c : Connection} {id : MessageId} {params : Json} {name : String}
    (hn : (params.field? "command").bind Json.str? = some name) :
    (∃ mode args, c.route id commandMethod params = .ok (.command, name, mode, args)) ↔ name ∈ c.routes.commandNames := by
  rw [Registry.mem_commandNames]
  simp only [route, if_true, hn]
  cases c.routes.find? .command name <;> simp

namespace Server

variable {β : Type} {server : Server β} {handlers : Registry (Handler (Served β))}

/-- The commands in an answer to `initialize`. -/
def offered (result : Json) : List String :=
  (((result.valueField "capabilities").valueField "executeCommandProvider").listField "commands").filterMap Json.str?

/-- The commands that the client is told of are those that the answer is made from. -/
theorem offered_initializeResult (config : Config) (commands : List String) :
    offered (initializeResult config commands) = commands := by
  have htexts (names : List String) : (names.map Json.str).filterMap Json.str? = names := by
    rw [List.filterMap_map]
    exact List.filterMap_some
  cases commands with
  | nil =>
    simp [offered, initializeResult, Json.valueField, Json.object, Json.field?, Json.sortFields, Json.listField, Json.ofOption,
      Json.lookupField_insertField]
  | cons name names =>
    have hall := htexts (name :: names)
    simpa [offered, initializeResult, Json.valueField, Json.object, Json.field?, Json.sortFields, Json.listField, Json.ofOption,
      Json.lookupField_insertField, Json.strings, Json.arr?] using hall

/-- A handler may come back with a failure. -/
def mayFail (h : Handler (Served β)) : Prop := ∃ c e, (h.routine c).Leads (.done (.error e))

/-- What a handshake comes to: a result, which tells of the commands of the connection, unless the user's handler may fail, or the call
be cancelled. -/
def handshakeAim (handlers : Registry (Handler (Served β))) (config : Config) (fired : Prop) : Aim where
  routes := handlers.map Handler.mode
  back name o := name = initializeMethod → ∀ e, o = some (.error e) → fired ∨ ∃ b, handlers.find? .user name = some b ∧ mayFail b
  fired := fired
  reached o :=
    (∀ v, o = .ok v → v = initializeResult config (handlers.map Handler.mode).commandNames) ∧
      ∀ e, o = .error e → fired ∨ ∃ b, handlers.find? .user initializeMethod = some b ∧ mayFail b

/-- Handlers are such as the handshake takes them for. -/
theorem borneOut_handshakeAim (handlers : Registry (Handler (Served β))) (config : Config) (fired : Prop) :
    (handshakeAim handlers config fired).BorneOut handlers where
  routes := rfl
  missing := fun _ _ _ _ he => by cases he
  found := fun name b hb c o hl _ e he => by
    obtain rfl := Option.some.inj he
    exact .inr ⟨b, hb, c, e, hl⟩
  cancelled := fun hf => ⟨⟨nofun, fun _ _ => .inl hf⟩, fun _ _ _ _ => .inl hf⟩

/-- The handler of `initialize` comes to that, if the params have their shape. -/
theorem comesTo_initializeHandler (handlers : Registry (Handler (Served β))) (config : Config) (fired : Prop) {c : Call}
    (hm : c.method = initializeMethod) {v : Json} (hv : (Catalogue.paramsShape initializeMethod).read c.params = .ok v) :
    ((initializeHandler config : Handler (Served β)).routine c).ComesTo (handshakeAim handlers config fired) := by
  have hresult (s : Site (Served β)) (hs : s.connection.routes = (handshakeAim handlers config fired).routes) :
      (handshakeAim handlers config fired).reached (.ok (initializeResult config s.connection.routes.commandNames)) := by
    constructor
    · intro v hv
      rw [← Except.ok.inj hv, hs]
      rfl
    · rintro e ⟨⟩
  rw [initializeHandler, Handler.routine, Handler.typedBody, Call.read, hv]
  intro s _ o ho
  rcases o with - | e | -
  · exact hresult
  · constructor
    · rintro v ⟨⟩
    · intro e' he
      obtain rfl := Except.error.inj he
      rw [← hm]
      exact ho hm e rfl
  · exact hresult

/-- The commands of a connection are those of the user. -/
theorem commands_connectionRegistry (h : server.connectionRegistry = .ok handlers) : handlers.commands = server.registry.commands := by
  have hall (bs : List (String × Handler (Served β))) (r : Registry (Handler (Served β)))
      (hfold : bs.foldlM (fun r b => r.addBuiltin b.1 b.2) r = .ok handlers) : handlers.commands = r.commands := by
    induction bs generalizing r with
    | nil =>
      obtain rfl := Except.ok.inj hfold
      rfl
    | cons first bs ih =>
      rw [List.foldlM_cons] at hfold
      obtain ⟨r', ha, hfold⟩ := exists_of_bind_eq_ok hfold
      rw [ih r' hfold]
      unfold Registry.addBuiltin at ha
      split at ha
      · cases ha
      · obtain rfl := Except.ok.inj ha
        rfl
  exact hall _ server.userRegistry h

end Server

namespace Session

variable {β : Type} {server : Server β} {handlers : Registry (Handler (Served β))} {s s' : Session (Served β)} {id : MessageId}
  {payload : Bytes} {sent : Json}

/-- A request `initialize` has params of their shape. -/
theorem Underway.handshake_params (h : Underway handlers Catalogue.languageServer s)
    (hd : s.site.connection.reads payload = .ok (.request id Server.initializeMethod sent)) :
    ∃ v, (Catalogue.paramsShape Server.initializeMethod).read sent = .ok v := by
  rw [Connection.reads, h.catalogued] at hd
  obtain ⟨fields, -, henvelope⟩ := Message.decode_eq_ok_iff.mp hd
  cases henvelope with
  | request _ _ _ _ hvalid =>
    have hv : ((Catalogue.paramsShape Server.initializeMethod).read sent).isOk = true := hvalid _ rfl
    cases hr : (Catalogue.paramsShape Server.initializeMethod).read sent with
    | ok v => exact ⟨v, rfl⟩
    | error m =>
      rw [hr] at hv
      cases hv

/-- A request `initialize` is being served until it is answered. A result tells of the commands that requests are routed for, and there
is one unless the user's handler may fail or the request was cancelled. -/
theorem Underway.initialized (h : Underway handlers Catalogue.languageServer s) (hr : server.connectionRegistry = .ok handlers)
    (ha : s.site.connection.lifecycle = .active) (hf : s.site.connection.incoming.contains id = false)
    (hd : s.site.connection.reads payload = .ok (.request id Server.initializeMethod sent)) (hs : Later (s.receive payload).1 s')
    (ho : s'.site.connection.outgoing.closed = false) :
    (∃ f j, s'.fibers.find? s.nextFiber = some f ∧ f.job = some j ∧ j.duty = .request id) ∨
      ∃ o, Replied id o (s.receive payload).1 s' ∧ (∀ v, o = .ok v → Server.offered v = handlers.commandNames) ∧
        ∀ e, o = .error e → s'.isFired (.request s.site.connection.incoming.tokens) = true ∨
          ∃ b, handlers.find? .user Server.initializeMethod = some b ∧ Server.mayFail b := by
  obtain ⟨-, -, hbuiltins⟩ := Server.find?_addBuiltins hr
  have hb : handlers.find? .builtin Server.initializeMethod = some (Server.initializeHandler server.config) :=
    hbuiltins (Server.initializeMethod, Server.initializeHandler server.config) List.mem_cons_self
  have hne : Server.initializeMethod ≠ Connection.commandMethod := by decide
  have hcalled : Server.initializeHandler server.config ∈ handlers.calledBy (.request id Server.initializeMethod sent) := by
    simp [Registry.calledBy, hne, Registry.lookup, Registry.serving?, hb]
  obtain ⟨connection, j, hreceive, hfind, hmode, hparams, hduty, htoken, hmethod, -⟩ := h.exists_job ha hf hd hcalled
  have hduty : j.duty = .request id := hduty
  have hm : j.mode = .coroutine := hmode.symm
  have hid : j.duty.id? = some id := by
    rw [hduty]
    rfl
  have hopens := opens_receive hreceive hid (by simp [hm])
  have hu := h.next (.aside (.receive s payload))
  -- The call begins with the body of the handler.
  have hc : (s.fiberOf j).ComesTo (Server.handshakeAim handlers server.config (s'.isFired j.token = true)) := by
    obtain ⟨v, hv⟩ := h.handshake_params hd
    have hread : (Catalogue.paramsShape Server.initializeMethod).read j.call.params = .ok v := by
      have hp : j.call.params = sent := hparams.trans (if_neg hne)
      rw [hp, hv]
    have hbody : (s.fiberOf j).routine = (Server.initializeHandler server.config).routine j.call := by
      simp only [fiberOf, h.handlers, hfind]
    have halone := Server.comesTo_initializeHandler handlers server.config (s'.isFired j.token = true) hmethod hread
    rw [← hbody] at halone
    exact halone
  have hfiber : (s.receive payload).1.fibers.find? s.nextFiber = some (s.fiberOf j) := by
    rw [hopens.fibers, Table.find?_insert, if_pos rfl]
  rcases hu.replied hfiber rfl hduty hm (Server.borneOut_handshakeAim handlers _ _) hc hs (fun ht => ht) ho with
    ⟨f, hf, hj, -⟩ | ⟨o, ⟨hresult, hfailure⟩, hreplied⟩
  · exact .inl ⟨f, j, hf, hj, hduty⟩
  · refine .inr ⟨o, hreplied, fun v hv => ?_, htoken ▸ hfailure⟩
    rw [hresult v hv, Server.offered_initializeResult, Registry.commandNames_map]

end Session

namespace Server

/-- **Registrations stay, and a failed one leaves no trace.** Behind every row of calls that register something at a new registry:
1. a call that fails leaves all tables as they were, and the registry is the one that the calls that were taken make of a new one by
themselves, each of them with success;
2. a call is taken exactly when it is in order by itself and nothing is registered under its name in its own table, whatever the
others hold;
3. in each table the handler under a name is that of a call that was taken, and it is there whatever calls follow;
4. options belong to a feature of the user: they are those of the call that was taken for it, and stay;
5. a method is served by the builtin feature, or else by the user's;
6. the lists of commands and of methods are in strict order and have the names that are registered;
7. a server with this registry answers each request `initialize` that it begins to serve, whatever else happens and as long as the
connection lasts, with a failure or with a result that tells of its commands; and those are the names that a request for a command is
routed for. It is a result if the user's handler of `initialize`, if there is one, cannot fail and the request is not cancelled. -/
theorem registrations_stay {β : Type} (entries : List (Registry.Entry (Handler (Served β)))) :
    let r := ({} : Registry (Handler (Served β))).build entries
    let taken := ({} : Registry (Handler (Served β))).taken entries
    ((∀ e f, (r.register e).1 = .error f → (r.register e).2 = r) ∧
      (∀ e, r.add e = (r.register e).1.map fun _ => (r.register e).2) ∧ taken.foldlM Registry.add {} = .ok r) ∧
    (∀ e, r.Takes e ↔ e.InOrder ∧ r.find? e.origin e.name = none) ∧
    (∀ origin name h, (r.find? origin name = some h ↔ ∃ e ∈ taken, e.origin = origin ∧ e.name = name ∧ e.handler = h) ∧
      (r.find? origin name = some h → ∀ later, (r.build later).find? origin name = some h)) ∧
    (∀ method v, (r.options.find? method = some v ↔ ∃ h, .featureWith method (.ok v) h ∈ taken ∧ r.find? .user method = some h) ∧
      (r.options.find? method = some v → ∀ later, (r.build later).options.find? method = some v)) ∧
    (∀ method, r.lookup method = (r.find? .builtin method).or (r.find? .user method)) ∧
    (r.commandNames.Pairwise (· < ·) ∧ ∀ name, name ∈ r.commandNames ↔ (r.find? .command name).isSome = true) ∧
    (r.methods.Pairwise (· < ·) ∧
      ∀ name, name ∈ r.methods ↔ (r.find? .builtin name).isSome = true ∨ (r.find? .user name).isSome = true) ∧
    ∀ (server : Server β) handlers s payload id sent s', server.registry = r → server.connectionRegistry = .ok handlers → r.Lawful →
      Session.Reachable handlers Catalogue.languageServer s → s.site.connection.lifecycle = .active →
      s.site.connection.incoming.contains id = false →
      s.site.connection.reads payload = .ok (.request id initializeMethod sent) →
      Session.Later (s.receive payload).1 s' → s'.site.connection.outgoing.closed = false →
      (∃ f j, s'.fibers.find? s.nextFiber = some f ∧ f.job = some j ∧ j.duty = .request id) ∨
        ∃ o, Session.Replied id o (s.receive payload).1 s' ∧
          ((∀ b, server.userRegistry.find? .user initializeMethod = some b → ¬ mayFail b) →
            s'.isFired (.request s.site.connection.incoming.tokens) = false → ∃ v, o = .ok v) ∧
          ∀ v, o = .ok v →
            offered v = r.commandNames ∧
            ∀ i params name, (params.field? "command").bind Json.str? = some name →
              (name ∈ offered v ↔
                ∃ mode args, s'.site.connection.route i Connection.commandMethod params = .ok (.command, name, mode, args)) := by
  intro r taken
  have hpaired : r.Paired := Registry.paired_nil.build entries
  have hfound (origin : Origin) (name : String) (h : Handler (Served β)) :
      r.find? origin name = some h ↔ ∃ e ∈ taken, e.origin = origin ∧ e.name = name ∧ e.handler = h := by
    rw [Registry.find?_build_iff, or_iff_right]
    cases origin <;> exact nofun
  refine ⟨⟨fun e f => Registry.register_of_error, Registry.add_eq_register r, Registry.foldlM_taken _ entries⟩,
    fun e => Registry.takes_iff, fun origin name h => ⟨hfound origin name h, fun hf => Registry.find?_build_of_find? hf⟩,
    fun method v => ⟨?_, fun hv later => (Registry.options_build_iff hpaired).mpr (.inl hv)⟩, Registry.lookup_eq_or r,
    ⟨Registry.sortNames_pairwise _, fun name => Registry.mem_commandNames⟩,
    ⟨Registry.sortNames_pairwise _, fun name => Registry.mem_methods⟩, ?_⟩
  · rw [Registry.options_build_iff Registry.paired_nil, or_iff_right nofun]
    refine exists_congr fun h => ⟨fun hm => ⟨hm, (hfound _ _ _).mpr ⟨_, hm, rfl, rfl, rfl⟩⟩, And.left⟩
  · intro server handlers s payload id sent s' hregistry hr hl hreach ha hf hd hs ho
    have hu := hreach.underway (connectionRegistry_lawful (hregistry ▸ hl) hr)
    have hnames : handlers.commandNames = r.commandNames := by
      rw [Registry.commandNames, commands_connectionRegistry hr, hregistry, Registry.commandNames]
    obtain ⟨huser, -⟩ := find?_addBuiltins hr
    rcases hu.initialized hr ha hf hd hs ho with hwork | ⟨o, hreplied, hresult, hfailure⟩
    · exact .inl hwork
    · refine .inr ⟨o, hreplied, fun hnever ht => ?_, fun v hv => ⟨(hresult v hv).trans hnames, fun i params name hn => ?_⟩⟩
      · cases o with
        | ok v => exact ⟨v, rfl⟩
        | error e =>
          rcases hfailure e rfl with hfired | ⟨b, hb, hfails⟩
          · rw [ht] at hfired
            cases hfired
          · exact absurd hfails (hnever b (huser _ ▸ hb))
      have hroutes := ((hu.next (.aside (.receive s payload))).later hs).routes
      rw [Connection.exists_route_iff hn, hresult v hv, hroutes, Registry.commandNames_map]

/-- Calls of which half are not taken: a name is blank, options cannot be written, and a command is there already. -/
def offering : List (Registry.Entry (Handler (Served Unit))) :=
  [.command "zeta" (.coroutine fun _ => .done (.ok .null)), .command "  " (.coroutine fun _ => .done (.ok .null)),
   .featureWith "zeta" (.error .keyNotText) (.direct fun _ s => (.ok .null, s)),
   .command "alpha" (.direct fun _ s => (.ok .null, s)), .command "zeta" (.direct fun _ s => (.ok .null, s)),
   .feature "zeta" (.direct fun _ s => (.ok .null, s))]

/-- A server with the commands of `offering`. -/
def offeringServer : Server Unit := { config := {}, registry := ({} : Registry (Handler (Served Unit))).build offering }

/-- A request for the handshake. -/
def handshaking : Message := .request (.num 1) initializeMethod (Json.object [("capabilities", Json.object [])])

/-- Its handlers leave the connection alone. -/
theorem lawful_offeringServer : offeringServer.registry.Lawful := by
  intro origin name b hb
  obtain ⟨e, he, -, -, rfl⟩ := (Registry.find?_build_iff.mp hb).resolve_left (by cases origin <;> exact nofun)
  have hm := Registry.mem_of_mem_taken he
  simp only [offering, List.mem_cons, List.not_mem_nil, or_false] at hm
  rcases hm with rfl | rfl | rfl | rfl | rfl | rfl
  · exact fun _ => trivial
  · exact fun _ => trivial
  all_goals exact fun _ _ => .refl _

/-- In `offeringServer` the command is there whose name is free, and the feature of its name beside it, without options. The client
that asks `initialize` gets a result, which tells of that command and not of the blank one. -/
theorem registrations_stay_blankName :
    let r := offeringServer.registry
    "zeta" ∈ r.commandNames ∧ "  " ∉ r.commandNames ∧ (r.find? .user "zeta").isSome = true ∧ r.options.find? "zeta" = none ∧
      ∃ handlers, offeringServer.connectionRegistry = .ok handlers ∧
        let s := Session.make handlers Catalogue.languageServer 1 (⟨{}, ()⟩ : Served Unit)
        let s' := (s.receive handshaking.encode).1.run 3
        ∃ v, Session.Replied (.num 1) (.ok v) (s.receive handshaking.encode).1 s' ∧ "zeta" ∈ offered v ∧ "  " ∉ offered v := by
  intro r
  obtain ⟨-, -, -, -, -, ⟨-, hcommands⟩, -, hserver⟩ := registrations_stay offering
  have hzeta : "zeta" ∈ r.commandNames := (hcommands _).mpr rfl
  have hblank : "  " ∉ r.commandNames := fun hm => nomatch (hcommands _).mp hm
  obtain ⟨handlers, hr, hgone, hlive, hopen⟩ : ∃ handlers, offeringServer.connectionRegistry = .ok handlers ∧
      let s := Session.make handlers Catalogue.languageServer 1 (⟨{}, ()⟩ : Served Unit)
      (((s.receive handshaking.encode).1.run 3).fibers.find? s.nextFiber).isNone = true ∧
        ((s.receive handshaking.encode).1.run 3).isFired (.request 0) = false ∧
        ((s.receive handshaking.encode).1.run 3).site.connection.outgoing.closed = false :=
    ⟨_, rfl, by decide +kernel, by decide +kernel, by decide +kernel⟩
  refine ⟨hzeta, hblank, rfl, rfl, handlers, hr, ?_⟩
  intro s s'
  have hreach : Session.Reachable handlers Catalogue.languageServer s := .make _ _
  have hd : s.site.connection.reads handshaking.encode = .ok handshaking :=
    congrArg Prod.fst (Message.decode_request (c := Catalogue.languageServer) (rfl : (MessageId.num 1).IsAccepted) rfl rfl {})
  rcases hserver offeringServer handlers s handshaking.encode (.num 1) _ s' rfl hr lawful_offeringServer hreach rfl rfl hd
      (Session.later_run _ 3) hopen with ⟨f, j, hf, -⟩ | ⟨o, hreplied, hsucceeds, hresult⟩
  · have hgone : (s'.fibers.find? s.nextFiber).isNone = true := hgone
    rw [hf] at hgone
    cases hgone
  · obtain ⟨v, rfl⟩ := hsucceeds (fun b hb => by cases hb) hlive
    refine ⟨v, hreplied, ?_⟩
    rw [(hresult v rfl).1]
    exact ⟨hzeta, hblank⟩

end Server

end Parley
