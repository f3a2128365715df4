import Parley.Proofs.Message.Envelope
import Parley.Proofs.Message.Written
import Parley.Proofs.Server.Edits
import Parley.Proofs.Server.Lawful
import Parley.Proofs.Session.Serving
import Parley.Proofs.Session.Staff

/-!
# Documents of a server

The workspace of a server follows the edits that the notifications of the editor are: the builtin handler of such a notification
makes the edit, and then the user's handler is called, once, with the workspace as it is behind the edit. Whatever else happens
between two notifications, the workspace is what the history of the edits tells (`documents_follow_editor`), if only the handlers
leave it as it is.
-/

namespace Parley

namespace Edit

variable {method : String} {params : Json}

theorem mem_methods (h : method ∈ methods) :
    method = "textDocument/didOpen" ∨ method = "textDocument/didChange" ∨ method = "textDocument/didClose" ∨
      method = "workspace/didChangeWorkspaceFolders" := by
  simpa only [methods, List.mem_cons, List.not_mem_nil, or_false] using h

/-- Every edit is a notification of the protocol, whose params have the shape that its builtin handler reads. -/
theorem notification?_of_mem_methods (h : method ∈ methods) :
    Catalogue.languageServer.notification? method = some (Catalogue.paramsShape method) := by
  rcases mem_methods h with rfl | rfl | rfl | rfl <;> rfl

/-- Whatever its params are, an edit is one. -/
theorem exists_ofParams (h : method ∈ methods) (v : Json) : ∃ e, ofParams v method = some e := by
  rcases mem_methods h with rfl | rfl | rfl | rfl <;> exact ⟨_, rfl⟩

/-- Edits are neither cancellations nor `exit`. -/
theorem ne_of_mem_methods (h : method ∈ methods) : method ≠ Connection.cancelMethod ∧ method ≠ Connection.exitMethod := by
  rcases mem_methods h with rfl | rfl | rfl | rfl <;> decide

/-- A notification that is accepted is an edit. -/
theorem exists_of_decode (h : method ∈ methods) {payload : Bytes}
    (hd : (Message.decode Catalogue.languageServer {} payload).1 = .ok (.notification method params)) :
    ∃ v e, (Catalogue.paramsShape method).read params = .ok v ∧ ofParams v method = some e ∧
      read? method params = some e := by
  obtain ⟨fields, -, henvelope⟩ := Message.decode_eq_ok_iff.mp hd
  cases henvelope with
  | notification hid hname hp hvalid =>
    have hv : ((Catalogue.paramsShape method).read params).isOk = true := hvalid _ (notification?_of_mem_methods h)
    cases hr : (Catalogue.paramsShape method).read params with
    | error m =>
      rw [hr] at hv
      cases hv
    | ok v =>
      obtain ⟨e, he⟩ := exists_ofParams h v
      exact ⟨v, e, rfl, he, by simp [read?, hr, he]⟩

end Edit

namespace Workspace

/-- A change of a document is an edit. -/
theorem changeDocument_eq (params : Json) (w : Workspace) :
    Server.changeDocument params w =
      w.edit (.changed ((params.valueField "textDocument").textField "uri") ((params.valueField "textDocument").intField "version")
        (((params.listField "contentChanges").filter fun c => (c.field? "range").isNone).map (·.textField "text"))) := by
  have hchanges (text : String) (changes : List Json) :
      Change.applyAll text (changes.map Change.ofJson) =
        Change.applyAll text
          (((changes.filter fun c => (c.field? "range").isNone).map (·.textField "text")).map (⟨false, ·⟩)) := by
    rw [applyAll_whole, applyAll_eq, List.filter_map, List.map_map]
    have hf : (fun c : Change => !c.ofRange) ∘ Change.ofJson = fun c => (c.field? "range").isNone := by
      funext c
      simp [Change.ofJson]
    rw [hf]
    rfl
  simp only [Server.changeDocument, edit, updateDocument, hchanges]

/-- A change of folders is an edit. -/
theorem changeFolders_eq (params : Json) (w : Workspace) :
    Server.changeFolders params w =
      w.edit (.moved (((params.valueField "event").listField "removed").map (·.textField "uri"))
        (((params.valueField "event").listField "added").map Folder.ofJson)) := by
  simp only [Server.changeFolders, edit, List.foldl_map]

end Workspace

namespace Server

variable {β : Type} {method : String}

/-- The builtin handler of an edit reads its params and makes it. -/
theorem exists_builtin (config : Config) (h : method ∈ Edit.methods) :
    ∃ change, (method, (workspaceHandler method change : Handler (Served β))) ∈ builtins config ∧
      ∀ v w e, Edit.ofParams v method = some e → change v w = w.edit e := by
  rcases Edit.mem_methods h with rfl | rfl | rfl | rfl
  · refine ⟨_, List.mem_of_getElem? (i := 2) rfl, ?_⟩
    rintro v w e ⟨⟩
    rfl
  · refine ⟨_, List.mem_of_getElem? (i := 3) rfl, ?_⟩
    rintro v w e ⟨⟩
    exact Workspace.changeDocument_eq v w
  · refine ⟨_, List.mem_of_getElem? (i := 4) rfl, ?_⟩
    rintro v w e ⟨⟩
    rfl
  · refine ⟨_, List.mem_of_getElem? (i := 5) rfl, ?_⟩
    rintro v w e ⟨⟩
    exact Workspace.changeFolders_eq v w

/-- A handler of the user stays where it is when builtin features are added, and these stay too. -/
theorem find?_addBuiltins {handlers r : Registry (Handler (Served β))} {bs : List (String × Handler (Served β))}
    (h : bs.foldlM (fun r b => r.addBuiltin b.1 b.2) r = .ok handlers) :
    (∀ name, handlers.find? .user name = r.find? .user name) ∧
      (∀ name b, r.find? .builtin name = some b → handlers.find? .builtin name = some b) ∧
      ∀ e ∈ bs, handlers.find? .builtin e.1 = some e.2 := by
  induction bs generalizing r with
  | nil =>
    obtain rfl := Except.ok.inj h
    exact ⟨fun _ => rfl, fun _ _ hf => hf, fun e he => (List.not_mem_nil he).elim⟩
  | cons first bs ih =>
    rw [List.foldlM_cons] at h
    obtain ⟨r', ha, h⟩ := exists_of_bind_eq_ok h
    obtain ⟨huser, hbuiltin, hall⟩ := ih h
    unfold Registry.addBuiltin at ha
    split at ha
    · cases ha
    · rename_i hfree
      obtain rfl := Except.ok.inj ha
      refine ⟨huser, ?_, ?_⟩
      · intro name b hf
        refine hbuiltin name b ?_
        have hne : name ≠ first.1 := by
          rintro rfl
          have hf : r.builtins.find? first.1 = some b := hf
          simp [Table.contains, hf] at hfree
        exact (Table.find?_insert _ _ _ _).trans ((if_neg hne).trans hf)
      · intro e he
        rcases List.mem_cons.mp he with rfl | he
        · refine hbuiltin e.1 e.2 ?_
          exact (Table.find?_insert _ _ _ _).trans (if_pos rfl)
        · exact hall e he

end Server

/-! ## One notification -/

/-- A payload is a notification of an edit, whose params may not have their shape. -/
def Message.IsEdit (payload : Bytes) : Prop :=
  ∃ method ∈ Edit.methods,
    (∃ params, (decode Catalogue.languageServer {} payload).1 = .ok (.notification method params)) ∨
      ∃ m, (decode Catalogue.languageServer {} payload).1 = .error (.invalidParams none method m)

/-- The edit that a payload is. -/
def Message.edit? (payload : Bytes) : Option Edit :=
  match (decode Catalogue.languageServer {} payload).1 with
  | .ok (.notification method params) => Edit.read? method params
  | _ => none

/-- A handler is direct, and whatever the call, it leaves the workspace as it is. -/
def Handler.Observes {β : Type} : Handler (Served β) → Prop
  | .direct run => ∀ c s, (run c s).2.own.workspace = s.own.workspace
  | .coroutine _ | .threaded _ => False

/-- The site behind the user's direct handler of a notification, which is called once if there is one: a failure is reported. -/
def Site.pass {β : Type} (site : Site (Served β)) (registry : Registry (Handler (Served β))) (method : String) (params : Json) :
    Site (Served β) :=
  match registry.find? .user method with
  | some (.direct run) =>
    { (run ⟨none, method, .connection, params⟩ site).2 with
      connection := (run ⟨none, method, .connection, params⟩ site).2.connection.noteFailure
        (run ⟨none, method, .connection, params⟩ site).1 }
  | _ => site

/-- The user's handlers of edits only look. -/
def Server.Observes {β : Type} (server : Server β) : Prop :=
  ∀ method ∈ Edit.methods, ∀ b, server.userRegistry.find? .user method = some b → b.Observes

namespace Session

variable {β : Type} {server : Server β} {handlers : Registry (Handler (Served β))} {s t : Session (Served β)} {payload : Bytes}
  {method : String} {params : Json}

/-- A notification is read the same whatever is expected of the peer. -/
theorem Underway.reads_edit (h : Underway handlers Catalogue.languageServer s) (hp : Message.IsEdit payload) :
    s.site.connection.reads payload = (Message.decode Catalogue.languageServer {} payload).1 ∧
      s.site.connection.opened payload = s.site.connection := by
  have htold : Message.replier? payload = none := by
    rw [← Message.told_decode Catalogue.languageServer {} payload]
    obtain ⟨method, -, ⟨params, hd⟩ | ⟨m, hd⟩⟩ := hp <;> (rw [hd]; rfl)
  have hr := Connection.reads_of_not_replier (c := s.site.connection) htold
  rw [h.catalogued] at hr
  refine ⟨hr, Connection.opened_of_not_told ?_⟩
  rw [Connection.reads, Message.told_decode]
  exact htold

/-- A notification whose params do not have their shape is reported, and nothing else comes of it. -/
theorem Underway.receive_refused (h : Underway handlers Catalogue.languageServer s) (hm : method ∈ Edit.methods) {m : Mismatch}
    (hd : (Message.decode Catalogue.languageServer {} payload).1 = .error (.invalidParams none method m)) :
    (s.receive payload).2 = none ∧ (s.receive payload).1.fibers = s.fibers ∧
      (s.receive payload).1.site = { s.site with
        connection := s.site.connection.report .decode (DecodeFault.invalidParams none method m).message } := by
  obtain ⟨hreads, hopened⟩ := h.reads_edit ⟨method, hm, .inr ⟨m, hd⟩⟩
  have hr := Connection.receive_of_error (hreads.trans hd)
  rw [hopened] at hr
  simp only [receive, hr, fibers_rouse, site_rouse, withConnection]
  exact ⟨trivial, trivial, rfl⟩

/-- A direct handler is run where the session is, and the calls in progress stay as they are. -/
theorem runDirect_of_find {j : Job} {run : Call → Site (Served β) → Outcome × Site (Served β)}
    (hf : s.handlers.find? j.origin j.name = some (.direct run)) :
    s.runDirect j = ((run j.call s.site).1, { s with site := (run j.call s.site).2 }.rouse) := by
  simp only [runDirect, hf]

/-- A handler of the workspace makes its change if the params have their shape. -/
theorem runDirect_workspaceHandler {j : Job} {change : Json → Workspace → Workspace} {v : Json}
    (hf : s.handlers.find? j.origin j.name = some (Server.workspaceHandler method change))
    (hv : (Catalogue.paramsShape method).read j.params = .ok v) :
    s.runDirect j = (.ok .null, { s with site := Server.onWorkspace (change v) s.site }.rouse) := by
  rw [runDirect_of_find hf]
  simp only [Job.call, Call.read, hv]

/-- The user's job of a notification is that of the handler that the server registers for it. -/
theorem Underway.userJob (h : Underway handlers Catalogue.languageServer s) (hr : server.connectionRegistry = .ok handlers)
    (method : String) (params : Json) :
    s.site.connection.userJob method params = (server.userRegistry.find? .user method).map fun b =>
      ⟨.notification, .user, method, b.mode, method, params, .connection⟩ := by
  obtain ⟨huser, -⟩ := Server.find?_addBuiltins hr
  have hmode : s.site.connection.routes.find? .user method = (server.userRegistry.find? .user method).map Handler.mode := by
    rw [h.routes, Registry.find?_map, huser]
  rw [Connection.userJob, hmode, Option.map_map]
  rfl

/-- A notification whose params have their shape is an edit of the workspace, behind which the user's handler is called. -/
theorem Underway.receive_edit (h : Underway handlers Catalogue.languageServer s) (hr : server.connectionRegistry = .ok handlers)
    (ho : server.Observes) (ha : s.site.connection.lifecycle = .active) (hm : method ∈ Edit.methods)
    (hd : (Message.decode Catalogue.languageServer {} payload).1 = .ok (.notification method params)) {v : Json} {e : Edit}
    (hv : (Catalogue.paramsShape method).read params = .ok v) (he : Edit.ofParams v method = some e) :
    (s.receive payload).2 = none ∧ (s.receive payload).1.fibers = s.fibers ∧
      (s.receive payload).1.site = (Server.onWorkspace (·.edit e) s.site).pass server.userRegistry method params := by
  obtain ⟨huser, -, hbuiltins⟩ := Server.find?_addBuiltins hr
  obtain ⟨change, hb, hchange⟩ := Server.exists_builtin server.config hm
  have hbuiltin : s.handlers.find? .builtin method = some (Server.workspaceHandler method change) := by
    rw [h.handlers]
    exact hbuiltins _ hb
  have hroute : s.site.connection.routes.find? .builtin method = some .direct := by
    rw [h.routes, Registry.find?_map, ← h.handlers, hbuiltin]
    rfl
  obtain ⟨hreads, hopened⟩ := h.reads_edit ⟨method, hm, .inl ⟨params, hd⟩⟩
  obtain ⟨hcancel, hexit⟩ := Edit.ne_of_mem_methods hm
  have hreceive := Connection.receive_builtin (hreads.trans hd) hcancel hexit ha hroute
  rw [hopened] at hreceive
  -- The builtin handler makes the edit.
  have hdone : (s.withConnection s.site.connection).rouse.runDirect
      ⟨.builtin, .builtin, method, .direct, method, params, .connection⟩ =
        (.ok .null, { (s.withConnection s.site.connection).rouse with site := Server.onWorkspace (·.edit e) s.site }.rouse) := by
    have hfind : (s.withConnection s.site.connection).rouse.handlers.find? .builtin method =
        some (Server.workspaceHandler method change) := by
      rw [handlers_rouse]
      exact hbuiltin
    have hedit : Server.onWorkspace (change v) s.site = Server.onWorkspace (·.edit e) s.site := by
      simp only [Server.onWorkspace, hchange v _ e he]
    rw [runDirect_workspaceHandler hfind hv, site_rouse, ← hedit]
    rfl
  -- The user's handler comes next, if there is one.
  have hnext : (Server.onWorkspace (·.edit e) s.site).connection.complete
      ⟨.builtin, .builtin, method, .direct, method, params, .connection⟩ (.ok .null) =
        (s.site.connection, (server.userRegistry.find? .user method).map fun b =>
          ⟨.notification, .user, method, b.mode, method, params, .connection⟩) := by
    rw [← h.userJob hr]
    rfl
  simp only [receive, hreceive, if_true, hdone, settle, handBack, site_rouse, hnext]
  cases hf : server.userRegistry.find? .user method with
  | none =>
    simp only [Option.map_none, fibers_rouse, site_rouse, withConnection, Site.pass, hf]
    exact ⟨trivial, trivial, rfl⟩
  | some b =>
    cases b with
    | coroutine body => exact (ho method hm _ hf).elim
    | threaded body => exact (ho method hm _ hf).elim
    | direct run =>
      have hfind (t : Session (Served β)) (ht : t.handlers = s.handlers) :
          t.handlers.find? .user method = some (.direct run) := by
        rw [ht, h.handlers, huser, hf]
      simp only [Option.map_some, Handler.mode, if_true]
      rw [runDirect_of_find (hfind _ (by simp only [handlers_rouse, withConnection]))]
      simp only [fibers_rouse, site_rouse, withConnection, Site.pass, hf, Connection.complete, Job.call]
      exact ⟨trivial, trivial, rfl⟩

/-! ## A row of notifications -/

/-- These notifications of edits come to a session one after the other while the service goes on. Between them, anything may happen
that leaves the workspace as it is. -/
inductive Delivered (s : Session (Served β)) : List Bytes → Session (Served β) → Prop
  | nothing : Delivered s [] s
  | meanwhile {payloads : List Bytes} {t t' : Session (Served β)} (h : Delivered s payloads t) (hn : Next t t')
    (hw : t'.site.own.workspace = t.site.own.workspace) : Delivered s payloads t'
  | edit {payloads : List Bytes} {t : Session (Served β)} {payload : Bytes} (h : Delivered s payloads t)
    (ha : t.site.connection.lifecycle = .active) (hp : Message.IsEdit payload) :
    Delivered s (payloads ++ [payload]) (t.receive payload).1

/-- The session behind payloads that come one after the other. -/
def behind (s : Session (Served β)) (payloads : List Bytes) : Session (Served β) :=
  payloads.foldl (fun s payload => (s.receive payload).1) s

/-- Notifications may come with nothing between them. -/
theorem delivered_behind {payloads : List Bytes} (hp : ∀ p ∈ payloads, Message.IsEdit p)
    (ha : ∀ n < payloads.length, (s.behind (payloads.take n)).site.connection.lifecycle = .active) :
    Delivered s payloads (s.behind payloads) := by
  have htake : ∀ n ≤ payloads.length, Delivered s (payloads.take n) (s.behind (payloads.take n)) := by
    intro n hn
    induction n with
    | zero => exact .nothing
    | succ n ih =>
      have hlast : payloads.take (n + 1) = payloads.take n ++ [payloads[n]] := List.take_succ_eq_append_getElem hn
      have hedit := (ih (Nat.le_of_succ_le hn)).edit (ha n hn) (hp _ (List.getElem_mem hn))
      rw [hlast, behind, List.foldl_append]
      exact hedit
  have hall := htake payloads.length (Nat.le_refl _)
  rwa [List.take_length] at hall

/-- To have payloads delivered is to go on. -/
theorem Delivered.later {payloads : List Bytes} (h : Delivered s payloads t) : Later s t := by
  induction h with
  | nothing => exact .refl
  | meanwhile _ hn _ ih => exact ih.tail hn
  | edit _ _ _ ih => exact ih.tail (.aside (.receive _ _))

end Session

/-- A handler that only looks leaves the workspace to those behind it. -/
theorem Site.workspace_pass {β : Type} {server : Server β} (ho : server.Observes) {method : String} (hm : method ∈ Edit.methods)
    (params : Json) (site : Site (Served β)) :
    (site.pass server.userRegistry method params).own.workspace = site.own.workspace := by
  unfold pass
  split
  · rename_i run hf
    exact ho method hm _ hf _ _
  · rfl

namespace Session

variable {β : Type} {server : Server β} {handlers : Registry (Handler (Served β))} {s t : Session (Served β)}
  {payloads : List Bytes}

/-- The workspace of a session is that of the beginning behind the edits that have come. -/
theorem Delivered.workspace (hd : Delivered s payloads t) (h : Underway handlers Catalogue.languageServer s)
    (hr : server.connectionRegistry = .ok handlers) (ho : server.Observes) :
    t.site.own.workspace = (payloads.filterMap Message.edit?).foldl Workspace.edit s.site.own.workspace := by
  induction hd with
  | nothing => rfl
  | meanwhile _ _ hw ih => rw [hw, ih]
  | @edit payloads t payload hd ha hp ih =>
    have hu := h.later hd.later
    rw [List.filterMap_append, List.foldl_append, ← ih]
    obtain ⟨method, hm, ⟨params, hread⟩ | ⟨m, hread⟩⟩ := hp
    · obtain ⟨v, e, hv, he, hedit⟩ := Edit.exists_of_decode hm hread
      have hs := (hu.receive_edit hr ho ha hm hread hv he).2.2
      have hp : Message.edit? payload = some e := by simp only [Message.edit?, hread, hedit]
      rw [hs, Site.workspace_pass ho hm, List.filterMap_cons, hp]
      rfl
    · have hs := (hu.receive_refused hm hread).2.2
      have hp : Message.edit? payload = none := by simp only [Message.edit?, hread]
      rw [hs, List.filterMap_cons, hp]
      rfl

end Session

open Session in
/-- The workspace of a server is what the editor tells, in four parts. The user's handlers of the notifications of edits are direct
and leave the workspace as it is, and may fail or break off; `t` is the state behind any row of such notifications, from any state
of a session of the server on, whatever else happens between them that leaves the workspace as it is.
1. A document is open exactly if the history recalls it, the documents that were open before coming first in it: it was opened and
   has not been closed since, its language is that of its last opening, its version that of its last opening or change, and its text
   that of its last opening or its last change of the whole text.
2. The folders are listed in the order of their URIs, each once.
3. A notification whose params have their shape is an edit. The builtin handler makes it, then the user's handler is called once,
   with the site whose workspace has the edit, and a failure is reported; no call is left. The documents and the folders are those
   before with the edit: for the folders, without those removed and with those added, the later before the earlier.
4. A notification whose params do not have their shape is reported, and no handler is called. -/
theorem documents_follow_editor {β : Type} (server : Server β) (hl : server.registry.Lawful) (ho : server.Observes)
    {handlers : Registry (Handler (Served β))} (hr : server.connectionRegistry = .ok handlers) {s t : Session (Served β)}
    (h : Reachable handlers Catalogue.languageServer s) (hk : s.site.own.workspace.Keyed) {payloads : List Bytes}
    (hd : Delivered s payloads t) :
    (∀ uri d, t.site.own.workspace.documents.find? uri = some d ↔
      Edit.Recalls (s.site.own.workspace.openings ++ payloads.filterMap Message.edit?) uri d) ∧
    (t.site.own.workspace.sortedFolders.Pairwise (fun f g => f.uri < g.uri) ∧
      ∀ f, f ∈ t.site.own.workspace.sortedFolders ↔ t.site.own.workspace.folders.find? f.uri = some f) ∧
    (∀ payload method params, t.site.connection.lifecycle = .active → method ∈ Edit.methods →
      (Message.decode Catalogue.languageServer {} payload).1 = .ok (.notification method params) →
      ∃ e, Edit.read? method params = some e ∧
        (t.receive payload).1.site = (Server.onWorkspace (·.edit e) t.site).pass server.userRegistry method params ∧
        (t.receive payload).1.fibers = t.fibers ∧ (t.receive payload).2 = none ∧
        (t.receive payload).1.site.own.workspace = t.site.own.workspace.edit e ∧
        (∀ uri, (t.site.own.workspace.edit e).documents.find? uri =
          e.documentAfter uri (t.site.own.workspace.documents.find? uri)) ∧
        ∀ uri, (t.site.own.workspace.edit e).folders.find? uri = e.folderAfter uri (t.site.own.workspace.folders.find? uri)) ∧
    ∀ payload method m, method ∈ Edit.methods →
      (Message.decode Catalogue.languageServer {} payload).1 = .error (.invalidParams none method m) →
      (t.receive payload).1.site = { t.site with
        connection := t.site.connection.report .decode (DecodeFault.invalidParams none method m).message } ∧
        (t.receive payload).1.fibers = t.fibers ∧ (t.receive payload).2 = none := by
  have hu := h.underway (Server.connectionRegistry_lawful hl hr)
  have hut := hu.later hd.later
  have hw := hd.workspace hu hr ho
  have hkt : t.site.own.workspace.Keyed := hw ▸ hk.foldl_edit _
  refine ⟨?_, ⟨hkt.sortedFolders_pairwise, hkt.mem_sortedFolders⟩, ?_, ?_⟩
  · intro uri d
    rw [hw]
    exact Workspace.find?_foldl_edit_iff hk
  · intro payload method params ha hm hread
    obtain ⟨v, e, hv, he, hedit⟩ := Edit.exists_of_decode hm hread
    obtain ⟨hwait, hfibers, hsite⟩ := hut.receive_edit hr ho ha hm hread hv he
    refine ⟨e, hedit, hsite, hfibers, hwait, ?_, Workspace.find?_documents_edit _ e, Workspace.find?_folders_edit _ e⟩
    rw [hsite, Site.workspace_pass ho hm]
    rfl
  · intro payload method m hm hread
    obtain ⟨hwait, hfibers, hsite⟩ := hut.receive_refused hm hread
    exact ⟨hsite, hfibers, hwait⟩

/-- A server whose handlers of two kinds of edits fail, one by breaking off. -/
def clumsyServer : Server Unit :=
  { config := { messageSize := 1024 }
    registry :=
      { features :=
          (({} : Table String (Handler (Served Unit))).insert "textDocument/didOpen"
            (.direct fun _ s => (.error (.failed "no"), s))).insert "textDocument/didChange"
            (.direct fun _ s => (.error (.panicked "no"), s)) } }

/-- These are its handlers. -/
theorem eq_of_find?_clumsyServer {origin : Origin} {name : String} {b : Handler (Served Unit)}
    (h : clumsyServer.userRegistry.find? origin name = some b) : ∃ f, b = .direct fun _ s => (.error f, s) := by
  cases origin with
  | builtin => cases h
  | command => cases h
  | user =>
    rcases Registry.find?_insert_cases h with rfl | h
    · exact ⟨_, rfl⟩
    · rcases Registry.find?_insert_cases h with rfl | h
      · exact ⟨_, rfl⟩
      · cases h

/-- The handlers of `clumsyServer` leave the connection alone. -/
theorem lawful_clumsyServer : clumsyServer.registry.Lawful := by
  intro origin name b hb
  obtain ⟨f, rfl⟩ := eq_of_find?_clumsyServer hb
  exact fun _ _ => .refl _

/-- And the workspace. -/
theorem observes_clumsyServer : clumsyServer.Observes := by
  intro method _ b hb
  obtain ⟨f, rfl⟩ := eq_of_find?_clumsyServer hb
  exact fun _ _ => rfl

/-- A document is opened. -/
def opening (uri : String) : Message :=
  .notification "textDocument/didOpen" (Json.object [("textDocument", Json.object
    [("uri", .str uri), ("languageId", .str "rust"), ("version", .int 1), ("text", .str "a")])])

/-- A document gets two texts, one after the other. -/
def changing (uri : String) : Message :=
  .notification "textDocument/didChange" (Json.object
    [("textDocument", Json.object [("uri", .str uri), ("version", .int 2)]),
     ("contentChanges", .arr [Json.object [("text", .str "b")], Json.object [("text", .str "c")]])])

/-- A document is closed. -/
def closing (uri : String) : Message :=
  .notification "textDocument/didClose" (Json.object [("textDocument", Json.object [("uri", .str uri)])])

/-- Two documents are opened and changed, and the second one is closed before it is changed once more. -/
def editing : List Message :=
  [opening "file:///a", opening "file:///b", changing "file:///a", closing "file:///b", changing "file:///b"]

/-- What is sent is read. -/
theorem isEdit_editing : ∀ m ∈ editing, Message.IsEdit m.encode := by
  intro m hm
  have hread (method : String) (params : Json) (hmethod : method ∈ Edit.methods)
      (hd : (Message.decode Catalogue.languageServer {} (Message.notification method params).encode).1 =
        .ok (.notification method params)) : Message.IsEdit (Message.notification method params).encode :=
    ⟨method, hmethod, .inl ⟨params, hd⟩⟩
  simp only [editing, List.mem_cons, List.not_mem_nil, or_false] at hm
  rcases hm with rfl | rfl | rfl | rfl | rfl
  all_goals
    refine hread _ _ (by decide) ?_
    exact congrArg Prod.fst (Message.decode_notification (Message.parse_encode rfl) {})

/-- From the beginning of `clumsyServer` on, the history of `editing` is followed: the first document has the second of its new
texts, the second one is not open, and the failures of the handlers have been reported. -/
theorem documents_follow_editor_clumsyServer :
    let payloads := editing.map Message.encode
    ∃ s, clumsyServer.serve ⟨{}, ()⟩ clumsyServer.streamSource true = .ok s ∧ s.site.own.workspace.Keyed ∧
      Session.Delivered s payloads (s.behind payloads) ∧
      Edit.Recalls (payloads.filterMap Message.edit?) "file:///a" ⟨"file:///a", "rust", 2, "c"⟩ ∧
      (∀ d, ¬ Edit.Recalls (payloads.filterMap Message.edit?) "file:///b" d) ∧
      (s.behind payloads).site.connection.reports.map (·.message) =
        ["no", "no", "Handler panicked: no", "Handler panicked: no"] := by
  intro payloads
  obtain ⟨s, h, hempty, hactive, hopen, hclosed, hreports⟩ :
      ∃ s, clumsyServer.serve ⟨{}, ()⟩ clumsyServer.streamSource true = .ok s ∧ s.site.own.workspace = {} ∧
        (∀ n < 5, (s.behind (payloads.take n)).site.connection.lifecycle = .active) ∧
        (s.behind payloads).site.own.workspace.documents.find? "file:///a" = some ⟨"file:///a", "rust", 2, "c"⟩ ∧
        (s.behind payloads).site.own.workspace.documents.find? "file:///b" = none ∧
        (s.behind payloads).site.connection.reports.map (·.message) =
          ["no", "no", "Handler panicked: no", "Handler panicked: no"] :=
    ⟨_, rfl, rfl, by decide +kernel, by decide +kernel⟩
  have hkeyed : s.site.own.workspace.Keyed := by
    rw [hempty]
    constructor
    · intro uri d hd
      cases hd
    · intro uri f hf
      cases hf
  have hedits : ∀ p ∈ payloads, Message.IsEdit p := by
    intro p hp
    obtain ⟨m, hm, rfl⟩ := List.mem_map.mp hp
    exact isEdit_editing m hm
  have hd : Session.Delivered s payloads (s.behind payloads) := Session.delivered_behind hedits hactive
  obtain ⟨handlers, hr, hs⟩ := Server.exists_of_serve h
  have hreach : Session.Reachable handlers Catalogue.languageServer s := by
    rw [hs]
    exact ((Session.Reachable.make _ _).outfit true _).start _
  obtain ⟨hdocuments, -⟩ :=
    documents_follow_editor clumsyServer lawful_clumsyServer observes_clumsyServer hr hreach hkeyed hd
  have hopenings : s.site.own.workspace.openings = [] := by
    rw [hempty]
    rfl
  rw [hopenings, List.nil_append] at hdocuments
  refine ⟨s, h, hkeyed, hd, (hdocuments _ _).mp hopen, ?_, hreports⟩
  intro d hrecalls
  have hfound := (hdocuments _ _).mpr hrecalls
  rw [hclosed] at hfound
  cases hfound

end Parley
