import Parley.Client.Basic
import Parley.Server.Basic
import Parley.Proofs.Session.Reachable

/-!
# Lawful servers and clients

The builtin features of a server are lawful, so a connection that a server serves has lawful handlers if the user's are. What a
client does of its own is lawful too.
-/

namespace Parley

/-- Of two steps in a row that succeed, the first does, and the second does behind it. -/
theorem exists_of_bind_eq_ok {ε β γ : Type} {x : Except ε β} {f : β → Except ε γ} {c : γ} (h : x >>= f = .ok c) :
    ∃ b, x = .ok b ∧ f b = .ok c := by
  cases x with
  | error e => cases h
  | ok b => exact ⟨b, rfl, h⟩

namespace Registry

variable {α : Type} {r r' : Registry (Handler α)} {name : String} {h : Handler α}

/-- What a table holds with another entry is the entry, or what it held before. -/
theorem find?_insert_cases {t : Table String (Handler α)} {k l : String} {v w : Handler α} (h : (t.insert k v).find? l = some w) :
    w = v ∨ t.find? l = some w := by
  rw [Table.find?_insert] at h
  split at h
  · exact .inl (Option.some.inj h).symm
  · exact .inr h

/-- What is found with another builtin feature is that one, or was found before. -/
theorem find?_of_addBuiltin (ha : r.addBuiltin name h = .ok r') {origin : Origin} {l : String} {h' : Handler α}
    (hf : r'.find? origin l = some h') : (l, h') = (name, h) ∨ r.find? origin l = some h' := by
  unfold addBuiltin at ha
  split at ha
  · cases ha
  · obtain rfl := Except.ok.inj ha
    cases origin with
    | builtin =>
      simp only [find?, Table.find?_insert] at hf
      split at hf
      · rename_i hl
        obtain rfl := Option.some.inj hf
        exact .inl (by rw [hl])
      · exact .inr hf
    | user | command => exact .inr hf

end Registry

namespace Server

variable {β : Type}

/-- The builtin features keep to the workspace, and leave the connection as it is. -/
theorem builtins_lawful (config : Config) {method : String} {h : Handler (Served β)} (hm : (method, h) ∈ builtins config) :
    h.Lawful := by
  have handshake : (initializeHandler config : Handler (Served β)).Lawful := by
    refine Handler.lawful_typedBody fun c params => ⟨fun _ => .refl _, fun _ o => ?_⟩
    rcases o with - | - | -
    · exact ⟨fun _ => .refl _, fun _ => trivial⟩
    · trivial
    · exact ⟨fun _ => .refl _, fun _ => trivial⟩
  have workspace (method : String) (change : Json → Workspace → Workspace) :
      (workspaceHandler method change : Handler (Served β)).Lawful := Handler.lawful_directOf fun _ _ _ => .refl _
  simp only [builtins, List.mem_cons, Prod.mk.injEq, List.not_mem_nil, or_false] at hm
  rcases hm with ⟨-, rfl⟩ | ⟨-, rfl⟩ | ⟨-, rfl⟩ | ⟨-, rfl⟩ | ⟨-, rfl⟩ | ⟨-, rfl⟩ | ⟨-, rfl⟩
  · exact handshake
  · exact fun _ _ => .refl _
  all_goals exact workspace _ _

/-- The handlers of a connection are the builtin features of every server, and the user's. -/
theorem find?_connectionRegistry {s : Server β} {handlers : Registry (Handler (Served β))} (h : s.connectionRegistry = .ok handlers)
    {origin : Origin} {name : String} {b : Handler (Served β)} (hf : handlers.find? origin name = some b) :
    (name, b) ∈ builtins s.config ∨ s.userRegistry.find? origin name = some b := by
  have hall (bs : List (String × Handler (Served β))) (r : Registry (Handler (Served β)))
      (hfold : bs.foldlM (fun r b => r.addBuiltin b.1 b.2) r = .ok handlers) :
      (name, b) ∈ bs ∨ r.find? origin name = some b := by
    induction bs generalizing r with
    | nil =>
      obtain rfl := Except.ok.inj hfold
      exact .inr hf
    | cons first bs ih =>
      rw [List.foldlM_cons] at hfold
      obtain ⟨r', ha, hfold⟩ := exists_of_bind_eq_ok hfold
      rcases ih r' hfold with hm | hm
      · exact .inl (List.mem_cons_of_mem _ hm)
      · rcases Registry.find?_of_addBuiltin ha hm with he | hm
        · exact .inl (he ▸ List.mem_cons_self)
        · exact .inr hm
  exact hall _ _ h

/-- The handlers of a connection are lawful if the user's are. -/
theorem connectionRegistry_lawful {s : Server β} (hs : s.registry.Lawful) {handlers : Registry (Handler (Served β))}
    (h : s.connectionRegistry = .ok handlers) : handlers.Lawful := by
  intro origin name b hf
  rcases find?_connectionRegistry h hf with hb | hu
  · exact builtins_lawful s.config hb
  · obtain ⟨-, origin', hu⟩ := Registry.exists_of_find?_asUsers hu
    exact hs origin' name b hu

/-- The session with which a server begins to serve. -/
theorem exists_of_serve {s : Server β} {own : Served β} {source : Source} {framed : Bool} {session : Session (Served β)}
    (h : s.serve own source framed = .ok session) :
    ∃ handlers, s.connectionRegistry = .ok handlers ∧
      session = Session.start
        { Session.make handlers Catalogue.languageServer s.config.workers own with framed, sink := some {} } source := by
  unfold serve at h
  split at h
  · cases h
  · split at h
    · cases h
    · rename_i handlers hr
      exact ⟨handlers, hr, (Except.ok.inj h).symm⟩

end Server

namespace Client

variable {β : Type}

/-- The handshake of a client is lawful, if what comes next is. -/
theorem lawful_handshake {params : Json} {next : ClientReply → Routine (Client β)} (hn : ∀ r, (next r).Lawful) :
    (handshake params next).Lawful := by
  refine ⟨fun _ => .refl _, fun s => ?_⟩
  simp only
  split
  · exact hn _
  · refine Routine.lawful_call fun r => ?_
    split
    · refine ⟨fun _ => .refl _, fun _ => ?_⟩
      exact Routine.lawful_acting (fun s => s.connection.actsTo_notify _ _) fun sent => hn _
    · exact hn _

end Client

end Parley
