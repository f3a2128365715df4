import Parley.Ledger.Failure
import Parley.Table
import Parley.Text.Blank

/-!
# Registries

A registry says what serves a method or a command. Builtin features and the features of the user stand in tables of their own,
so that a user's feature never replaces a builtin one. Names are registered once: a registration that fails leaves the registry
as it was.
-/

namespace Parley

/-- How a handler is run. -/
inductive Mode where
  /-- At once, while the connection waits. -/
  | direct
  /-- In steps, while the connection goes on. -/
  | coroutine
  /-- On a worker. -/
  | threaded
  deriving DecidableEq, Repr

/-- The name of a mode. -/
def Mode.name : Mode → String
  | .direct => "Direct"
  | .coroutine => "Coroutine"
  | .threaded => "Threaded"

/-- How a handler of a mode is shown. -/
def Mode.describe (m : Mode) : String := "Handler(" ++ m.name ++ ")"

/-- Why something cannot be registered. -/
inductive RegistrationFault where
  | featureTaken (method : String)
  | commandTaken (name : String)
  /-- A coroutine cannot run on a worker. -/
  | coroutineOnWorker
  | blankFeature
  | blankCommand
  | badOptions (method : String) (f : PayloadFault)
  deriving Repr

/-- The name of a kind of fault. -/
def RegistrationFault.kind : RegistrationFault → String
  | .featureTaken _ => "FeatureAlreadyRegistered"
  | .commandTaken _ => "CommandAlreadyRegistered"
  | .coroutineOnWorker => "ThreadDecorator"
  | .blankFeature | .blankCommand | .badOptions .. => "Validation"

/-- The wording of a fault. -/
def RegistrationFault.message : RegistrationFault → String
  | .featureTaken method => "Feature \"" ++ method ++ "\" is already registered"
  | .commandTaken name => "Command \"" ++ name ++ "\" is already registered"
  | .coroutineOnWorker => "Coroutine handlers cannot be run on a worker thread"
  | .blankFeature => "Validation failed: Feature name must not be blank"
  | .blankCommand => "Validation failed: Command name must not be blank"
  | .badOptions method f => "Validation failed: options of \"" ++ method ++ "\" are not serializable: " ++ f.message

/-- Which table of a registry holds a handler. -/
inductive Origin where
  | builtin
  | user
  | command
  deriving DecidableEq, Repr

/-- The tables of methods and commands. -/
structure Registry (β : Type) where
  builtins : Table String β := {}
  features : Table String β := {}
  /-- The options with which features of the user were registered. -/
  options : Table String Json := {}
  commands : Table String β := {}
  deriving Repr

namespace Registry

variable {β γ : Type}

/-- Registers a builtin feature. -/
def addBuiltin (r : Registry β) (method : String) (h : β) : Except RegistrationFault (Registry β) :=
  if r.builtins.contains method then .error (.featureTaken method)
  else .ok { r with builtins := r.builtins.insert method h }

/-- Registers a feature of the user. -/
def addFeature (r : Registry β) (method : String) (h : β) : Except RegistrationFault (Registry β) :=
  if Text.isBlankText method then .error .blankFeature
  else if r.features.contains method then .error (.featureTaken method)
  else .ok { r with features := r.features.insert method h }

/-- Registers a feature of the user with options. -/
def addFeatureWith (r : Registry β) (method : String) (options : Except PayloadFault Json) (h : β) :
    Except RegistrationFault (Registry β) :=
  match options with
  | .error f => .error (.badOptions method f)
  | .ok v =>
    match r.addFeature method h with
    | .error f => .error f
    | .ok r => .ok { r with options := r.options.insert method v }

/-- Registers a command. -/
def addCommand (r : Registry β) (name : String) (h : β) : Except RegistrationFault (Registry β) :=
  if Text.isBlankText name then .error .blankCommand
  else if r.commands.contains name then .error (.commandTaken name)
  else .ok { r with commands := r.commands.insert name h }

/-- What a table holds under a name. -/
def find? (r : Registry β) : Origin → String → Option β
  | .builtin, method => r.builtins.find? method
  | .user, method => r.features.find? method
  | .command, name => r.commands.find? name

/-- What serves a method, and the table that holds it: the builtin features come first. -/
def serving? (r : Registry β) (method : String) : Option (Origin × β) :=
  match r.find? .builtin method with
  | some h => some (.builtin, h)
  | none => (r.find? .user method).map (Origin.user, ·)

/-- What serves a method stands in the table that is said to hold it. -/
theorem find?_of_serving? {r : Registry β} {method : String} {origin : Origin} {b : β}
    (h : r.serving? method = some (origin, b)) : r.find? origin method = some b := by
  unfold serving? at h
  split at h
  · rename_i hb
    obtain ⟨rfl, rfl⟩ := Prod.mk.inj (Option.some.inj h)
    exact hb
  · obtain ⟨b', hb, he⟩ := Option.map_eq_some_iff.mp h
    obtain ⟨rfl, rfl⟩ := Prod.mk.inj he
    exact hb

/-- The registry of one who may register features and commands only: what was registered as a builtin feature is a feature like the
others, unless its method is taken. -/
def asUsers (r : Registry β) : Registry β :=
  { r with builtins := {}, features := r.features.addMissing r.builtins.entries }

/-- It has no builtin features, and what it has was there before. -/
theorem exists_of_find?_asUsers {r : Registry β} {origin : Origin} {name : String} {b : β} (h : r.asUsers.find? origin name = some b) :
    origin ≠ .builtin ∧ ∃ origin', r.find? origin' name = some b := by
  cases origin with
  | builtin => cases h
  | command => exact ⟨by decide, .command, h⟩
  | user =>
    refine ⟨by decide, ?_⟩
    rcases Table.mem_or_of_find?_addMissing h with hm | hf
    · exact ⟨.builtin, Table.mem_entries_iff.mp hm⟩
    · exact ⟨.user, hf⟩

/-- What serves a method. -/
def lookup (r : Registry β) (method : String) : Option β := (r.serving? method).map (·.2)

/-- The registry with a function applied to everything in it. -/
def map (f : β → γ) (r : Registry β) : Registry γ :=
  { builtins := r.builtins.map f
    features := r.features.map f
    options := r.options
    commands := r.commands.map f }

/-- The handlers of a registry that was mapped are mapped. -/
theorem find?_map (f : β → γ) (r : Registry β) (origin : Origin) (name : String) :
    (r.map f).find? origin name = (r.find? origin name).map f := by
  cases origin <;> exact Table.find?_map _ _ _

/-- Names in order, each once. -/
def sortNames (names : List String) : List String :=
  (names.mergeSort (fun a b => decide (a ≤ b))).eraseDups

/-- The names of the commands, in order. -/
def commandNames (r : Registry β) : List String := sortNames r.commands.keys

/-- The methods that have a handler, in order. -/
def methods (r : Registry β) : List String := sortNames (r.builtins.keys ++ r.features.keys)

end Registry

end Parley
