import Parley.Config.Environment
import Parley.Frame.Framer
import Parley.Json.Basic
import Parley.Number.Numeral
import Parley.Text.Blank
import Parley.Text.Quoted

/-!
# Configuration of a server

What a server is called, how many workers it has, how long messages may be and how documents are synchronised. A configuration
can hold any values; `Config.validate` says which of them a server accepts, and names the first that it does not.
-/

namespace Parley

/-- The number of workers unless another is set. -/
def defaultWorkers : Nat := 2

/-- The largest number of workers. -/
def maxWorkers : Nat := 512

/-- The smallest limit on messages. -/
def minMessageSize : Nat := 1024

/-- The largest number that a setting can hold. -/
def maxSetting : Nat := Nat.pow 2 64 - 1

/-- How changes of documents are sent. -/
inductive SyncKind where
  | none
  | full
  | incremental
  deriving DecidableEq, Repr

/-- The number of a kind of synchronisation. -/
def SyncKind.number : SyncKind → Nat
  | .none => 0
  | .full => 1
  | .incremental => 2

/-- The name of a kind of synchronisation. -/
def SyncKind.name : SyncKind → String
  | .none => "None"
  | .full => "Full"
  | .incremental => "Incremental"

/-- Why a configuration is not accepted. -/
inductive ConfigFault where
  | missingName
  | invalidVariable (name value : String) (fault : Numeral.Fault)
  | invalidWorkers (count : Nat)
  | invalidMessageSize (size : Nat)
  deriving DecidableEq, Repr

/-- The name of a kind of fault. -/
def ConfigFault.kind : ConfigFault → String
  | .missingName => "MissingField"
  | .invalidVariable .. => "InvalidEnv"
  | .invalidWorkers _ => "InvalidWorkers"
  | .invalidMessageSize _ => "InvalidMessageSize"

/-- The wording of a fault. -/
def ConfigFault.message : ConfigFault → String
  | .missingName => "Missing required field: name"
  | .invalidVariable name value fault =>
    "Invalid value for " ++ name ++ ": " ++ Text.quoted value ++ " - " ++ fault.message
  | .invalidWorkers count =>
    "Invalid worker count: " ++ toString count ++ " - must be between 1 and " ++ toString maxWorkers
  | .invalidMessageSize size =>
    "Invalid message size limit: " ++ toString size ++ " - must be at least " ++ toString minMessageSize ++ " bytes"

/-- The configuration of a server. -/
structure Config where
  name : String := "lspkit"
  version : String := "0.1.0"
  workers : Nat := defaultWorkers
  messageSize : Nat := Frame.defaultLimit
  sync : SyncKind := .full
  deriving DecidableEq, Repr

namespace Config

/-- Accepts a configuration, or names the first value that is at fault. -/
def validate (c : Config) : Except ConfigFault Unit :=
  if Text.isBlankText c.name then .error .missingName
  else if c.workers = 0 ∨ maxWorkers < c.workers then .error (.invalidWorkers c.workers)
  else if c.messageSize < minMessageSize then .error (.invalidMessageSize c.messageSize)
  else .ok ()

/-- The number in a variable, if it is set. -/
def readVariable (env : Environment) (name : String) : Except ConfigFault (Option Nat) :=
  match env.lookup name with
  | none => .ok none
  | some value =>
    match Numeral.unsigned maxSetting (Text.trim value) with
    | .ok n => .ok (some n)
    | .error fault => .error (.invalidVariable name value fault)

/-- The variable that sets the number of workers. -/
def workersVariable : String := "LSPKIT_MAX_WORKERS"

/-- The variable that sets the limit on messages. -/
def messageSizeVariable : String := "LSPKIT_MAX_MESSAGE_SIZE"

/-- The configuration that an environment gives, if it is accepted. -/
def ofEnvironment (env : Environment) (name version : String) : Except ConfigFault Config := do
  let c : Config := { name, version }
  let workers ← readVariable env workersVariable
  let messageSize ← readVariable env messageSizeVariable
  let c := { c with workers := workers.getD c.workers, messageSize := messageSize.getD c.messageSize }
  c.validate
  return c

/-- The record of a configuration. -/
def toJson (c : Config) : Json :=
  Json.object [("name", .str c.name), ("version", .str c.version), ("max_workers", .nat c.workers),
    ("max_message_size", .nat c.messageSize), ("sync", .nat c.sync.number)]

/-- How a configuration is shown. -/
def describe (c : Config) : String :=
  "ServerConfig \x7b name: " ++ Text.quoted c.name ++ ", version: " ++ Text.quoted c.version ++ ", max_workers: " ++
    toString c.workers ++ ", max_message_size: " ++ toString c.messageSize ++ ", text_document_sync: " ++ c.sync.name ++ " \x7d"

end Config

end Parley
