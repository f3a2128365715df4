import Parley.Json.Basic
import Parley.Number.Numeral

/-!
# Command line of the demo

The command line is read from the left. An option that takes a value takes it from behind an equals sign or from the next word,
unless that word is an option itself; its value is looked at when the next option comes, or at the end. What cannot go together is
found at the end.
-/

namespace Parley.Demo

/-- The options, as far as they are given. -/
structure Arguments where
  /-- Serve over TCP. -/
  tcp : Bool := false
  /-- Serve over a WebSocket. -/
  ws : Bool := false
  host : String := "127.0.0.1"
  port : Nat := 2087
  workers : Option Nat := none
  logLevel : Option String := none
  logFile : Option String := none
  deriving DecidableEq, Repr

/-- The record of the options. -/
def Arguments.toJson (a : Arguments) : Json :=
  Json.object
    [("tcp", .bool a.tcp), ("ws", .bool a.ws), ("host", .str a.host), ("port", .nat a.port),
     ("max_workers", Json.ofOption (a.workers.map .nat)), ("log_level", Json.ofOption (a.logLevel.map .str)),
     ("log_file", Json.ofOption (a.logFile.map .str))]

/-- Why a command line does not give options. -/
inductive ArgumentFault where
  | unknownArgument
  /-- An option is given twice, or two exclude one another. -/
  | conflict
  /-- A value is missing where there has to be one. -/
  | missingValue
  /-- A value is not one of the option. -/
  | badValue
  /-- An option that takes no value has one. -/
  | unexpectedValue
  | help
  | version
  deriving DecidableEq, Repr

/-- The name of a kind of fault. -/
def ArgumentFault.kind : ArgumentFault → String
  | .unknownArgument => "UnknownArgument"
  | .conflict => "ArgumentConflict"
  | .missingValue => "InvalidValue"
  | .badValue => "ValueValidation"
  | .unexpectedValue => "TooManyValues"
  | .help => "DisplayHelp"
  | .version => "DisplayVersion"

/-- The exit code of a command line that does not give options. -/
def ArgumentFault.exitCode : ArgumentFault → Nat
  | .help | .version => 0
  | _ => 2

/-- The options by name. -/
inductive Name where
  | tcp
  | ws
  | host
  | port
  | workers
  | logLevel
  | logFile
  | help
  | version
  deriving DecidableEq, Repr

/-- The name of an option, written out. -/
def Name.ofText : String → Option Name
  | "tcp" => some .tcp
  | "ws" => some .ws
  | "host" => some .host
  | "port" => some .port
  | "max-workers" => some .workers
  | "log-level" => some .logLevel
  | "log-file" => some .logFile
  | "help" => some .help
  | "version" => some .version
  | _ => none

/-- The option takes a value. -/
def Name.takesValue : Name → Bool
  | .tcp | .ws | .help | .version => false
  | _ => true

/-- What has been read of a command line. -/
structure Reading where
  arguments : Arguments := {}
  /-- The options seen. -/
  seen : List Name := []
  /-- The option that is not finished, with its value if it has one. -/
  pending : Option (Name × Option String) := none

namespace Reading

/-- Gives an option a value. -/
def assign (a : Arguments) : Name → String → Except ArgumentFault Arguments
  | .host, v => .ok { a with host := v }
  | .port, v =>
    match Numeral.signed (Nat.pow 2 63 - 1) v with
    | .ok n => if 0 ≤ n ∧ n ≤ 65535 then .ok { a with port := n.toNat } else .error .badValue
    | .error _ => .error .badValue
  | .workers, v =>
    match Numeral.unsigned (Nat.pow 2 64 - 1) v with
    | .ok n => .ok { a with workers := some n }
    | .error _ => .error .badValue
  | .logLevel, v => .ok { a with logLevel := some v }
  | .logFile, v => if v.isEmpty then .error .missingValue else .ok { a with logFile := some v }
  | _, _ => .ok a

/-- Takes an option with its value. -/
def take (r : Reading) (name : Name) (value : Option String) : Except ArgumentFault Reading := do
  match name, value with
  | .help, _ => .error .help
  | .version, _ => .error .version
  | name, none =>
    if name.takesValue then .error .missingValue
    else if r.seen.contains name then .error .conflict
    else
      let arguments := if name = .tcp then { r.arguments with tcp := true } else { r.arguments with ws := true }
      .ok { r with arguments, seen := name :: r.seen }
  | name, some v =>
    if r.seen.contains name then .error .conflict
    else
      let arguments ← assign r.arguments name v
      .ok { r with arguments, seen := name :: r.seen }

/-- Finishes the option that is not finished. -/
def finish (r : Reading) : Except ArgumentFault Reading :=
  match r.pending with
  | some (name, value) => { r with pending := none }.take name value
  | none => .ok r

/-- The name of a long option and what stands behind its equals sign. -/
def splitLong (word : List Char) : String × Option String :=
  let name := String.ofList (word.takeWhile (· ≠ '='))
  match word.dropWhile (· ≠ '=') with
  | [] => (name, none)
  | _ :: value => (name, some (String.ofList value))

/-- Reads a long option. -/
def readLong (r : Reading) (word : List Char) : Except ArgumentFault Reading := do
  match splitLong word with
  | (name, value) =>
    match Name.ofText name, value with
    | none, _ => .error .unknownArgument
    | some name, none =>
      let r ← r.finish
      if name.takesValue then .ok { r with pending := some (name, none) } else r.take name none
    | some name, some v =>
      if name.takesValue then (← r.finish).take name (some v) else .error .unexpectedValue

/-- Reads a short option, of which the first letter decides. -/
def readShort (r : Reading) (letter : Char) : Except ArgumentFault Reading := do
  if letter = 'h' then (← r.finish).take .help none
  else if letter = 'V' then (← r.finish).take .version none
  else .error .unknownArgument

/-- Reads the words of a command line. Behind two dashes nothing may stand. -/
def read (r : Reading) : List String → Except ArgumentFault Reading
  | [] => r.finish
  | word :: rest => do
    match word.toList with
    | ['-', '-'] => if rest.isEmpty then r.finish else .error .unknownArgument
    | '-' :: '-' :: long => (← r.readLong long).read rest
    | '-' :: letter :: _ => (← r.readShort letter).read rest
    | _ =>
      match r.pending with
      | some (name, none) => Reading.read { r with pending := some (name, some word) } rest
      | _ => .error .unknownArgument

end Reading

/-- Reads a command line. -/
def Arguments.parse (words : List String) : Except ArgumentFault Arguments := do
  let r ← ({} : Reading).read words
  if r.arguments.tcp && r.arguments.ws then .error .conflict else .ok r.arguments

end Parley.Demo
