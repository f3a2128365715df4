import Parley.Config.Log
import Parley.Demo.Arguments
import Parley.Demo.Server

/-!
# The demo program

What the demo does with its command line and its environment before it serves, and with its input when it serves over a stream.
-/

namespace Parley.Demo

/-- Why the program does not serve. -/
inductive Refusal where
  | arguments (f : ArgumentFault)
  /-- The file of the log cannot be opened. -/
  | log (path : String)
  | config (f : ConfigFault)
  | server (f : ServerFault)
  deriving Repr

/-- The exit code of a program that does not serve. -/
def Refusal.exitCode : Refusal → Nat
  | .arguments f => f.exitCode
  | .log _ | .config _ | .server _ => 1

/-- The wording of a refusal. -/
def Refusal.message : Refusal → String
  | .arguments .help => "Options: --tcp, --ws, --host HOST, --port PORT, --max-workers N, --log-level LEVEL, --log-file FILE"
  | .arguments .version => serverName ++ " " ++ serverVersion
  | .arguments _ => "error: the command line was not understood; try --help"
  | .log path => "Failed to initialize logging: cannot open " ++ path
  | .config f => f.message
  | .server f => f.message

/-- The configuration of the log that the command line and the environment give to the process of an id. -/
def logOf (a : Arguments) (env : Environment) (process : String) : LogConfig :=
  (LogConfig.ofEnvironment env process).override a.logLevel a.logFile

/-- The configuration that the command line and the environment give. -/
def configOf (a : Arguments) (env : Environment) : Except ConfigFault Config := do
  let c ← Config.ofEnvironment env serverName serverVersion
  let c := { c with workers := a.workers.getD c.workers }
  c.validate
  return c

/-- The server that the command line and the environment give, where `opens` says which files can be opened. -/
def prepare (opens : String → Bool) (words : List String) (env : Environment) (process : String) :
    Except Refusal (Arguments × Server Unit) := do
  let a ← (Arguments.parse words).mapError .arguments
  match (logOf a env process).file with
  | some path => if opens path then pure () else .error (.log path)
  | none => pure ()
  let config ← (configOf a env).mapError .config
  let registry ← (register {}).mapError fun f => .server (.registration f)
  return (a, { config, registry })

/-- The session of a server over a stream, before anything has arrived. -/
def streamSession (s : Server Unit) : Except Refusal (Session (Served Unit)) :=
  (s.serve { own := () } s.streamSource true).mapError .server

/-- The session of the program over its standard streams. One that is to listen for a connection has none. -/
def programSession (opens : String → Bool) (words : List String) (env : Environment) (process : String) :
    Except Refusal (Option (Session (Served Unit))) := do
  let (a, server) ← prepare opens words env process
  if a.tcp || a.ws then return none
  some <$> streamSession server

/-- The exit code of a program whose serving broke off. -/
def brokenCode : Int := 101

/-- The exit code of the program, once the session is over. -/
def exitCode? (s : Session (Served Unit)) : Option Int :=
  if s.intake = .broken then some brokenCode else s.ended?.map Reason.exitCode

/-- What the program writes for an input that then ends, and its exit code. -/
def runStream (opens : String → Bool) (words : List String) (env : Environment) (input : Bytes) : Bytes × Int :=
  match programSession opens words env "0" with
  | .error r => ([], r.exitCode)
  | .ok none => ([], 1)
  | .ok (some s) =>
    let s := ((s.feed input).settleAll.close).settleAll
    (s.written.flatten, (exitCode? s).getD 1)

end Parley.Demo
