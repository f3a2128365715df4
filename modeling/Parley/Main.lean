import Parley.Demo.Program
import Parley.Server.Address

/-!
# The demo as a program

Reads the standard input and writes the standard output, as the session says. The input is read beside the session, so that time
passes for its handlers while nothing arrives.
-/

namespace Parley.Demo

/-- The variables that the program looks at. -/
def readEnvironment : IO Environment := do
  let names := [Config.workersVariable, Config.messageSizeVariable, LogConfig.levelVariable, LogConfig.fileVariable,
    LogConfig.uniqueVariable, LogConfig.jsonVariable]
  names.filterMapM fun name => return (← IO.getEnv name).map (name, ·)

/-- Writes what the session has written since. -/
def flushOutput (s : Session (Served Unit)) : IO (Session (Served Unit)) := do
  let out ← IO.getStdout
  out.write ⟨s.written.flatten.toArray⟩
  out.flush
  return { s with sink := s.sink.map fun k => { k with written := [] } }

/-- Serves until the session ends, and gives the exit code. -/
partial def serveInput (s : Session (Served Unit)) (reading : Option (Task (Except IO.Error ByteArray))) (now : Nat) :
    IO Int := do
  let s ← flushOutput s.settleAll
  if let some code := exitCode? s then return code
  let reading ←
    match reading with
    | some task => pure task
    | none => IO.asTask ((← IO.getStdin).read 8192)
  if (← IO.hasFinished reading) || s.deadlines.isEmpty then
    match reading.get with
    | .ok bytes => serveInput (if bytes.isEmpty then s.close else s.feed bytes.data.toList) none (← IO.monoMsNow)
    | .error _ => serveInput s.close none (← IO.monoMsNow)
  else
    IO.sleep 1
    let later ← IO.monoMsNow
    serveInput (s.advance (later - now)) (some reading) later

/-- A file can be opened to be written at its end. -/
def canOpen (path : String) : IO Bool := do
  try
    discard <| IO.FS.Handle.mk path .append
    return true
  catch _ => return false

/-- Runs the demo. -/
def run (words : List String) : IO Int := do
  let env ← readEnvironment
  let process := toString (← IO.monoNanosNow)
  let file := (Arguments.parse words).toOption.bind fun a => (logOf a env process).file
  let opened ← (file.map canOpen).getD (pure true)
  match programSession (fun _ => opened) words env process with
  | .error r =>
    (if r.exitCode = 0 then IO.println else IO.eprintln) r.message
    return r.exitCode
  | .ok none =>
    IO.eprintln "only the standard streams are served"
    return 1
  | .ok (some s) => serveInput s none (← IO.monoMsNow)

end Parley.Demo

/-- Runs the demo and exits with its code. -/
def main (words : List String) : IO UInt32 := do
  let code ← Parley.Demo.run words
  return UInt32.ofNat (code % 256).toNat
