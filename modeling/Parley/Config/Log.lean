import Parley.Config.Environment
import Parley.Config.Path

/-!
# Configuration of the log

Which entries are logged, where, and in which form. What the command line says goes before what the environment says.
-/

namespace Parley

/-- The configuration of the log. -/
structure LogConfig where
  /-- Which entries are logged. -/
  level : String := "info"
  /-- The file that is written; without one, the log goes to the error output. -/
  file : Option String := none
  /-- Entries are written as JSON. -/
  asJson : Bool := false
  deriving DecidableEq, Repr

namespace LogConfig

/-- The variable that says which entries are logged. -/
def levelVariable : String := "RUST_LOG"

/-- The variable that names the file. -/
def fileVariable : String := "LSPKIT_LOG_FILE"

/-- The variable that asks for the process in the name of the file. -/
def uniqueVariable : String := "LSPKIT_LOG_UNIQUE"

/-- The variable that asks for JSON. -/
def jsonVariable : String := "LSPKIT_LOG_JSON"

/-- The configuration that an environment gives to the process of an id. -/
def ofEnvironment (env : Environment) (process : String) : LogConfig :=
  { level := (env.lookup levelVariable).getD "info"
    file := (env.lookup fileVariable).map fun path =>
      if env.isTrue uniqueVariable then Path.withMark path process else path
    asJson := env.isTrue jsonVariable }

/-- The configuration with what the command line says. -/
def override (c : LogConfig) (level file : Option String) : LogConfig :=
  { c with level := level.getD c.level, file := file.or c.file }

end LogConfig

end Parley
