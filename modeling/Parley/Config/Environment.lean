/-!
# Environments

The variables of a process, as far as their values are texts.
-/

namespace Parley

/-- The variables that are set, by name. -/
abbrev Environment := List (String × String)

/-- A variable is set to the word `true`. -/
def Environment.isTrue (env : Environment) (name : String) : Bool := env.lookup name == some "true"

end Parley
