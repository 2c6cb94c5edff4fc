import FuzzyGates.Environment
import FuzzyGates.Text.Quoted

/-!
# The text of an environment

An environment is shown by the number of its global bindings and the names of
its gate scopes.
-/

namespace FuzzyGates.Environment

/-- A short description. -/
def text (env : Environment) : String :=
  "Environment(globals=" ++ toString env.globals.size ++ ", gates=["
    ++ ", ".intercalate (env.scopes.keys.map Text.quoted) ++ "])"

end FuzzyGates.Environment
