import FuzzyGates.Config.Schema
import FuzzyGates.Yaml.Read

/-!
# Configurations as YAML

A configuration text holds a mapping or nothing at all.
-/

namespace FuzzyGates.Config

/-- The configuration that a text holds. -/
def ofYaml (s : String) : Except Failure Config :=
  match Yaml.read s with
  | .error fault => .error (.ofYaml fault)
  | .ok (.mapping entries) => ofDocument (.mapping entries)
  | .ok (.atom .null) => ofDocument (.atom .null)
  | .ok _ => .error (.config .notMapping)

/-- The configuration in a file with the given content, if there is such a file. -/
def ofFile : Option String → Except Failure Config
  | some content => ofYaml content
  | none => .error (.config .unreadable)

end FuzzyGates.Config
