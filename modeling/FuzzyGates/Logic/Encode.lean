import FuzzyGates.Logic.Error

/-!
# Writing serialized logic

A literal is written as its number, every other node as a mapping with one
entry.  A bare node with one operand has no serialized form.
-/

namespace FuzzyGates.Logic

/-- A mapping with one entry. -/
def entry (key : String) (value : Document) : Document := .mapping [(.text key, value)]

/-- The serialized form of an expression. -/
def encode : Expr → Except FormatError Document
  | .value x => .ok (.atom (.float x))
  | .var n => .ok (entry "var" (.ofText n.text))
  | .alphaCut e t => do return entry "alpha_cut" (.list [← encode e, .atom (.float t)])
  | .complement e => do return entry "complement" (← encode e)
  | .join c l r => do
      let a ← encode l
      let b ← encode r
      return entry c.tag (.list [a, b])
  | .bareBinary l r => do
      let a ← encode l
      let b ← encode r
      return entry "" (.list [a, b])
  | .bareUnary e => .error (.unwritable (.bareUnary e))

end FuzzyGates.Logic
