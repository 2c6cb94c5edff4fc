/-!
# Positions in serialized logic

A position is the way to it from the root: the operator that was entered and
then the operand under it.  Messages write positions as `$.add[1].complement[0]`.
-/

namespace FuzzyGates.Logic

/-- One step from a position to one inside it. -/
inductive Segment
  | operator (tag : String)
  | operand (index : Nat)
  deriving DecidableEq, Repr

/-- The steps from the root to a position. -/
abbrev Path := List Segment

/-- The text of a step. -/
def Segment.text : Segment → String
  | operator tag => "." ++ tag
  | operand i => "[" ++ toString i ++ "]"

/-- The text of a position, the root being `$`. -/
def Path.text (p : Path) : String := "$" ++ String.join (p.map Segment.text)

end FuzzyGates.Logic
