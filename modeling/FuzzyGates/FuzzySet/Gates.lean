import FuzzyGates.FuzzySet.Basic

/-!
# Gates that hold fuzzy sets

A collection of gates is a value: assigning a set gives another collection and
leaves the first as it was.  Gate names are not restricted here.
-/

namespace FuzzyGates

/-- The fuzzy set that each gate holds. -/
abbrev GateSets := OrderedMap String FuzzySet

namespace GateSets

/-- The collection in which a gate holds a set. -/
def assign (gates : GateSets) (name : String) (set : FuzzySet) : GateSets :=
  OrderedMap.insert gates name set

/-- The degree of an element in the set of a gate, if the gate holds one that lists it. -/
def testGate? (gates : GateSets) (gate element : String) : Option Degree :=
  (OrderedMap.get? gates gate).bind fun s => s.degrees.get? element

end GateSets

end FuzzyGates
