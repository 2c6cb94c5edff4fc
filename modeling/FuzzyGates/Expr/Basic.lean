import FuzzyGates.Name
import FuzzyGates.Degree

/-!
# Expressions over degrees

An expression is a tree of nine kinds of nodes, five of which share the shape
of a connective with two operands.  Two further kinds, the bare nodes, have
operands but no operator; trees can be built from them, and nothing can be
computed.  A tree without bare nodes is `Concrete`.
-/

namespace FuzzyGates

/-- An expression tree. -/
inductive Expr
  | value (x : Degree)
  | var (name : Name)
  | join (c : Connective) (left right : Expr)
  | complement (operand : Expr)
  | alphaCut (operand : Expr) (threshold : Degree)
  | bareUnary (operand : Expr)
  | bareBinary (left right : Expr)
  deriving DecidableEq

namespace Expr

/-- The name of a node's operator; a bare node has none. -/
def tag : Expr → String
  | value _ => "value"
  | var _ => "var"
  | join c _ _ => c.tag
  | complement _ => "complement"
  | alphaCut _ _ => "alpha_cut"
  | bareUnary _ | bareBinary _ _ => ""

/-- The operands, left to right. -/
def children : Expr → List Expr
  | value _ | var _ => []
  | join _ l r | bareBinary l r => [l, r]
  | complement e | alphaCut e _ | bareUnary e => [e]

/-- A node followed by the walks of its operands: depth first, left to right. -/
def walk : Expr → List Expr
  | value x => [value x]
  | var n => [var n]
  | join c l r => join c l r :: (walk l ++ walk r)
  | complement e => complement e :: walk e
  | alphaCut e t => alphaCut e t :: walk e
  | bareUnary e => bareUnary e :: walk e
  | bareBinary l r => bareBinary l r :: (walk l ++ walk r)

/-- The nodes on the longest way down. -/
def depth : Expr → Nat
  | value _ | var _ => 1
  | join _ l r | bareBinary l r => 1 + max (depth l) (depth r)
  | complement e | alphaCut e _ | bareUnary e => 1 + depth e

/-- The name of a variable node. -/
def name? : Expr → Option Name
  | var n => some n
  | _ => none

/-- Whether a node has operands but no operator. -/
def isBare : Expr → Bool
  | bareUnary _ | bareBinary _ _ => true
  | _ => false

/-- The variables of an expression, each once, in the order of the walk. -/
def names (e : Expr) : List Name := (e.walk.filterMap name?).eraseDups

/-- The expression holds no bare node. -/
def Concrete (e : Expr) : Prop := ∀ n ∈ e.walk, n.isBare = false

instance (e : Expr) : Decidable e.Concrete := inferInstanceAs (Decidable (∀ n ∈ e.walk, _))

theorem concrete_join {c : Connective} {l r : Expr} :
    (join c l r).Concrete ↔ l.Concrete ∧ r.Concrete := by
  simp [Concrete, walk, isBare, or_imp, forall_and]

theorem concrete_complement {e : Expr} : (complement e).Concrete ↔ e.Concrete := by
  simp [Concrete, walk, isBare]

theorem concrete_alphaCut {e : Expr} {t : Degree} : (alphaCut e t).Concrete ↔ e.Concrete := by
  simp [Concrete, walk, isBare]

theorem not_concrete_bareUnary {e : Expr} : ¬ (bareUnary e).Concrete := by
  simp [Concrete, walk, isBare]

theorem not_concrete_bareBinary {l r : Expr} : ¬ (bareBinary l r).Concrete := by
  simp [Concrete, walk, isBare]

/-- The variables of an expression are those of its nodes. -/
theorem mem_names_iff {e : Expr} {n : Name} : n ∈ e.names ↔ var n ∈ e.walk := by
  rw [names, List.mem_eraseDups, List.mem_filterMap]
  constructor
  · rintro ⟨node, hnode, hname⟩
    cases node with
    | var m =>
        cases hname
        exact hnode
    | value | join | complement | alphaCut | bareUnary | bareBinary => cases hname
  · exact fun h => ⟨var n, h, rfl⟩

theorem names_subset {e f : Expr} (h : e.walk ⊆ f.walk) : e.names ⊆ f.names :=
  fun _ hn => mem_names_iff.mpr (h (mem_names_iff.mp hn))

/-- Equality up to the numeric equality of degrees: the two zeros are equal, and an
undefined degree equals nothing. -/
def same : Expr → Expr → Bool
  | value x, value y => x == y
  | var m, var n => m = n
  | join c l r, join d l' r' => c = d && same l l' && same r r'
  | complement e, complement f => same e f
  | alphaCut e t, alphaCut f u => same e f && t == u
  | bareUnary e, bareUnary f => same e f
  | bareBinary l r, bareBinary l' r' => same l l' && same r r'
  | _, _ => false

end Expr

end FuzzyGates
