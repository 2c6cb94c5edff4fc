import FuzzyGates.Expr.Eval
import FuzzyGates.Proofs.Degree.Duality

/-!
# Negation is pushed inward

The complement of a conjunction evaluates as the disjunction of the complements does, and that of
a disjunction as their conjunction, in every environment and whatever the operands are.  Operands
are evaluated in the same order on both sides, so that a failure is the same failure.  From node
to node the complement is thus moved to the leaves of a combination of any shape.

* `eval_complement_and`, `eval_complement_or` — one node.
* `Combination`, `Combination.dual` — conjunctions and disjunctions over leaves, and the
  combination with both exchanged over the complements of the leaves.
* **`Combination.eval_complement_eq_eval_dual`** — the complement of a combination is its dual.
-/

namespace FuzzyGates

namespace Expr

/-! ### One node -/

section Nodes

variable (env : Environment) {l l' r r' : Expr}

/-- A connective sees of its operands what they evaluate to. -/
theorem eval_join_congr (c : Connective) (hl : l.eval env = l'.eval env)
    (hr : r.eval env = r'.eval env) : (join c l r).eval env = (join c l' r').eval env := by
  simp only [eval, hl, hr]

/-- The complement of a conjunction is the disjunction of the complements, and fails as it
does. -/
theorem eval_complement_and (l r : Expr) :
    (complement (join .and l r)).eval env =
      (join .or (complement l) (complement r)).eval env := by
  simp only [eval]
  cases l.eval env with
  | error err => rfl
  | ok a =>
      cases r.eval env with
      | error err => rfl
      | ok b => exact congrArg Except.ok (Degree.complement_meet a b)

/-- The complement of a disjunction is the conjunction of the complements, and fails as it
does. -/
theorem eval_complement_or (l r : Expr) :
    (complement (join .or l r)).eval env =
      (join .and (complement l) (complement r)).eval env := by
  simp only [eval]
  cases l.eval env with
  | error err => rfl
  | ok a =>
      cases r.eval env with
      | error err => rfl
      | ok b => exact congrArg Except.ok (Degree.complement_join a b)

end Nodes

end Expr

/-! ### Trees of any shape -/

/-- A tree of conjunctions and disjunctions, whose leaves are expressions of any kind. -/
inductive Combination
  | leaf (e : Expr)
  | and (left right : Combination)
  | or (left right : Combination)

namespace Combination

/-- The expression that a combination builds. -/
def expr : Combination → Expr
  | leaf e => e
  | and l r => .join .and l.expr r.expr
  | or l r => .join .or l.expr r.expr

/-- Conjunctions and disjunctions are exchanged in place, and leaves complemented. -/
def dual : Combination → Combination
  | leaf e => leaf (.complement e)
  | and l r => or l.dual r.dual
  | or l r => and l.dual r.dual

/-- **Negation is pushed inward.**  The complement of a combination and its dual have the same
degree, bit by bit and also if it is undefined or infinite, or fail at the same node. -/
theorem eval_complement_eq_eval_dual (t : Combination) (env : Environment) :
    (Expr.complement t.expr).eval env = t.dual.expr.eval env := by
  induction t with
  | leaf e => rfl
  | and l r ihl ihr =>
      calc (Expr.complement (.join .and l.expr r.expr)).eval env
          = (Expr.join .or (.complement l.expr) (.complement r.expr)).eval env :=
            Expr.eval_complement_and env l.expr r.expr
        _ = (Expr.join .or l.dual.expr r.dual.expr).eval env :=
            Expr.eval_join_congr env .or ihl ihr
  | or l r ihl ihr =>
      calc (Expr.complement (.join .or l.expr r.expr)).eval env
          = (Expr.join .and (.complement l.expr) (.complement r.expr)).eval env :=
            Expr.eval_complement_or env l.expr r.expr
        _ = (Expr.join .and l.dual.expr r.dual.expr).eval env :=
            Expr.eval_join_congr env .and ihl ihr

end Combination

end FuzzyGates
