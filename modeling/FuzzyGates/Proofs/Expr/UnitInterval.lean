import FuzzyGates.Expr.Build
import FuzzyGates.Expr.Eval
import FuzzyGates.Proofs.Degree.UnitInterval
import FuzzyGates.Proofs.Environment.Lookup
import FuzzyGates.Proofs.Failure

/-!
# Expressions over the unit interval

An expression over the unit interval has all its literals there; the thresholds of its cuts
are not asked for.  Where all degrees that an environment resolves names to lie in the interval
too, so does whatever the expression evaluates to.

* `Expr.literals`, `Expr.literalsOf` — the literals of an expression and of an argument.
* `Expr.InUnit` — every literal lies between zero and one.
* `Environment.InUnit` — every place holds a degree between zero and one, if any, with one
  lemma for each way of looking a name up; `Environment.ResolvesInUnit` — what evaluation sees.
* **`Expr.InUnit.eval`** — evaluation does not leave the unit interval.
-/

namespace FuzzyGates

namespace Expr

/-- The degree of a literal. -/
def literal? : Expr → Option Degree
  | value x => some x
  | _ => none

/-- The degrees of the literals of an expression, in the order of the walk. -/
def literals (e : Expr) : List Degree := e.walk.filterMap literal?

/-- Every literal of the expression lies between zero and one. -/
def InUnit (e : Expr) : Prop := ∀ x ∈ e.literals, x.InUnit

instance (e : Expr) : Decidable e.InUnit := inferInstanceAs (Decidable (∀ x ∈ e.literals, _))

@[simp] theorem literals_value (x : Degree) : (value x).literals = [x] := rfl

@[simp] theorem literals_join (c : Connective) (l r : Expr) :
    (join c l r).literals = l.literals ++ r.literals :=
  List.filterMap_append

/-- The literals of the expression that an argument stands for, if there is one. -/
def literalsOf (d : Document) : List Degree :=
  match ofDocument d with
  | .ok e => e.literals
  | .error _ => []

theorem literalsOf_of_ok {d : Document} {e : Expr} (h : ofDocument d = .ok e) :
    literalsOf d = e.literals := by
  unfold literalsOf
  rw [h]

theorem inUnit_value {x : Degree} : (value x).InUnit ↔ x.InUnit := by
  simp [InUnit]

theorem inUnit_join {c : Connective} {l r : Expr} :
    (join c l r).InUnit ↔ l.InUnit ∧ r.InUnit := by
  simp [InUnit, or_imp, forall_and]

end Expr

namespace Environment

variable {env : Environment}

/-- Every degree that is held anywhere lies between zero and one. -/
def InUnit (env : Environment) : Prop :=
  ∀ scope name x, env.held? scope name = some x → x.InUnit

theorem inUnit_empty : (∅ : Environment).InUnit := by
  intro scope name x hx
  rw [held?_empty] at hx
  cases hx

theorem InUnit.assign (h : env.InUnit) {x : Degree} (hx : x.InUnit) (name scope : String) :
    (env.assign name x scope).InUnit := by
  intro other key y hy
  rw [held?_assign] at hy
  split at hy
  · cases hy
    exact hx
  · exact h other key y hy

theorem InUnit.resolve? (h : env.InUnit) {name : String} {x : Degree}
    (hx : env.resolve? name = some x) : x.InUnit := by
  rw [resolve?_eq_bind_held?, Option.bind_eq_some_iff] at hx
  obtain ⟨scope, -, hheld⟩ := hx
  exact h scope name x hheld

/-- Every name that resolves does so to a degree between zero and one. -/
def ResolvesInUnit (env : Environment) : Prop :=
  ∀ name x, env.resolve? name = some x → x.InUnit

theorem InUnit.resolvesInUnit (h : env.InUnit) : env.ResolvesInUnit := fun _ _ => h.resolve?

theorem InUnit.testGate? (h : env.InUnit) {gate name : String} {x : Degree}
    (hx : env.testGate? gate name = some x) : x.InUnit := by
  rw [testGate?_eq_held?, Option.or_eq_some_iff] at hx
  rcases hx with hx | ⟨-, hx⟩
  · exact h gate name x hx
  · exact h globalScope name x hx

end Environment

/-- **Evaluation does not leave the unit interval**, at whatever thresholds the expression
cuts. -/
theorem Expr.InUnit.eval {env : Environment} (henv : env.ResolvesInUnit) {e : Expr}
    (h : e.InUnit) {x : Degree} (hx : e.eval env = .ok x) : x.InUnit := by
  induction e generalizing x with
  | value y =>
      cases hx
      exact inUnit_value.mp h
  | var n =>
      unfold Expr.eval at hx
      split at hx
      · next hfound =>
          cases hx
          exact henv _ _ hfound
      · cases hx
  | join c l r ihl ihr =>
      obtain ⟨hl, hr⟩ := inUnit_join.mp h
      obtain ⟨a, hleft, hrest⟩ := bind_eq_ok_iff.mp hx
      obtain ⟨b, hright, happly⟩ := bind_eq_ok_iff.mp hrest
      cases happly
      exact c.inUnit_apply (ihl hl hleft) (ihr hr hright)
  | complement e ih =>
      obtain ⟨a, hoperand, hcomplement⟩ := bind_eq_ok_iff.mp hx
      cases hcomplement
      exact Degree.inUnit_complement (ih h hoperand)
  | alphaCut e t ih =>
      obtain ⟨a, hoperand, hcut⟩ := bind_eq_ok_iff.mp hx
      cases hcut
      exact Degree.inUnit_cut (ih h hoperand) t
  | bareUnary e => cases hx
  | bareBinary l r => cases hx

end FuzzyGates
