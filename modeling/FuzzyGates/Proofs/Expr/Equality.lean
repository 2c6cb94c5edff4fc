import FuzzyGates.Expr.Eval
import FuzzyGates.Proofs.Degree.Equality

/-!
# Equal expressions evaluate alike

Two expressions are equal if they have the same shape and names and numerically equal literals and
thresholds, so they may differ in the signs of zeros at any depth.  In every environment they come
to degrees that are numerically equal or both undefined, or fail at the same variable.

* `EndsAlike` — what is said of two evaluations, given which errors correspond.
* `EndsAlike.map`, `EndsAlike.join` — operators on evaluations that end alike.
* **`same_evaluates_alike`** — equal expressions evaluate alike.
-/

namespace FuzzyGates

open Degree (Alike)

/-- Two evaluations come to degrees that are alike, or fail with errors that correspond. -/
inductive EndsAlike (Corresponds : EvalError → EvalError → Prop) :
    Except EvalError Degree → Except EvalError Degree → Prop
  | degree {x y : Degree} (h : x.Alike y) : EndsAlike Corresponds (.ok x) (.ok y)
  | failure {err err' : EvalError} (h : Corresponds err err') :
      EndsAlike Corresponds (.error err) (.error err')

namespace EndsAlike

variable {Corresponds : EvalError → EvalError → Prop}
variable {r r' q q' : Except EvalError Degree}

/-- An operator with one operand. -/
theorem map {f g : Degree → Degree} (h : EndsAlike Corresponds r r')
    (hfg : ∀ x y, x.Alike y → (f x).Alike (g y)) :
    EndsAlike Corresponds (do return f (← r)) (do return g (← r')) := by
  cases h with
  | degree hxy => exact .degree (hfg _ _ hxy)
  | failure herr => exact .failure herr

/-- A connective, whose operands are evaluated in the same order on both sides. -/
theorem join (c : Connective) (hr : EndsAlike Corresponds r r')
    (hq : EndsAlike Corresponds q q') :
    EndsAlike Corresponds (do return c.apply (← r) (← q)) (do return c.apply (← r') (← q')) := by
  cases hr with
  | failure herr => exact .failure herr
  | degree hxy =>
      cases hq with
      | failure herr => exact .failure herr
      | degree huv => exact .degree (c.alike_apply hxy huv)

end EndsAlike

namespace Expr

/-- Two errors name the same variable, which no scope binds. -/
def SameVariable (err err' : EvalError) : Prop := ∃ n, err = .unbound n ∧ err' = .unbound n

theorem endsAlike_of_same {a b : Expr} (h : a.same b = true) (hconcrete : a.Concrete)
    (env : Environment) : EndsAlike SameVariable (a.eval env) (b.eval env) := by
  fun_induction same a b with
  | case1 x y => exact .degree (Degree.alike_of_beq h)
  | case2 m n =>
      obtain rfl : m = n := of_decide_eq_true h
      unfold eval
      cases env.resolve? m.text with
      | some x => exact .degree (.refl x)
      | none => exact .failure ⟨m.text, rfl, rfl⟩
  | case3 c l r d l' r' ihl ihr =>
      obtain ⟨hconcretel, hconcreter⟩ := concrete_join.mp hconcrete
      rw [Bool.and_eq_true, Bool.and_eq_true, decide_eq_true_iff] at h
      obtain ⟨⟨rfl, hl⟩, hr⟩ := h
      exact (ihl hl hconcretel).join c (ihr hr hconcreter)
  | case4 e f ih =>
      exact (ih h (concrete_complement.mp hconcrete)).map fun _ _ hxy => hxy.complement
  | case5 e t f u ih =>
      rw [Bool.and_eq_true] at h
      exact (ih h.1 (concrete_alphaCut.mp hconcrete)).map
        fun _ _ hxy => hxy.cut (Degree.alike_of_beq h.2)
  | case6 e f => exact absurd hconcrete not_concrete_bareUnary
  | case7 l r l' r' => exact absurd hconcrete not_concrete_bareBinary
  | case8 => cases h

/-- **Equal expressions evaluate alike.**  Without bare nodes, and in whatever environment, both
fail at the same unbound variable, or both have a degree; then the two are numerically equal, or
both undefined. -/
theorem same_evaluates_alike (a b : Expr) (h : a.same b = true) (hconcrete : a.Concrete)
    (env : Environment) :
    (∃ n, a.eval env = .error (.unbound n) ∧ b.eval env = .error (.unbound n)) ∨
      ∃ x y, a.eval env = .ok x ∧ b.eval env = .ok y ∧
        ((x == y) = true ∨ ¬ x.Defined ∧ ¬ y.Defined) := by
  have hends := endsAlike_of_same h hconcrete env
  generalize a.eval env = r, b.eval env = r' at hends ⊢
  cases hends with
  | degree hxy => exact .inr ⟨_, _, rfl, rfl, hxy⟩
  | failure herr =>
      obtain ⟨n, rfl, rfl⟩ := herr
      exact .inl ⟨n, rfl, rfl⟩

/-- The signs of zeros in literals and in a threshold do not show where a zero is multiplied by an
infinite degree, nor where a cut at zero lets a zero pass. -/
theorem same_evaluates_alike_signed_zeros :
    let x : Expr := var ⟨"x", by decide⟩
    let a := join .xor (join .mult (join .or (value 0.0) (value (-0.0))) x)
      (alphaCut (value (-0.0)) 0.0)
    let b := join .xor (join .mult (join .or (value (-0.0)) (value 0.0)) x)
      (alphaCut (value 0.0) (-0.0))
    let env := (∅ : Environment).assign "x" (1.0 / 0.0) "g"
    a.same b = true ∧ a.Concrete ∧ ∃ y z, a.eval env = .ok y ∧ b.eval env = .ok z ∧
      ((y == z) = true ∨ ¬ y.Defined ∧ ¬ z.Defined) := by
  intro x a b env
  have hsame : a.same b = true := by decide +kernel
  have hconcrete : a.Concrete := by decide
  refine ⟨hsame, hconcrete, ?_⟩
  rcases same_evaluates_alike a b hsame hconcrete env with ⟨n, hfails, -⟩ | hends
  · cases hfails
  · exact hends

end Expr

end FuzzyGates
