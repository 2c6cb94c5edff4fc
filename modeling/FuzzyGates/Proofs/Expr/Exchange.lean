import FuzzyGates.Proofs.Expr.Equality
import FuzzyGates.Proofs.Expr.UnitInterval

/-!
# Operands may be exchanged

On the unit interval it does not matter to the degree of an expression in which order its
connectives have their operands.  Which of two tied operands a connective keeps, and so the sign of
a zero, does depend on the order, and of several unbound variables another one may be met first.
Neither shows in numbers, at whatever depth and in however many places operands are exchanged.

* `Exchanged` — operands are exchanged at some of the connectives.
* `EndsAlike.exchange` — one connective with its operands in either order.
* `endsAlike_of_exchanged` — all of them, by induction.
* **`exchanged_evaluates_equal`** — an expression and one with operands exchanged have the same
  degree as a number, or neither has one.
-/

namespace FuzzyGates

open Degree (Alike)

/-- **One connective with its operands in either order**, which are numbers if they have degrees.
An operand that fails makes both sides fail, with one error or the other. -/
theorem EndsAlike.exchange (c : Connective) {r r' q q' : Except EvalError Degree}
    (hr : EndsAlike (fun _ _ => True) r r') (hq : EndsAlike (fun _ _ => True) q q')
    (hnumber : ∀ x, r = .ok x → x.IsNumber) (hnumber' : ∀ x, q = .ok x → x.IsNumber) :
    EndsAlike (fun _ _ => True) (do return c.apply (← r) (← q))
      (do return c.apply (← q') (← r')) := by
  cases hr with
  | failure =>
      cases hq with
      | failure | degree => exact .failure trivial
  | @degree x x' hx =>
      cases hq with
      | failure => exact .failure trivial
      | @degree y y' hy =>
          have hcomm : (c.apply x y).Alike (c.apply y x) :=
            c.apply_comm (hnumber x rfl) (hnumber' y rfl)
          exact .degree (hcomm.trans (c.alike_apply hy hx))

namespace Expr

/-- The second expression is the first with the operands of some of its connectives exchanged, at
any depth.  Neither holds a bare node. -/
inductive Exchanged : Expr → Expr → Prop
  | value (x : Degree) : Exchanged (value x) (value x)
  | var (n : Name) : Exchanged (var n) (var n)
  | kept (c : Connective) {l l' r r' : Expr} (hl : Exchanged l l') (hr : Exchanged r r') :
      Exchanged (join c l r) (join c l' r')
  | exchanged (c : Connective) {l l' r r' : Expr} (hl : Exchanged l l') (hr : Exchanged r r') :
      Exchanged (join c l r) (join c r' l')
  | complement {e e' : Expr} (h : Exchanged e e') : Exchanged (complement e) (complement e')
  | alphaCut {e e' : Expr} (h : Exchanged e e') (t : Degree) :
      Exchanged (alphaCut e t) (alphaCut e' t)

/-- Every node of an expression without bare nodes can be left as it is. -/
theorem exchanged_refl {e : Expr} (h : e.Concrete) : Exchanged e e := by
  induction e with
  | value x => exact .value x
  | var n => exact .var n
  | join c l r ihl ihr =>
      obtain ⟨hl, hr⟩ := concrete_join.mp h
      exact .kept c (ihl hl) (ihr hr)
  | complement e ih => exact .complement (ih (concrete_complement.mp h))
  | alphaCut e t ih => exact .alphaCut (ih (concrete_alphaCut.mp h)) t
  | bareUnary e => exact absurd h not_concrete_bareUnary
  | bareBinary l r => exact absurd h not_concrete_bareBinary

theorem endsAlike_of_exchanged {e f : Expr} (h : Exchanged e f) {env : Environment}
    (henv : env.ResolvesInUnit) (hunit : e.InUnit) :
    EndsAlike (fun _ _ => True) (e.eval env) (f.eval env) := by
  induction h with
  | value x => exact .degree (.refl x)
  | var n =>
      unfold eval
      cases env.resolve? n.text with
      | some x => exact .degree (.refl x)
      | none => exact .failure trivial
  | kept c _ _ ihl ihr =>
      obtain ⟨hl, hr⟩ := inUnit_join.mp hunit
      exact (ihl hl).join c (ihr hr)
  | exchanged c _ _ ihl ihr =>
      obtain ⟨hl, hr⟩ := inUnit_join.mp hunit
      exact (ihl hl).exchange c (ihr hr) (fun x hx => (hl.eval henv hx).isNumber)
        fun x hx => (hr.eval henv hx).isNumber
  | complement _ ih => exact (ih hunit).map fun _ _ hxy => hxy.complement
  | alphaCut _ t ih => exact (ih hunit).map fun _ _ hxy => hxy.cut (.refl t)

/-- **Operands may be exchanged.**  Let the literals of an expression, and whatever an environment
resolves names to, lie between zero and one; the thresholds of its cuts are free.  Then the
expression has a degree exactly if it has one with operands exchanged, and the two are numerically
equal. -/
theorem exchanged_evaluates_equal (e f : Expr) (h : Exchanged e f) (hunit : e.InUnit)
    (env : Environment) (henv : env.ResolvesInUnit) :
    ((∃ x, e.eval env = .ok x) ↔ ∃ y, f.eval env = .ok y) ∧
      ∀ x y, e.eval env = .ok x → f.eval env = .ok y → (x == y) = true := by
  have hends := endsAlike_of_exchanged h henv hunit
  have hdefined : ∀ x, e.eval env = .ok x → x.Defined := fun x hx => (hunit.eval henv hx).defined
  generalize e.eval env = r, f.eval env = r' at hends hdefined ⊢
  cases hends with
  | failure => exact ⟨⟨nofun, nofun⟩, nofun⟩
  | @degree x y hxy =>
      refine ⟨⟨fun _ => ⟨y, rfl⟩, fun _ => ⟨x, rfl⟩⟩, fun x' y' hx' hy' => ?_⟩
      cases hx'
      cases hy'
      exact hxy.beq (hdefined x rfl)

/-- Operands exchanged at three depths, where the conjunction of the two zeros is tied, and a cut at
an undefined threshold. -/
theorem exchanged_evaluates_equal_tied :
    let x : Expr := var ⟨"x", by decide⟩
    let tied := join .and (value 0.0) (value (-0.0))
    let e := join .xor (join .add x tied) (join .mult (alphaCut x (0.0 / 0.0)) (complement x))
    let f := join .xor (join .mult (complement x) (alphaCut x (0.0 / 0.0)))
      (join .add (join .and (value (-0.0)) (value 0.0)) x)
    let env := (∅ : Environment).assign "x" 0.1 "g"
    Exchanged e f ∧ e.InUnit ∧ env.ResolvesInUnit ∧
      ∃ a b, e.eval env = .ok a ∧ f.eval env = .ok b ∧ (a == b) = true := by
  intro x tied e f env
  have hx : Exchanged x x := exchanged_refl (by decide)
  have htied : Exchanged tied (join .and (value (-0.0)) (value 0.0)) :=
    .exchanged .and (.value 0.0) (.value (-0.0))
  have hexchanged : Exchanged e f :=
    .exchanged .xor (.exchanged .add hx htied) (.exchanged .mult (.alphaCut hx _) (.complement hx))
  have hunit : e.InUnit := by decide +kernel
  have henv : env.ResolvesInUnit :=
    (Environment.inUnit_empty.assign (by decide +kernel) "x" "g").resolvesInUnit
  obtain ⟨hiff, hequal⟩ := exchanged_evaluates_equal e f hexchanged hunit env henv
  obtain ⟨a, ha⟩ : ∃ a, e.eval env = .ok a := ⟨_, rfl⟩
  obtain ⟨b, hb⟩ := hiff.mp ⟨a, ha⟩
  exact ⟨hexchanged, hunit, henv, a, b, ha, hb, hequal a b ha hb⟩

end Expr

end FuzzyGates
