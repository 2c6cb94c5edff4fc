import FuzzyGates.Expr.Eval

/-!
# Cuts over cuts

A cut gives zero where a degree does not reach its threshold.  A further cut may let that zero pass
or not, but gives zero in either case, so a degree that has once been cut off stays zero.  Cuts in a
row hence act as one test against all thresholds, in whatever order and however often these come,
and what is undefined passes no test.

* `cutAll`, `cutAll_eq` — cuts of a degree in a row.
* `Expr.cutAt`, `eval_cutAt` — cuts nested over an expression.
* **`nested_cuts_test_all_thresholds`** — the evaluation of nested cuts.
-/

namespace FuzzyGates

namespace Degree

/-- The cuts of a degree at the thresholds of a list, one after the other. -/
def cutAll (a : Degree) (thresholds : List Degree) : Degree := thresholds.foldl cut a

theorem cut_zero (t : Degree) : cut 0.0 t = 0.0 := ite_self 0.0

/-- What has been cut off stays zero. -/
theorem cutAll_zero (ts : List Degree) : cutAll 0.0 ts = 0.0 := by
  induction ts with
  | nil => rfl
  | cons t rest ih =>
      show cutAll (cut 0.0 t) rest = 0.0
      rw [cut_zero, ih]

/-- **Cuts in a row are one test against all thresholds.** -/
theorem cutAll_eq (a : Degree) (ts : List Degree) :
    cutAll a ts = if ∀ t ∈ ts, t ≤ a then a else 0.0 := by
  induction ts with
  | nil => simp [cutAll]
  | cons t rest ih =>
      show cutAll (cut a t) rest = _
      unfold cut
      by_cases ht : t ≤ a
      · rw [if_pos ht, ih]
        simp only [List.forall_mem_cons, ht, true_and]
      · rw [if_neg ht, cutAll_zero, if_neg fun hall => ht (hall t List.mem_cons_self)]

end Degree

namespace Expr

/-- Cuts nested over an expression, the first threshold innermost. -/
def cutAt (e : Expr) (thresholds : List Degree) : Expr := thresholds.foldl alphaCut e

theorem eval_alphaCut (env : Environment) (e : Expr) (t : Degree) :
    (alphaCut e t).eval env = (e.eval env).map (·.cut t) := by
  rw [eval]
  cases e.eval env <;> rfl

theorem eval_cutAt (env : Environment) (e : Expr) (ts : List Degree) :
    (e.cutAt ts).eval env = (e.eval env).map (·.cutAll ts) := by
  induction ts generalizing e with
  | nil =>
      show e.eval env = _
      cases e.eval env <;> rfl
  | cons t rest ih =>
      show ((alphaCut e t).cutAt rest).eval env = _
      rw [ih, eval_alphaCut]
      cases e.eval env <;> rfl

/-- **Nested cuts test all thresholds.**  Cuts over an expression fail as the expression does; its
degree stays as it is if it reaches every threshold, and becomes zero otherwise.  So only it matters
which thresholds there are, and one cut at a threshold is as good as two. -/
theorem nested_cuts_test_all_thresholds (e : Expr) (env : Environment) :
    (∀ err, e.eval env = .error err → ∀ ts, (e.cutAt ts).eval env = .error err) ∧
      (∀ v, e.eval env = .ok v → ∀ ts,
        (e.cutAt ts).eval env = .ok (if ∀ t ∈ ts, t ≤ v then v else 0.0)) ∧
      (∀ ts us : List Degree, (∀ t, t ∈ ts ↔ t ∈ us) →
        (e.cutAt ts).eval env = (e.cutAt us).eval env) ∧
      ∀ t, (alphaCut (alphaCut e t) t).eval env = (alphaCut e t).eval env := by
  have hmembers : ∀ ts us : List Degree, (∀ t, t ∈ ts ↔ t ∈ us) →
      (e.cutAt ts).eval env = (e.cutAt us).eval env := by
    intro ts us h
    simp only [eval_cutAt, Degree.cutAll_eq, h]
  refine ⟨fun err herr ts => ?_, fun v hv ts => ?_, hmembers, fun t => ?_⟩
  · rw [eval_cutAt, herr]
    rfl
  · rw [eval_cutAt, hv, ← Degree.cutAll_eq]
    rfl
  · exact hmembers [t, t] [t] (by simp)

end Expr

end FuzzyGates
