import FuzzyGates.Proofs.Session.Changes

/-!
# What evaluations answer

An evaluation in a session records what it reads and leaves the session as it is.  Its
answer is that of the expression in the environment of the session.

* `run_evaluateExpr` — evaluating an expression, up to records.
* **`fst_run_evaluate`**, **`fst_run_evaluateGate`** — the answers of the operations.
-/

namespace FuzzyGates.Session

open SessionM

/-- The degree of an expression, or the failure that a session reports instead. -/
def answer (env : Environment) (e : Expr) : Except Failure Degree :=
  (e.eval env).mapError Failure.ofEval

theorem run_forM_note {α : Type} (l : List α) (event : α → Log.Event) (ctx : Context) :
    ∃ journal, (l.forM fun a => note (event a)).run ctx = (.ok (), ⟨ctx.session, journal⟩) := by
  induction l generalizing ctx with
  | nil => exact ⟨ctx.journal, rfl⟩
  | cons a rest ih =>
      obtain ⟨journal, hrest⟩ := ih (ctx.note (event a))
      refine ⟨journal, ?_⟩
      show (note (event a) >>= fun _ => rest.forM fun a => note (event a)).run ctx = _
      rw [run_bind, run_note]
      exact hrest

/-- Evaluating an expression leaves the session as it is. -/
theorem run_evaluateExpr (e : Expr) (ctx : Context) :
    ∃ journal, (evaluateExpr e).run ctx = (answer ctx.session.env e, ⟨ctx.session, journal⟩) := by
  obtain ⟨journal, hnotes⟩ := run_forM_note (e.reads ctx.session.env)
    (fun p => Log.Event.resolved p.1.text p.2) ctx
  refine ⟨journal, ?_⟩
  unfold evaluateExpr answer
  rw [run_bind, run_reading]
  dsimp only
  rw [run_bind, hnotes]
  cases e.eval ctx.session.env <;> rfl

theorem fst_run_evaluate (d : Document) (ctx : Context) :
    ((evaluate d).run ctx).1 = (Expr.ofDocument d).bind (answer ctx.session.env) := by
  unfold evaluate
  rw [run_bind, run_lift]
  cases Expr.ofDocument d with
  | error e => rfl
  | ok e =>
      obtain ⟨journal, hrun⟩ := run_evaluateExpr e ctx
      dsimp only
      rw [hrun]
      rfl

theorem fst_run_evaluateGate (d : Document) (ctx : Context) :
    ((evaluateGate d).run ctx).1 = (Scope.ofDocument d).bind fun scope =>
      match ctx.session.expressionOf? scope with
      | some e => answer ctx.session.env e
      | none => .error (.noExpression scope.name) := by
  unfold evaluateGate
  rw [run_bind, run_lift]
  cases Scope.ofDocument d with
  | error e => rfl
  | ok scope =>
      dsimp only
      rw [run_bind, run_reading]
      show _ = match ctx.session.expressionOf? scope with
        | some e => answer ctx.session.env e
        | none => .error (.noExpression scope.name)
      cases scope with
      | global => rfl
      | gate g =>
          cases ctx.session.expressionOf? (.gate g) with
          | none => rfl
          | some e =>
              obtain ⟨journal, hrun⟩ := run_evaluateExpr e ctx
              dsimp only
              rw [run_bind, hrun]
              cases answer ctx.session.env e <;> rfl

end FuzzyGates.Session
