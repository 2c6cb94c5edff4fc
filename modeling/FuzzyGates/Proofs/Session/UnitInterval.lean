import FuzzyGates.Proofs.Expr.UnitInterval
import FuzzyGates.Proofs.Session.Evaluation

/-!
# Sessions over the unit interval

A session over the unit interval holds degrees between zero and one only, and expressions
whose literals are between zero and one.  It stays one under operations whose arguments stand
for such expressions, also if they fail, and what it answers lies in the interval.

* `SessionM.Ensures` — an operation keeps a property of the session, and its result has
  another, with one rule for every way to put operations together.
* `Session.InUnit` — the property, with one lemma for every change.
* `ensures_evaluate`, `ensures_evaluateGate`, `ensures_testGate` — what the operations answer
  that look at a session.
* **`ensures_assignValue`**, `ensures_bindExpr` — what those keep that change it.
-/

namespace FuzzyGates

namespace SessionM

variable {α β : Type} {I : Session → Prop} {P : α → Prop} {Q : β → Prop}

/-- Run on a session with a property, an operation leaves one with the property, however it ends,
and the result that it may have is of a kind. -/
def Ensures (I : Session → Prop) (act : SessionM α) (P : α → Prop) : Prop :=
  ∀ ctx, I ctx.session → I (act.run ctx).2.session ∧ ∀ a, (act.run ctx).1 = .ok a → P a

namespace Ensures

theorem pure {a : α} (h : P a) : Ensures I (pure a) P := by
  intro ctx hctx
  refine ⟨hctx, fun b hb => ?_⟩
  cases hb
  exact h

theorem fail (e : Failure) : Ensures I (fail e) P :=
  fun _ hctx => ⟨hctx, fun _ ha => nomatch ha⟩

theorem lift {x : Except Failure α} (h : ∀ a, x = .ok a → P a) : Ensures I (liftM x) P :=
  fun _ hctx => ⟨hctx, h⟩

theorem note (e : Log.Event) : Ensures I (note e) fun _ => True :=
  fun _ hctx => ⟨hctx, fun _ _ => trivial⟩

theorem changing {f : Session → Session} (h : ∀ s, I s → I (f s)) :
    Ensures I (changing f) fun _ => True :=
  fun ctx hctx => ⟨h ctx.session hctx, fun _ _ => trivial⟩

/-- What follows may rely on what the result before it is. -/
theorem bind {x : SessionM α} {f : α → SessionM β} (hx : Ensures I x P)
    (hf : ∀ a, P a → Ensures I (f a) Q) : Ensures I (x >>= f) Q := by
  intro ctx hctx
  obtain ⟨hsession, hresult⟩ := hx ctx hctx
  rw [run_bind]
  rcases hrun : x.run ctx with ⟨e | a, after⟩
  · rw [hrun] at hsession
    exact ⟨hsession, fun _ hb => nomatch hb⟩
  · rw [hrun] at hsession hresult
    exact hf a (hresult a rfl) after hsession

theorem tryCatch {x : SessionM α} {h : Failure → SessionM α} (hx : Ensures I x P)
    (hh : ∀ e, Ensures I (h e) P) : Ensures I (tryCatch x h) P := by
  intro ctx hctx
  obtain ⟨hsession, hresult⟩ := hx ctx hctx
  rw [run_tryCatch]
  rcases hrun : x.run ctx with ⟨e | a, after⟩
  · rw [hrun] at hsession
    exact hh e after hsession
  · rw [hrun] at hsession hresult
    exact ⟨hsession, hresult⟩

theorem mono {P' : α → Prop} {act : SessionM α} (h : Ensures I act P) (hP : ∀ a, P a → P' a) :
    Ensures I act P' :=
  fun ctx hctx => ⟨(h ctx hctx).1, fun a ha => hP a ((h ctx hctx).2 a ha)⟩

/-- What is read off comes first. -/
theorem after_lift {x : Except Failure α} {f : α → SessionM β}
    (h : ∀ a, x = .ok a → Ensures I (f a) Q) : Ensures I (liftM x >>= f) Q :=
  (lift fun _ ha => ha).bind h

theorem after_reading {g : Session → α} {f : α → SessionM β}
    (h : ∀ s, I s → Ensures I (f (g s)) Q) : Ensures I (SessionM.reading g >>= f) Q := by
  intro ctx hctx
  rw [run_bind, run_reading]
  exact h ctx.session hctx ctx hctx

end Ensures

end SessionM

/-- The degree that an attempt comes to, if it succeeds. -/
def Attempt.degree? : Attempt → Option Degree
  | succeeded x => some x
  | failed _ _ => none

namespace Session

open SessionM

/-- All bindings lie between zero and one, and so do the literals of all gate expressions. -/
structure InUnit (s : Session) : Prop where
  env : s.env.InUnit
  registry : ∀ g e, s.registry.get? g = some e → e.InUnit

variable {s : Session}

theorem inUnit_fresh : fresh.InUnit where
  env := Environment.inUnit_empty
  registry _ _ he := nomatch he

theorem InUnit.withEnv (h : s.InUnit) {env : Environment} (henv : env.InUnit) :
    InUnit { s with env := env } := ⟨henv, h.registry⟩

theorem InUnit.withStack (h : s.InUnit) (stack : List Gate) :
    InUnit { s with stack := stack } := ⟨h.env, h.registry⟩

theorem InUnit.bind (h : s.InUnit) (g : Gate) {e : Expr} (he : e.InUnit) :
    InUnit { s with registry := s.registry.insert g e } where
  env := h.env
  registry other e' hget := by
    rw [OrderedMap.get?_insert] at hget
    split at hget
    · cases hget
      exact he
    · exact h.registry other e' hget

theorem InUnit.clearRegistry (h : s.InUnit) : InUnit { s with registry := ∅ } :=
  ⟨h.env, fun _ _ he => nomatch he⟩

/-! ### What a session answers -/

theorem ensures_evaluateExpr (e : Expr) :
    Ensures InUnit (evaluateExpr e) fun x => e.InUnit → x.InUnit := by
  intro ctx hctx
  obtain ⟨journal, hrun⟩ := run_evaluateExpr e ctx
  rw [hrun]
  refine ⟨hctx, fun x hx he => ?_⟩
  unfold answer at hx
  cases heval : e.eval ctx.session.env with
  | error err => rw [heval] at hx; cases hx
  | ok y =>
      rw [heval] at hx
      cases hx
      exact he.eval hctx.env.resolvesInUnit heval

theorem ensures_evaluate (d : Document) :
    Ensures InUnit (evaluate d) fun x => (∀ y ∈ Expr.literalsOf d, y.InUnit) → x.InUnit := by
  refine .after_lift fun e he => (ensures_evaluateExpr e).mono fun x hx hd => hx ?_
  rw [Expr.literalsOf_of_ok he] at hd
  exact hd

theorem ensures_evaluateGate (gate : Document) :
    Ensures InUnit (evaluateGate gate) Degree.InUnit := by
  refine .after_lift fun scope _ => .after_reading fun s hs => ?_
  split
  · next g e _ hexpr =>
      -- what is bound to a gate has its literals in the interval
      have he : e.InUnit := hs.registry g e hexpr
      exact (ensures_evaluateExpr e).bind fun x hx => (Ensures.note _).bind fun _ _ =>
        .pure (hx he)
  · exact .fail _

theorem ensures_testGate (gate target : Document) :
    Ensures InUnit (testGate gate target) Degree.InUnit := by
  refine .after_lift fun scope _ => .after_lift fun key _ => .after_reading fun s hs => ?_
  dsimp only
  split
  · next x hfound =>
      split at hfound
      · exact .pure (hs.env.testGate? hfound)
      · cases hfound
  · exact .fail _

theorem ensures_attempt {act : SessionM Degree} (h : Ensures InUnit act Degree.InUnit) :
    Ensures InUnit (attempt act) fun a => ∀ x ∈ a.degree?, x.InUnit := by
  refine .tryCatch (h.bind fun x hx => .pure ?_) fun e => ?_
  · simpa [Attempt.degree?] using hx
  · cases e.kind? with
    | some kind => exact .pure fun x hx => nomatch hx
    | none => exact .fail e

/-! ### What a session keeps -/

theorem ensures_assignIn {x : Degree} (hx : x.InUnit) (name scope : String) :
    Ensures InUnit (assignIn name x scope) fun _ => True :=
  (Ensures.changing fun _ hs => hs.withEnv (hs.env.assign hx name scope)).bind fun _ _ => .note _

theorem ensures_bindExpr (g : Gate) {e : Expr} (he : e.InUnit) :
    Ensures InUnit (bindExpr g e) fun _ => True :=
  (Ensures.changing fun _ hs => hs.bind g he).bind fun _ _ => .note _

/-- **What is assigned lies between zero and one** if the literals of the argument do, whatever
else has been assigned before. -/
theorem ensures_assignValue {expr : Document} (hexpr : ∀ x ∈ Expr.literalsOf expr, x.InUnit)
    (target gate : Document) : Ensures InUnit (assignValue target expr gate) Degree.InUnit := by
  refine .after_lift fun name _ => ?_
  have hrest : ∀ scope : Scope, Ensures InUnit (do
      let x ← evaluate expr
      assignIn name.text x scope.name
      return x) Degree.InUnit := fun scope =>
    (ensures_evaluate expr).bind fun x hx => (ensures_assignIn (hx hexpr) _ _).bind fun _ _ =>
      .pure (hx hexpr)
  dsimp only
  split
  · exact .after_reading fun s _ => hrest s.ambient
  · exact .after_lift fun scope _ => hrest scope

theorem ensures_assignExpression {expr : Document}
    (hexpr : ∀ x ∈ Expr.literalsOf expr, x.InUnit) (gate : Document) :
    Ensures InUnit (assignExpression gate expr) fun _ => True := by
  refine .after_lift fun scope _ => .after_reading fun s _ => ?_
  have hrest : Ensures InUnit (do
      let e ← (Expr.ofDocument expr : Except Failure Expr)
      let g ← (scope.toGate : Except Failure Gate)
      bindExpr g e) fun _ => True := by
    refine .after_lift fun e he => .after_lift fun g _ => ensures_bindExpr g ?_
    rw [Expr.literalsOf_of_ok he] at hexpr
    exact hexpr
  dsimp only
  split
  · exact (Ensures.note _).bind fun _ _ => hrest
  · exact hrest

theorem ensures_register {expr : Document} (hexpr : ∀ e, expr = .ofExpr e → e.InUnit)
    (gate : Document) : Ensures InUnit (register gate expr) fun _ => True := by
  refine .after_lift fun scope _ => .after_lift fun g _ => ?_
  split
  · next e => exact ensures_bindExpr g (hexpr e rfl)
  · exact .fail _

theorem ensures_assign {expr : Document} (hexpr : ∀ x ∈ Expr.literalsOf expr, x.InUnit)
    (target : Document) :
    Ensures InUnit (assign target expr) fun x => ∀ y ∈ x, Degree.InUnit y := by
  unfold assign
  split
  · exact (ensures_assignExpression hexpr _).bind fun _ _ => .pure fun y hy => nomatch hy
  · exact (ensures_assignValue hexpr _ _).bind fun x hx => .pure fun y hy => Option.some.inj hy ▸ hx
  · exact (ensures_assignValue hexpr _ _).bind fun x hx => .pure fun y hy => Option.some.inj hy ▸ hx
  · exact .fail _

end Session

end FuzzyGates
