import FuzzyGates.Proofs.Document.Naming
import FuzzyGates.Proofs.Expr.OwnNames
import FuzzyGates.Proofs.Session.Evaluation
import FuzzyGates.Proofs.Session.Registry

/-!
# Assignments are made whole or not at all

An assignment looks at its arguments and evaluates before it writes anything, and it writes only
once.  So it fails without a trace, or it sets one binding: the degree of a name in a scope, or the
expression of a gate.

* `Change.Sets` — a change sets one binding and leaves all else as it was.
* `Atomic` — an operation fails without a trace, or makes one such change.
* `degreeAssignment`, `ends_assignValue` — what the assignment of a degree comes to, or why it
  fails.
* `exists_leads_assignValue_iff` — the arguments with which a degree is assigned.
* **`assignments_atomic`** — all four kinds of assignments are atomic, and what each of them sets.
-/

namespace FuzzyGates

open SessionM

variable {α β : Type}

/-! ### One binding -/

namespace Session

/-- A change sets one binding, and every other binding is as before. -/
def Change.Sets : Change → Session → Session → Prop
  | .assign name x scope, s, t =>
      t = (Change.assign name x scope).apply s ∧ t.env.held? scope name = some x ∧
        (∀ other key, ¬ (other = scope ∧ key = name) →
          t.env.held? other key = s.env.held? other key) ∧
        t.registry = s.registry ∧ t.stack = s.stack
  | .bind g e, s, t =>
      t = (Change.bind g e).apply s ∧ t.registry.get? g = some e ∧
        (∀ other, other ≠ g → t.registry.get? other = s.registry.get? other) ∧
        t.env = s.env ∧ t.stack = s.stack
  | _, _, _ => False

theorem sets_assign (s : Session) (name : String) (x : Degree) (scope : String) :
    Change.Sets (.assign name x scope) s ((Change.assign name x scope).apply s) := by
  refine ⟨rfl, ?_, ?_, rfl, rfl⟩
  · exact (s.env.held?_assign name x scope scope name).trans (if_pos ⟨rfl, rfl⟩)
  · intro other key hplace
    exact (s.env.held?_assign name x scope other key).trans
      (if_neg fun h => hplace ⟨h.1.symm, h.2.symm⟩)

theorem sets_bind (s : Session) (g : Gate) (e : Expr) :
    Change.Sets (.bind g e) s ((Change.bind g e).apply s) :=
  ⟨rfl, s.registry.get?_insert_self g e,
    fun _ hne => s.registry.get?_insert_of_ne e hne.symm, rfl, rfl⟩

/-- An operation fails and leaves the session as it was, or it sets one binding, which has to do
with its answer. -/
def Atomic (act : SessionM α) (s : Session) (P : Change → α → Prop) : Prop :=
  (∃ f, Ends act s (.error f) s) ∨ ∃ c t a, Leads act s t a ∧ c.Sets s t ∧ P c a

/-- An operation ends in one way only. -/
theorem ends_unique {act : SessionM α} {s t u : Session} {r q : Except Failure α}
    (h : Ends act s r t) (k : Ends act s q u) : r = q ∧ t = u := by
  obtain ⟨after, hrun⟩ := h default
  obtain ⟨after', hrun'⟩ := k default
  rw [hrun, Prod.mk.injEq, Context.mk.injEq] at hrun'
  exact ⟨hrun'.1, hrun'.2.1⟩

/-! ### Assigning a degree -/

/-- The scope that an argument names: the ambient one if the argument is null. -/
def scopeFor (s : Session) : Document → Except Failure Scope
  | .atom .null => .ok s.ambient
  | d => targetScope d

/-- What the assignment of a degree comes to in a session. -/
def degreeAssignment (s : Session) (target expr gate : Document) :
    Except Failure (Name × Scope × Degree) := do
  let name ← targetName target
  let scope ← scopeFor s gate
  let x ← (Expr.ofDocument expr).bind (answer s.env)
  return (name, scope, x)

/-- Read off the scope that an argument names. -/
def namedScope : Document → SessionM Scope
  | .atom .null => reading ambient
  | d => liftM (targetScope d)

/-- Evaluate an argument and bind the degree. -/
def bindDegree (expr : Document) (name : Name) (scope : Scope) : SessionM Degree := do
  let x ← evaluate expr
  assignIn name.text x scope.name
  return x

/-- An assignment reads off its target, then its scope, evaluates and binds, in this order. -/
theorem assignValue_eq (target expr gate : Document) : assignValue target expr gate =
    (do
      let name ← targetName target
      let scope ← namedScope gate
      bindDegree expr name scope) := by
  unfold assignValue
  congr 1
  funext name
  split
  · rfl
  · next hgate =>
      have hscope : namedScope gate = liftM (targetScope gate) := by
        unfold namedScope
        split
        · exact (hgate rfl).elim
        · rfl
      rw [hscope]
      rfl

theorem ends_namedScope (s : Session) (gate : Document) :
    Ends (namedScope gate) s (scopeFor s gate) s := by
  unfold namedScope scopeFor
  split
  · exact Leads.reading s ambient
  · exact Ends.lift _ s

theorem ends_evaluate (s : Session) (expr : Document) :
    Ends (evaluate expr) s ((Expr.ofDocument expr).bind (answer s.env)) s := by
  unfold evaluate
  cases hexpr : Expr.ofDocument expr with
  | error f => exact Ends.bind_error (Ends.lift _ s)
  | ok e => exact Ends.bind_ok (Leads.pure s e) fun journal => run_evaluateExpr e ⟨s, journal⟩

/-- **The assignment of a degree**: everything that can fail comes before the binding. -/
theorem ends_assignValue (s : Session) (target expr gate : Document) :
    match degreeAssignment s target expr gate with
    | .ok (name, scope, x) =>
        Leads (assignValue target expr gate) s ((Change.assign name.text x scope.name).apply s) x
    | .error f => Ends (assignValue target expr gate) s (.error f) s := by
  rw [assignValue_eq]
  unfold degreeAssignment
  have htarget := Ends.lift (targetName target) s
  have hgate := ends_namedScope s gate
  have hexpr := ends_evaluate s expr
  cases hname : targetName target with
  | error f =>
      rw [hname] at htarget
      exact Ends.bind_error htarget
  | ok name =>
      rw [hname] at htarget
      cases hscope : scopeFor s gate with
      | error f =>
          rw [hscope] at hgate
          exact Ends.bind_ok htarget (Ends.bind_error hgate)
      | ok scope =>
          rw [hscope] at hgate
          cases hx : (Expr.ofDocument expr).bind (answer s.env) with
          | error f =>
              rw [hx] at hexpr
              exact Ends.bind_ok htarget (Ends.bind_ok hgate (Ends.bind_error hexpr))
          | ok x =>
              rw [hx] at hexpr
              have hbind : Leads (assignIn name.text x scope.name) s
                  ((Change.assign name.text x scope.name).apply s) () :=
                (Leads.changing s _).bind (Leads.note _ _)
              exact Leads.bind htarget (Leads.bind hgate (Leads.bind hexpr
                (hbind.bind (Leads.pure _ x))))

theorem degreeAssignment_eq_ok_iff {s : Session} {target expr gate : Document} {name : Name}
    {scope : Scope} {x : Degree} :
    degreeAssignment s target expr gate = .ok (name, scope, x) ↔
      targetName target = .ok name ∧ scopeFor s gate = .ok scope ∧
        (Expr.ofDocument expr).bind (answer s.env) = .ok x := by
  unfold degreeAssignment
  simp only [bind_eq_ok_iff, pure, Except.pure, Except.ok.injEq, Prod.mk.injEq]
  constructor
  · rintro ⟨n, hn, sc, hsc, y, hy, rfl, rfl, rfl⟩
    exact ⟨hn, hsc, hy⟩
  · rintro ⟨hn, hsc, hy⟩
    exact ⟨name, hn, scope, hsc, x, hy, rfl, rfl, rfl⟩

theorem atomic_assignValue (s : Session) (target expr gate : Document) :
    Atomic (assignValue target expr gate) s fun c x => ∃ name scope,
      c = .assign name.text x scope.name ∧ targetName target = .ok name ∧
        scopeFor s gate = .ok scope ∧ Leads (evaluate expr) s s x := by
  have hends := ends_assignValue s target expr gate
  cases hresult : degreeAssignment s target expr gate with
  | error f =>
      rw [hresult] at hends
      exact .inl ⟨f, hends⟩
  | ok p =>
      obtain ⟨name, scope, x⟩ := p
      rw [hresult] at hends
      obtain ⟨hname, hscope, hx⟩ := degreeAssignment_eq_ok_iff.mp hresult
      have hevaluate := ends_evaluate s expr
      rw [hx] at hevaluate
      exact .inr ⟨_, _, x, hends, sets_assign s name.text x scope.name, name, scope, rfl, hname,
        hscope, hevaluate⟩

/-! ### The arguments with which a degree is assigned -/

theorem scopeFor_eq_ok_iff {s : Session} {gate : Document} {scope : Scope} :
    scopeFor s gate = .ok scope ↔ gate = .atom .null ∧ scope = s.ambient ∨
      gate ≠ .atom .null ∧ Scope.ofDocument gate = .ok scope := by
  unfold scopeFor
  split
  · simp [eq_comm]
  · next hnull =>
      have hne : gate ≠ .atom .null := fun h => hnull h
      unfold targetScope
      cases Scope.ofDocument gate <;> simp [Except.mapError, hne]

theorem exists_scopeFor_iff (s : Session) (gate : Document) :
    (∃ scope, scopeFor s gate = .ok scope) ↔ gate = .atom .null ∨ gate.NamesScope := by
  simp only [scopeFor_eq_ok_iff, ← Document.exists_scope_iff]
  by_cases hnull : gate = .atom .null <;> simp [hnull]

theorem exists_value_iff (env : Environment) (expr : Document) :
    (∃ x, (Expr.ofDocument expr).bind (answer env) = .ok x) ↔
      ∃ e, Expr.ofDocument expr = .ok e ∧ e.Concrete ∧
        ∀ n ∈ e.names, (env.resolve? n.text).isSome = true := by
  cases hexpr : Expr.ofDocument expr with
  | error f => simp [Except.bind]
  | ok e =>
      simp only [Except.bind, Except.ok.injEq, exists_eq_left',
        ← Expr.exists_eval_eq_ok_iff_resolves, answer]
      cases e.eval env <;> simp [Except.mapError]

/-- **A degree is assigned exactly if** the target names a variable, the gate is absent or names a
scope, and the expression stands for a tree without bare nodes all of whose variables resolve. -/
theorem exists_leads_assignValue_iff (s : Session) (target expr gate : Document) :
    (∃ t x, Leads (assignValue target expr gate) s t x) ↔
      target.NamesVariable ∧ (gate = .atom .null ∨ gate.NamesScope) ∧
        ∃ e, Expr.ofDocument expr = .ok e ∧ e.Concrete ∧
          ∀ n ∈ e.names, (s.env.resolve? n.text).isSome = true := by
  rw [← Document.exists_targetName_iff, ← exists_scopeFor_iff s, ← exists_value_iff]
  have hends := ends_assignValue s target expr gate
  constructor
  · rintro ⟨t, x, hleads⟩
    cases hresult : degreeAssignment s target expr gate with
    | error f =>
        rw [hresult] at hends
        cases (ends_unique hends hleads).1
    | ok p =>
        obtain ⟨name, scope, y⟩ := p
        obtain ⟨hname, hscope, hy⟩ := degreeAssignment_eq_ok_iff.mp hresult
        exact ⟨⟨name, hname⟩, ⟨scope, hscope⟩, y, hy⟩
  · rintro ⟨⟨name, hname⟩, ⟨scope, hscope⟩, x, hx⟩
    rw [degreeAssignment_eq_ok_iff.mpr ⟨hname, hscope, hx⟩] at hends
    exact ⟨_, x, hends⟩

/-! ### Binding an expression -/

theorem bindingOf?_eq_some_iff {scope : Except Failure Scope} {expr : Except Failure Expr}
    {g : Gate} {e : Expr} :
    bindingOf? scope expr = some (g, e) ↔ scope = .ok (.gate g) ∧ expr = .ok e := by
  unfold bindingOf?
  split
  · simp
  · next hno =>
      simp only [reduceCtorEq, false_iff]
      rintro ⟨rfl, rfl⟩
      exact hno g e rfl rfl

theorem atomic_of_bindsOrFails {act : SessionM α} {scope : Except Failure Scope}
    {expr : Except Failure Expr} (h : BindsOrFails act (bindingOf? scope expr)) (s : Session) :
    Atomic act s fun c _ => ∃ g e, c = .bind g e ∧ scope = .ok (.gate g) ∧ expr = .ok e := by
  have hbinds := h s
  cases hbinding : bindingOf? scope expr with
  | none =>
      rw [hbinding] at hbinds
      exact .inl hbinds
  | some p =>
      obtain ⟨g, e⟩ := p
      rw [hbinding] at hbinds
      obtain ⟨a, ha⟩ := hbinds
      obtain ⟨hscope, hexpr⟩ := bindingOf?_eq_some_iff.mp hbinding
      exact .inr ⟨_, _, a, ha, sets_bind s g e, g, e, rfl, hscope, hexpr⟩

theorem Atomic.answering {act : SessionM α} {s : Session} {P : Change → α → Prop}
    (h : Atomic act s P) (answer : α → β) :
    Atomic (act >>= fun a => pure (answer a)) s fun c b => ∃ a, b = answer a ∧ P c a := by
  rcases h with ⟨f, hf⟩ | ⟨c, t, a, ha, hsets, hP⟩
  · exact .inl ⟨f, Ends.bind_error hf⟩
  · exact .inr ⟨c, t, answer a, ha.bind (Leads.pure t _), hsets, a, rfl, hP⟩

theorem Atomic.mono {act : SessionM α} {s : Session} {P Q : Change → α → Prop}
    (h : Atomic act s P) (hPQ : ∀ c a, P c a → Q c a) : Atomic act s Q := by
  rcases h with hf | ⟨c, t, a, ha, hsets, hP⟩
  · exact .inl hf
  · exact .inr ⟨c, t, a, ha, hsets, hPQ c a hP⟩

theorem exprOf_eq_ok_iff {d : Document} {e : Expr} : exprOf d = .ok e ↔ d = .ofExpr e := by
  unfold exprOf
  split
  · simp [Document.ofExpr]
  · next hexpr => simpa [Document.ofExpr] using hexpr e

/-- Without a scope of its own, an assignment gives a degree in the ambient one. -/
theorem atomic_assignValue_ambient (s : Session) (target expr : Document) :
    Atomic (do return some (← assignValue target expr (.atom .null))) s fun c r =>
      ∃ name x, targetName target = .ok name ∧ Leads (evaluate expr) s s x ∧
        c = .assign name.text x s.ambient.name ∧ r = some x := by
  refine ((atomic_assignValue s target expr (.atom .null)).answering some).mono ?_
  rintro c r ⟨x, hr, name, scope, hc, hname, hscope, hx⟩
  cases hscope
  exact ⟨name, x, hname, hx, hc, hr⟩

/-- Assigning to a gate binds an expression, assigning to a variable gives it a degree in the
ambient scope, and nothing else can be assigned to. -/
theorem atomic_assign (s : Session) (target expr : Document) :
    Atomic (assign target expr) s fun c r =>
      (∃ g e, target = .atom (.gate g) ∧ Expr.ofDocument expr = .ok e ∧ c = .bind g e ∧
        r = none) ∨
        ∃ name x, targetName target = .ok name ∧ Leads (evaluate expr) s s x ∧
          c = .assign name.text x s.ambient.name ∧ r = some x := by
  unfold assign
  split
  · next g =>
      have hbinds := atomic_of_bindsOrFails
        (bindsOrFails_assignExpression (.atom (.gate g)) expr) s
      refine (hbinds.answering fun _ => none).mono ?_
      rintro c r ⟨-, rfl, g', e, rfl, hscope, hexpr⟩
      cases hscope
      exact .inl ⟨g, e, rfl, hexpr, rfl, rfl⟩
  · exact (atomic_assignValue_ambient s _ expr).mono fun c r h => .inr h
  · exact (atomic_assignValue_ambient s _ expr).mono fun c r h => .inr h
  · exact .inl ⟨_, fun journal => ⟨journal, rfl⟩⟩

/-- **Assignments are atomic.**  From every session and with arguments of every kind, each of the
four assignments fails and leaves the session as it was, or sets one binding and leaves all others
as they were.  The assignment of a degree sets the degree that the expression had before, in the
scope that was named or else in the ambient one, and answers it; it succeeds exactly if the
arguments name a variable and, unless it is absent, a scope, and the expression stands for one all
of whose variables resolve.  The others bind an expression to a gate; the assignment that goes by
its target does one or the other. -/
theorem assignments_atomic (s : Session) :
    (∀ target expr gate, Atomic (assignValue target expr gate) s fun c x => ∃ name scope,
      c = .assign name.text x scope.name ∧ targetName target = .ok name ∧
        (gate = .atom .null ∧ scope = s.ambient ∨
          gate ≠ .atom .null ∧ Scope.ofDocument gate = .ok scope) ∧
        Leads (evaluate expr) s s x) ∧
      (∀ target expr gate, (∃ t x, Leads (assignValue target expr gate) s t x) ↔
        target.NamesVariable ∧ (gate = .atom .null ∨ gate.NamesScope) ∧
          ∃ e, Expr.ofDocument expr = .ok e ∧ e.Concrete ∧
            ∀ n ∈ e.names, (s.env.resolve? n.text).isSome = true) ∧
      (∀ gate expr, Atomic (assignExpression gate expr) s fun c _ => ∃ g e, c = .bind g e ∧
        Scope.ofDocument gate = .ok (.gate g) ∧ Expr.ofDocument expr = .ok e) ∧
      (∀ gate expr, Atomic (register gate expr) s fun c _ => ∃ g e, c = .bind g e ∧
        Scope.ofDocument gate = .ok (.gate g) ∧ expr = .ofExpr e) ∧
      ∀ target expr, Atomic (assign target expr) s fun c r =>
        (∃ g e, target = .atom (.gate g) ∧ Expr.ofDocument expr = .ok e ∧ c = .bind g e ∧
          r = none) ∨
          ∃ name x, targetName target = .ok name ∧ Leads (evaluate expr) s s x ∧
            c = .assign name.text x s.ambient.name ∧ r = some x := by
  refine ⟨fun target expr gate => ?_, exists_leads_assignValue_iff s, fun gate expr => ?_,
    fun gate expr => ?_, atomic_assign s⟩
  · refine (atomic_assignValue s target expr gate).mono ?_
    rintro c x ⟨name, scope, hc, hname, hscope, hx⟩
    exact ⟨name, scope, hc, hname, scopeFor_eq_ok_iff.mp hscope, hx⟩
  · exact atomic_of_bindsOrFails (bindsOrFails_assignExpression gate expr) s
  · refine (atomic_of_bindsOrFails (bindsOrFails_register gate expr) s).mono ?_
    rintro c r ⟨g, e, hc, hscope, hexpr⟩
    exact ⟨g, e, hc, hscope, exprOf_eq_ok_iff.mp hexpr⟩

end Session

end FuzzyGates
