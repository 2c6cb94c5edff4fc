import FuzzyGates.Proofs.Session.Loading

/-!
# What operations make of the registry

An operation that is there to bind an expression to a gate either does so or fails without a
trace, and which of the two depends on its arguments only.  All other operations leave the
registry alone, but for those that empty it and for the loading of configurations.

* `BindsOrFails` — an operation binds an expression to a gate, or fails without a trace.
* `Action.binding?` — the expression that an action binds to a gate.
* `Action.Binding.bindsOrFails` — an action that is there to bind binds or fails.
* **`registry_perform`** — what an action makes of the registry, loads left aside.
-/

namespace FuzzyGates

open SessionM

/-! ### Binding or failing -/

/-- What accepted arguments bind. -/
def bindingOf? : Except Failure Scope → Except Failure Expr → Option (Gate × Expr)
  | .ok (.gate g), .ok e => some (g, e)
  | _, _ => none

/-- The registry after a binding, if there is one. -/
def afterBinding (r : Registry) : Option (Gate × Expr) → Registry
  | some (g, e) => r.insert g e
  | none => r

/-- An operation binds an expression to a gate, or it fails and leaves no trace. -/
def BindsOrFails {α : Type} (act : SessionM α) (binding : Option (Gate × Expr)) : Prop :=
  ∀ s : Session, match binding with
    | some (g, e) => ∃ a, Leads act s { s with registry := s.registry.insert g e } a
    | none => ∃ f, Ends act s (.error f) s

namespace BindsOrFails

variable {α β : Type} {binding : Option (Gate × Expr)}

theorem fail {act : SessionM α} {f : Failure} (h : ∀ s, Ends act s (.error f) s) :
    BindsOrFails act none := fun s => ⟨f, h s⟩

theorem bindExpr (g : Gate) (e : Expr) : BindsOrFails (Session.bindExpr g e) (some (g, e)) :=
  fun s => ⟨(), (Leads.changing s _).bind (Leads.note _ _)⟩

/-- What comes before the binding leaves the session alone. -/
theorem after {x : SessionM α} {f : α → SessionM β} (h : ∀ s, ∃ a, Leads x s s a ∧
    BindsOrFails (f a) binding) : BindsOrFails (x >>= f) binding := by
  intro s
  obtain ⟨a, hx, hf⟩ := h s
  have hbinds := hf s
  cases binding with
  | none =>
      obtain ⟨e, he⟩ := hbinds
      exact ⟨e, Ends.bind_ok hx he⟩
  | some p =>
      obtain ⟨b, hb⟩ := hbinds
      exact ⟨b, hx.bind hb⟩

theorem lift {x : Except Failure α} {a : α} (h : x = .ok a) {f : α → SessionM β}
    (hf : BindsOrFails (f a) binding) : BindsOrFails (liftM x >>= f) binding :=
  after fun s => ⟨a, Leads.lift h s, hf⟩

theorem lift_error {x : Except Failure α} {e : Failure} (h : x = .error e) (f : α → SessionM β) :
    BindsOrFails (liftM x >>= f) none := by
  subst h
  exact fail fun s => Ends.bind_error (Ends.lift _ s)

/-- An answer can follow. -/
theorem answering {act : SessionM α} (h : BindsOrFails act binding) (answer : α → β) :
    BindsOrFails (act >>= fun a => pure (answer a)) binding := by
  intro s
  have hbinds := h s
  cases binding with
  | none =>
      obtain ⟨e, he⟩ := hbinds
      exact ⟨e, Ends.bind_error he⟩
  | some p =>
      obtain ⟨a, ha⟩ := hbinds
      exact ⟨answer a, ha.bind (Leads.pure _ _)⟩

/-- Such an operation has a result exactly if there is something to bind. -/
theorem isOk_iff {act : SessionM α} (h : BindsOrFails act binding) (ctx : Context) :
    (∃ a, (act.run ctx).1 = .ok a) ↔ binding.isSome := by
  have hbinds := h ctx.session
  cases binding with
  | none =>
      obtain ⟨e, he⟩ := hbinds
      obtain ⟨journal, hrun⟩ := he ctx.journal
      simp [hrun]
  | some p =>
      obtain ⟨a, ha⟩ := hbinds
      obtain ⟨journal, hrun⟩ := ha ctx.journal
      simp [hrun]

theorem registry {act : SessionM α} (h : BindsOrFails act binding) (ctx : Context) :
    (act.run ctx).2.session.registry = afterBinding ctx.session.registry binding := by
  have hbinds := h ctx.session
  cases binding with
  | none =>
      obtain ⟨f, hf⟩ := hbinds
      obtain ⟨journal, hrun⟩ := hf ctx.journal
      rw [hrun]
      rfl
  | some p =>
      obtain ⟨a, ha⟩ := hbinds
      obtain ⟨journal, hrun⟩ := ha ctx.journal
      rw [hrun]
      rfl

end BindsOrFails

namespace Session

theorem bindsOrFails_assignExpression (gate expr : Document) :
    BindsOrFails (assignExpression gate expr)
      (bindingOf? (Scope.ofDocument gate) (Expr.ofDocument expr)) := by
  cases hscope : Scope.ofDocument gate with
  | error e =>
      have htarget : targetScope gate = .error (.badTarget gate) := by rw [targetScope, hscope]; rfl
      exact BindsOrFails.lift_error htarget _
  | ok scope =>
      have htarget : targetScope gate = .ok scope := by rw [targetScope, hscope]; rfl
      have hrest : BindsOrFails (do
          let e ← (Expr.ofDocument expr : Except Failure Expr)
          let g ← (scope.toGate : Except Failure Gate)
          bindExpr g e) (bindingOf? (.ok scope) (Expr.ofDocument expr)) := by
        cases hexpr : Expr.ofDocument expr with
        | error e => cases scope <;> exact BindsOrFails.lift_error rfl _
        | ok e =>
            refine BindsOrFails.lift rfl ?_
            cases scope with
            | global => exact BindsOrFails.lift_error rfl _
            | gate g => exact BindsOrFails.lift rfl (.bindExpr g e)
      refine BindsOrFails.lift htarget (.after fun s => ⟨_, Leads.reading s ambient, ?_⟩)
      dsimp only
      split
      · exact .after fun s => ⟨_, Leads.note s _, hrest⟩
      · exact hrest

/-- The expression that an argument is. -/
def exprOf : Document → Except Failure Expr
  | .atom (.expr e) => .ok e
  | d => .error (.wrongKind (.expression d))

theorem bindsOrFails_register (gate expr : Document) :
    BindsOrFails (register gate expr) (bindingOf? (Scope.ofDocument gate) (exprOf expr)) := by
  cases hscope : Scope.ofDocument gate with
  | error e => exact BindsOrFails.lift_error hscope _
  | ok scope =>
      refine BindsOrFails.lift hscope ?_
      cases scope with
      | global => exact BindsOrFails.lift_error rfl _
      | gate g =>
          refine BindsOrFails.lift rfl ?_
          cases expr with
          | atom a =>
              cases a with
              | expr e => exact .bindExpr g e
              | _ => exact .fail fun s journal => ⟨journal, rfl⟩
          | _ => exact .fail fun s journal => ⟨journal, rfl⟩

end Session

/-! ### What actions bind -/

namespace Program

open Session (Change)

/-- The expression that an action binds to a gate, if its arguments are accepted. -/
def Action.binding? : Action → Option (Gate × Expr)
  | assignExpression (.ok gate) (.ok expr) =>
      bindingOf? (Scope.ofDocument gate) (Expr.ofDocument expr)
  | assign (.ok (.atom (.gate g))) (.ok expr) => bindingOf? (.ok (.gate g)) (Expr.ofDocument expr)
  | register (.ok gate) (.ok expr) => bindingOf? (Scope.ofDocument gate) (Session.exprOf expr)
  | _ => none

/-- An action that is there to bind an expression to a gate. -/
def Action.Binding : Action → Prop
  | assignExpression _ _ | register _ _ => True
  | assign (.ok (.atom (.gate _))) _ => True
  | _ => False

theorem bindsOrFails_silently {α : Type} {act : SessionM α} {binding : Option (Gate × Expr)}
    (h : BindsOrFails act binding) : BindsOrFails (silently act) binding :=
  (h.answering fun _ => ()).answering fun _ => Reply.done

/-- **A binding action binds or fails without a trace**, whatever the session. -/
theorem Action.Binding.bindsOrFails {a : Action} (h : a.Binding) :
    BindsOrFails a.perform a.binding? := by
  unfold Action.Binding at h
  split at h
  · next gate expr =>
      cases gate with
      | error e => exact BindsOrFails.lift_error rfl _
      | ok gate =>
          refine BindsOrFails.lift rfl ?_
          cases expr with
          | error e => exact BindsOrFails.lift_error rfl _
          | ok expr =>
              exact BindsOrFails.lift rfl
                (bindsOrFails_silently (Session.bindsOrFails_assignExpression gate expr))
  · next gate expr =>
      cases gate with
      | error e => exact BindsOrFails.lift_error rfl _
      | ok gate =>
          refine BindsOrFails.lift rfl ?_
          cases expr with
          | error e => exact BindsOrFails.lift_error rfl _
          | ok expr =>
              exact BindsOrFails.lift rfl
                (bindsOrFails_silently (Session.bindsOrFails_register gate expr))
  · next g expr =>
      refine BindsOrFails.lift rfl ?_
      cases expr with
      | error e => exact BindsOrFails.lift_error rfl _
      | ok expr =>
          refine BindsOrFails.lift rfl (BindsOrFails.answering ?_ _)
          exact (Session.bindsOrFails_assignExpression (.atom (.gate g)) expr).answering _
  · exact h.elim

/-- What an action makes of the registry, unless it loads a configuration. -/
def Action.registryAfter (a : Action) (r : Registry) : Registry :=
  match a with
  | reset | clearRegistry => ∅
  | a => afterBinding r a.binding?

/-- A change of the registry. -/
def ChangesRegistry : Change → Prop
  | .bind _ _ | .clearRegistry | .reset => True
  | _ => False

theorem registry_run_of_madeFrom {C : Change → Prop} {α : Type} {act : SessionM α}
    (h : MadeFrom C act) (hC : ∀ c, C c → ¬ChangesRegistry c) (ctx : Context) :
    (act.run ctx).2.session.registry = ctx.session.registry := by
  have hmoves : Moves (fun s t => t.registry = s.registry) act := by
    refine h.moves (fun _ => rfl) (fun _ _ _ hst htu => htu.trans hst) ?_ fun _ _ _ h => h
    intro c hc s
    cases c with
    | assign | clearBindings => rfl
    | bind | clearRegistry | reset => exact absurd trivial (hC _ hc)
  exact hmoves ctx

/-- Assigning to a target that is no gate gives a variable a degree, if anything. -/
theorem madeFrom_assign_of_not_gate {target : Document} (h : ∀ g, target ≠ .atom (.gate g))
    (expr : Document) : MadeFrom Change.Named (Session.assign target expr) := by
  unfold Session.assign
  split
  · next g => exact absurd rfl (h g)
  · exact .bind (madeFrom_assignValue (fun _ hc => hc) _ _ _) fun x => .pure _
  · exact .bind (madeFrom_assignValue (fun _ hc => hc) _ _ _) fun x => .pure _
  · exact .fail _

theorem registry_perform_assign (target expr : Argument) (ctx : Context) :
    ((Action.assign target expr).perform.run ctx).2.session.registry =
      (Action.assign target expr).registryAfter ctx.session.registry := by
  cases target with
  | error e => rfl
  | ok target =>
      -- what the target is decides whether the action can bind an expression at all
      by_cases hgate : ∃ g, target = .atom (.gate g)
      · obtain ⟨g, rfl⟩ := hgate
        have hbinding : (Action.assign (.ok (.atom (.gate g))) expr).Binding := trivial
        exact hbinding.bindsOrFails.registry ctx
      · have hnone : (Action.assign (.ok target) expr).binding? = none := by
          unfold Action.binding?
          split <;> simp_all
        cases expr with
        | error e => simp only [Action.registryAfter, hnone]; rfl
        | ok expr =>
            have hmade : MadeFrom Change.Named (do
                return Reply.degree? (← Session.assign target expr)) :=
              .bind (madeFrom_assign_of_not_gate (fun g hg => hgate ⟨g, hg⟩) expr) fun _ => .pure _
            simp only [Action.registryAfter, hnone]
            refine registry_run_of_madeFrom hmade (fun c hc => ?_) ctx
            cases c <;> simp_all [Change.Named, ChangesRegistry]

/-- **What an action makes of the registry.** -/
theorem registry_perform {a : Action} (hload : ∀ data, a ≠ .load data) (ctx : Context) :
    (a.perform.run ctx).2.session.registry = a.registryAfter ctx.session.registry := by
  cases a with
  | assignExpression gate expr =>
      have hbinding : (Action.assignExpression gate expr).Binding := trivial
      exact hbinding.bindsOrFails.registry ctx
  | register gate expr =>
      have hbinding : (Action.register gate expr).Binding := trivial
      exact hbinding.bindsOrFails.registry ctx
  | assign target expr => exact registry_perform_assign target expr ctx
  | load data => exact absurd rfl (hload data)
  | reset | clearRegistry => rfl
  | _ =>
      refine registry_run_of_madeFrom (Action.madeFrom _) (fun c hc => ?_) ctx
      cases c <;> simp_all [Action.Makes, Change.Named, ChangesRegistry]

end Program

end FuzzyGates
