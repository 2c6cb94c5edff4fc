import FuzzyGates.Program.Run
import FuzzyGates.Proofs.Failure

/-!
# What an operation can do to a session

Every operation on a session is put together from a few moves: it looks at the
session, records an event, gives up, works inside a gate block, and makes one of
five elementary changes.  This module says once which changes each operation can
make.  What holds of a change, or is kept by it, then holds of all operations.

* `Session.Change` — the elementary changes, with `Change.apply`.
* `SessionM.MadeFrom` — the operations that are put together from the changes of a set.
* `SessionM.Relates` — the context before an operation is related to the one after it; kept by
  sequencing, by handling failures and by iteration if the relation is a preorder.
* `MadeFrom.moves` — a preorder on sessions that contains the changes of the set and
  is respected by gate blocks contains every run of the operation, however it ends.
* **`Action.madeFrom`** — every action, with the changes that it may make.
-/

namespace FuzzyGates

namespace SessionM

variable {α : Type}

@[simp] theorem run_reading (f : Session → α) (ctx : Context) :
    (reading f).run ctx = (.ok (f ctx.session), ctx) := rfl

@[simp] theorem run_note (e : Log.Event) (ctx : Context) :
    (note e).run ctx = (.ok (), ctx.note e) := rfl

@[simp] theorem run_lift (x : Except Failure α) (ctx : Context) :
    (liftM x : SessionM α).run ctx = (x, ctx) := rfl

theorem run_withGate (g : Gate) (act : SessionM α) (ctx : Context) :
    (Session.withGate g act).run ctx =
      ((act.run (ctx.enterGate g)).1,
        (act.run (ctx.enterGate g)).2.leaveGate ctx.session.depth g) := rfl

/-- Run an operation on another session that writes to the same journal. -/
def elsewhere (s : Session) (act : SessionM α) : SessionM α :=
  ExceptT.mk fun ctx =>
    ((act.run ⟨s, ctx.journal⟩).1, { ctx with journal := (act.run ⟨s, ctx.journal⟩).2.journal })

theorem run_elsewhere (s : Session) (act : SessionM α) (ctx : Context) :
    (elsewhere s act).run ctx =
      ((act.run ⟨s, ctx.journal⟩).1,
        { ctx with journal := (act.run ⟨s, ctx.journal⟩).2.journal }) := rfl

end SessionM

namespace Session

/-- The elementary changes of a session. -/
inductive Change
  | assign (name : String) (value : Degree) (scope : String)
  | bind (gate : Gate) (expr : Expr)
  | clearBindings
  | clearRegistry
  | reset

/-- The session after a change. -/
def Change.apply : Change → Session → Session
  | assign name value scope, s => { s with env := s.env.assign name value scope }
  | bind g e, s => { s with registry := s.registry.insert g e }
  | clearBindings, s => { s with env := ∅ }
  | clearRegistry, s => { s with registry := ∅ }
  | reset, _ => fresh

/-- A change that gives a named variable of a named scope a degree. -/
def Change.Named : Change → Prop
  | assign name _ scope => name ≠ "" ∧ scope ≠ ""
  | _ => False

/-- A change that binds an expression to a gate. -/
def Change.Binds : Change → Prop
  | bind _ _ => True
  | _ => False

end Session

namespace SessionM

open Session (Change)

/-- The operations that are put together from the changes of a set.  What runs elsewhere may make
any changes: they are made to another session. -/
inductive MadeFrom : (Change → Prop) → {α : Type} → SessionM α → Prop
  | change {C : Change → Prop} (c : Change) (h : C c) : MadeFrom C (changing c.apply)
  | pure {C : Change → Prop} {α : Type} (a : α) : MadeFrom C (pure a : SessionM α)
  | throw {C : Change → Prop} {α : Type} (e : Failure) : MadeFrom C (throw e : SessionM α)
  | reading {C : Change → Prop} {α : Type} (f : Session → α) : MadeFrom C (reading f)
  | note {C : Change → Prop} (e : Log.Event) : MadeFrom C (note e)
  | configure {C : Change → Prop} (level format : String) :
      MadeFrom C (Session.configureLogging level format)
  | bind {C : Change → Prop} {α β : Type} {x : SessionM α} {f : α → SessionM β}
      (hx : MadeFrom C x) (hf : ∀ a, MadeFrom C (f a)) : MadeFrom C (x >>= f)
  | tryCatch {C : Change → Prop} {α : Type} {x : SessionM α} {h : Failure → SessionM α}
      (hx : MadeFrom C x) (hh : ∀ e, MadeFrom C (h e)) : MadeFrom C (tryCatch x h)
  | withGate {C : Change → Prop} {α : Type} (g : Gate) {act : SessionM α}
      (h : MadeFrom C act) : MadeFrom C (Session.withGate g act)
  | elsewhere {C : Change → Prop} {α : Type} (s : Session) {act : SessionM α}
      (h : MadeFrom (fun _ => True) act) : MadeFrom C (elsewhere s act)

section Relates

variable {R : Context → Context → Prop} {α β : Type}

/-- Every run of the operation relates the context before it to the context after it. -/
def Relates (R : Context → Context → Prop) (act : SessionM α) : Prop :=
  ∀ ctx, R ctx (act.run ctx).2

theorem Relates.bind (htrans : ∀ c d e, R c d → R d e → R c e) {x : SessionM α}
    {f : α → SessionM β} (hx : Relates R x) (hf : ∀ a, Relates R (f a)) :
    Relates R (x >>= f) := by
  intro ctx
  have hfirst := hx ctx
  rw [run_bind]
  rcases hrun : x.run ctx with ⟨e | a, after⟩
  · rw [hrun] at hfirst
    exact hfirst
  · rw [hrun] at hfirst
    exact htrans _ _ _ hfirst (hf a after)

theorem Relates.tryCatch (htrans : ∀ c d e, R c d → R d e → R c e) {x : SessionM α}
    {h : Failure → SessionM α} (hx : Relates R x) (hh : ∀ e, Relates R (h e)) :
    Relates R (tryCatch x h) := by
  intro ctx
  have hfirst := hx ctx
  rw [run_tryCatch]
  rcases hrun : x.run ctx with ⟨e | a, after⟩
  · rw [hrun] at hfirst
    exact htrans _ _ _ hfirst (hh e after)
  · rw [hrun] at hfirst
    exact hfirst

theorem Relates.forM (hrefl : ∀ c, R c c) (htrans : ∀ c d e, R c d → R d e → R c e) {l : List α}
    {f : α → SessionM Unit} (h : ∀ a, Relates R (f a)) : Relates R (l.forM f) := by
  induction l with
  | nil => exact hrefl
  | cons a rest ih => exact (h a).bind htrans fun _ => ih

end Relates

/-- Every run of the operation relates the session before it to the session after it. -/
def Moves (R : Session → Session → Prop) {α : Type} (act : SessionM α) : Prop :=
  ∀ ctx, R ctx.session (act.run ctx).2.session

/-- **What the changes of a set do, the operations made from them do.**  A gate block hands its
operation a session with the gate on top of the stack and cuts the stack afterwards. -/
theorem MadeFrom.moves {R : Session → Session → Prop} {C : Change → Prop} {α : Type}
    {act : SessionM α} (hrefl : ∀ s, R s s) (htrans : ∀ s t u, R s t → R t u → R s u)
    (hchange : ∀ c, C c → ∀ s, R s (c.apply s))
    (hgate : ∀ g s t, R { s with stack := s.stack ++ [g] } t →
      R s { t with stack := t.stack.take s.depth })
    (h : MadeFrom C act) : Moves R act := by
  intro ctx
  induction h generalizing ctx with
  | change c hc => exact hchange c hc ctx.session
  | pure a => exact hrefl _
  | throw e => exact hrefl _
  | reading f => exact hrefl _
  | note e => exact hrefl _
  | configure level format => exact hrefl _
  | bind _ _ ihx ihf =>
      exact Relates.bind (R := fun c d => R c.session d.session) (fun _ _ _ => htrans _ _ _)
        (ihx hchange) (fun a => ihf a hchange) ctx
  | tryCatch _ _ ihx ihh =>
      exact Relates.tryCatch (R := fun c d => R c.session d.session) (fun _ _ _ => htrans _ _ _)
        (ihx hchange) (fun e => ihh e hchange) ctx
  | withGate g h ih => exact hgate g _ _ (ih hchange (ctx.enterGate g))
  | elsewhere s h ih => exact hrefl _

section Operations

variable {C : Change → Prop} {α : Type}

theorem MadeFrom.fail (e : Failure) : MadeFrom C (fail e : SessionM α) := .throw e

theorem MadeFrom.lift (x : Except Failure α) : MadeFrom C (liftM x : SessionM α) := by
  cases x with
  | ok a => exact .pure a
  | error e => exact .throw e

theorem MadeFrom.discard {act : SessionM α} (h : MadeFrom C act) :
    MadeFrom C (Functor.discard act) :=
  -- mapping over a result is binding it first
  .bind h fun _ => .pure _

theorem MadeFrom.forM {l : List α} {f : α → SessionM Unit} (h : ∀ a ∈ l, MadeFrom C (f a)) :
    MadeFrom C (l.forM f) := by
  induction l with
  | nil => exact .pure _
  | cons a rest ih =>
      exact .bind (h a (by simp)) fun _ => ih fun b hb => h b (by simp [hb])

theorem madeFrom_assignIn {name : String} {value : Degree} {scope : String}
    (h : C (.assign name value scope)) : MadeFrom C (Session.assignIn name value scope) :=
  .bind (.change _ h) fun _ => .note _

theorem madeFrom_bindExpr {g : Gate} {e : Expr} (h : C (.bind g e)) :
    MadeFrom C (Session.bindExpr g e) :=
  .bind (.change _ h) fun _ => .note _

theorem madeFrom_evaluateExpr (e : Expr) : MadeFrom C (Session.evaluateExpr e) := by
  refine .bind (.reading _) fun env => .bind (.forM fun p _ => .note _) fun _ => ?_
  cases e.eval env with
  | ok x => exact .pure x
  | error err => exact .fail _

theorem madeFrom_evaluate (expr : Document) : MadeFrom C (Session.evaluate expr) :=
  .bind (.lift _) fun e => madeFrom_evaluateExpr e

theorem madeFrom_evaluateGate (gate : Document) : MadeFrom C (Session.evaluateGate gate) := by
  refine .bind (.lift _) fun scope => .bind (.reading _) fun expr => ?_
  split
  · exact .bind (madeFrom_evaluateExpr _) fun x => .bind (.note _) fun _ => .pure x
  · exact .fail _

theorem madeFrom_testGate (gate target : Document) : MadeFrom C (Session.testGate gate target) := by
  refine .bind (.lift _) fun scope => .bind (.lift _) fun key => .bind (.reading _) fun env => ?_
  dsimp only
  split
  · exact .pure _
  · exact .fail _

theorem MadeFrom.attempt {act : SessionM Degree} (h : MadeFrom C act) :
    MadeFrom C (Session.attempt act) := by
  refine .tryCatch (.bind h fun x => .pure _) fun e => ?_
  cases e.kind? with
  | some kind => exact .pure _
  | none => exact .fail e

theorem madeFrom_assignValue (hC : ∀ c, Change.Named c → C c) (target expr gate : Document) :
    MadeFrom C (Session.assignValue target expr gate) := by
  refine .bind (.lift _) fun name => ?_
  have hrest : ∀ scope : Scope, MadeFrom C (do
      let x ← Session.evaluate expr
      Session.assignIn name.text x scope.name
      return x) := fun scope =>
    .bind (madeFrom_evaluate expr) fun x =>
      .bind (madeFrom_assignIn (hC _ ⟨name.nonempty, scope.name_ne_empty⟩)) fun _ => .pure x
  dsimp only
  split
  · exact .bind (.reading _) fun scope => hrest scope
  · exact .bind (.lift _) fun scope => hrest scope

theorem madeFrom_register (hC : ∀ g e, C (.bind g e)) (gate expr : Document) :
    MadeFrom C (Session.register gate expr) := by
  refine .bind (.lift _) fun scope => .bind (.lift _) fun g => ?_
  split
  · exact madeFrom_bindExpr (hC _ _)
  · exact .fail _

theorem madeFrom_assignExpression (hC : ∀ g e, C (.bind g e)) (gate expr : Document) :
    MadeFrom C (Session.assignExpression gate expr) := by
  refine .bind (.lift _) fun scope => .bind (.reading _) fun here => ?_
  have hrest : MadeFrom C (do
      let e ← (Expr.ofDocument expr : Except Failure Expr)
      let g ← (scope.toGate : Except Failure Gate)
      Session.bindExpr g e) :=
    .bind (.lift _) fun e => .bind (.lift _) fun g => madeFrom_bindExpr (hC g e)
  dsimp only
  split
  · exact .bind (.note _) fun _ => hrest
  · exact hrest

theorem madeFrom_assign (hn : ∀ c, Change.Named c → C c) (hb : ∀ g e, C (.bind g e))
    (target expr : Document) : MadeFrom C (Session.assign target expr) := by
  unfold Session.assign
  split
  · exact .bind (madeFrom_assignExpression hb _ _) fun _ => .pure _
  · exact .bind (madeFrom_assignValue hn _ _ _) fun x => .pure _
  · exact .bind (madeFrom_assignValue hn _ _ _) fun x => .pure _
  · exact .fail _

theorem madeFrom_loadDegrees (hC : ∀ c, Change.Named c → C c) (degrees : OrderedMap String Number)
    (scope : Document) : MadeFrom C (Session.loadDegrees degrees scope) :=
  .forM fun _ _ => .discard (madeFrom_assignValue hC _ _ _)

theorem madeFrom_loadGate (hn : ∀ c, Change.Named c → C c) (hb : ∀ g e, C (.bind g e)) (g : Gate)
    (c : GateConfig) : MadeFrom C (Session.loadGate g c) := by
  refine .withGate g (.bind (madeFrom_loadDegrees hn _ _) fun _ => ?_)
  cases c.expression with
  | some e => exact madeFrom_assignExpression hb _ _
  | none => exact .pure ()

theorem madeFrom_load (hn : ∀ c, Change.Named c → C c) (hb : ∀ g e, C (.bind g e)) (c : Config) :
    MadeFrom C (Session.load c) := by
  have hlogging : MadeFrom C (Session.applyLogging c.logging) := by
    unfold Session.applyLogging
    split
    · exact .configure _ _
    · exact .pure ()
  exact .bind hlogging fun _ => .bind (madeFrom_loadDegrees hn _ _) fun _ =>
    .bind (.forM fun p _ => madeFrom_loadGate hn hb p.1 p.2) fun _ => .note _

/-- Making a session from a configuration is loading it elsewhere, into a fresh session. -/
theorem mk_ofConfig (c : Config) :
    (ExceptT.mk fun ctx =>
      ((Session.ofConfig c ctx.journal).1,
        { ctx with journal := (Session.ofConfig c ctx.journal).2 }) : SessionM Session) =
      elsewhere .fresh (do Session.load c; reading id) := by
  funext ctx
  show ((Session.ofConfig c ctx.journal).1,
    { ctx with journal := (Session.ofConfig c ctx.journal).2 }) = (elsewhere .fresh _).run ctx
  rw [run_elsewhere, run_bind, Session.ofConfig]
  rcases (Session.load c).run ⟨.fresh, ctx.journal⟩ with ⟨_ | _, after⟩ <;> rfl

theorem madeFrom_reloaded : MadeFrom C Session.reloaded := by
  refine .bind (.reading _) fun s => .bind (.lift _) fun before => .bind (.lift _) fun config =>
    .bind ?_ fun copy => .bind (.lift _) fun after => .pure _
  exact mk_ofConfig config ▸ .elsewhere _ (.bind (madeFrom_load (fun _ _ => trivial)
    (fun _ _ => trivial) config) fun _ => .reading _)

end Operations

end SessionM

namespace Program

open Session (Change)
open SessionM

/-- The changes that an action may make.  Only the actions that reach past the session, into its
bindings or its registry, are not held to names that are not empty. -/
def Action.Makes : Action → Change → Prop
  | assignValue _ _ _, c => c.Named
  | assignExpression _ _, c | register _ _, c => c.Binds
  | assign _ _, c | load _, c => c.Named ∨ c.Binds
  | reset, c => c = .reset
  | assignIn name _ scope, c => ∃ x, c = .assign name x scope
  | clearBindings, c => c = .clearBindings
  | clearRegistry, c => c = .clearRegistry
  | _, _ => False

theorem madeFrom_silently {C : Change → Prop} {α : Type} {act : SessionM α} (h : MadeFrom C act) :
    MadeFrom C (silently act) :=
  .bind (.discard h) fun _ => .pure _

/-- **What an action can do**: it is made from the changes that it may make. -/
theorem Action.madeFrom (a : Action) : MadeFrom a.Makes a.perform := by
  cases a with
  | assignValue target expr gate =>
      exact .bind (.lift _) fun _ => .bind (.lift _) fun _ => .bind (.lift _) fun _ =>
        .bind (madeFrom_assignValue (fun _ h => h) _ _ _) fun _ => .pure _
  | assignExpression gate expr =>
      exact .bind (.lift _) fun _ => .bind (.lift _) fun _ =>
        madeFrom_silently (madeFrom_assignExpression (fun _ _ => trivial) _ _)
  | assign target expr =>
      exact .bind (.lift _) fun _ => .bind (.lift _) fun _ =>
        .bind (madeFrom_assign (fun _ h => .inl h) (fun _ _ => .inr trivial) _ _) fun _ => .pure _
  | evaluate expr => exact .bind (.lift _) fun _ => .bind (madeFrom_evaluate _) fun _ => .pure _
  | testGate gate target =>
      exact .bind (.lift _) fun _ => .bind (.lift _) fun _ =>
        .bind (madeFrom_testGate _ _) fun _ => .pure _
  | tryTestGate gate target =>
      exact .bind (.lift _) fun _ => .bind (.lift _) fun _ =>
        .bind (.attempt (madeFrom_testGate _ _)) fun _ => .pure _
  | evaluateGate gate =>
      exact .bind (.lift _) fun _ => .bind (madeFrom_evaluateGate _) fun _ => .pure _
  | tryEvaluateGate gate =>
      exact .bind (.lift _) fun _ => .bind (.attempt (madeFrom_evaluateGate _)) fun _ => .pure _
  | abort message => exact .throw _
  | reset => exact madeFrom_silently (.change .reset rfl)
  | exported => exact .bind (.reading _) fun _ => .bind (.lift _) fun _ => .pure _
  | reload => exact .bind madeFrom_reloaded fun _ => .pure _
  | load data =>
      exact .bind (.lift _) fun _ => .bind (.lift _) fun _ =>
        madeFrom_silently (madeFrom_load (fun _ h => .inl h) (fun _ _ => .inr trivial) _)
  | analyze expr gate =>
      exact .bind (.lift _) fun _ => .bind (.lift _) fun _ => .bind (.reading _) fun _ => .pure _
  | assignIn name value scope =>
      exact .bind (.lift _) fun x => madeFrom_silently (madeFrom_assignIn ⟨x, rfl⟩)
  | testIn gate name =>
      refine .bind (.reading _) fun env => ?_
      split
      · exact .pure _
      · exact .throw _
  | resolve name =>
      refine .bind (.reading _) fun env => ?_
      split
      · exact .pure _
      · exact .throw _
  | resolveScope name => exact .bind (.reading _) fun _ => .pure _
  | hasScope gate => exact .bind (.reading _) fun _ => .pure _
  | showScope gate => exact .bind (.reading _) fun _ => .pure _
  | showBindings => exact .bind (.reading _) fun _ => .pure _
  | describeBindings => exact .bind (.reading _) fun _ => .pure _
  | clearBindings => exact madeFrom_silently (.change .clearBindings rfl)
  | register gate expr =>
      exact .bind (.lift _) fun _ => .bind (.lift _) fun _ =>
        madeFrom_silently (madeFrom_register (fun _ _ => trivial) _ _)
  | registered gate =>
      exact .bind (.lift _) fun _ => .bind (.lift _) fun _ => .bind (.reading _) fun _ => .pure _
  | isRegistered gate =>
      refine .bind (.lift _) fun d => ?_
      dsimp only
      split
      · exact .bind (.pure _) fun _ => .bind (.reading _) fun _ => .pure _
      · exact .bind (.throw _) fun _ => .bind (.reading _) fun _ => .pure _
  | registrySize => exact .bind (.reading _) fun _ => .pure _
  | registryLogic => exact .bind (.reading _) fun _ => .bind (.lift _) fun _ => .pure _
  | clearRegistry => exact madeFrom_silently (.change .clearRegistry rfl)

end Program

end FuzzyGates
