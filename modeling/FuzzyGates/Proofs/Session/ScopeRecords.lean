import FuzzyGates.Proofs.Session.Records

/-!
# Records of scopes

The records of entering and of leaving blocks all come from one part of the library.  Only the
operations that open blocks write any: loading a configuration, and copying a session, which loads
its export.  Every other operation leaves these records alone, and the logger too.

* `Event.ofScope`, `scopeRecords` — the records of scopes among others.
* `Journal.Grows` — a journal goes on with some records of scopes, under the same logger.
* `Session.Quiet` — an operation leaves the logger and the records of scopes alone; kept by
  sequencing, by iteration and by handling failures.
* `journal_reloaded` — copying a session writes what loading its export writes.
* **`Action.quiet`** — every action is quiet that neither loads nor copies.
-/

namespace FuzzyGates

variable {α β : Type}

namespace Log

/-- Whether an event is one of entering or leaving a block. -/
def Event.ofScope (e : Event) : Bool := e.part = "scope"

/-- The records of scopes among some records. -/
def scopeRecords (records : List Event) : List Event := records.filter Event.ofScope

namespace Journal

/-- One journal goes on as the other with some records of scopes, under the same logger. -/
structure Grows (before : Journal) (added : List Event) (after : Journal) : Prop where
  logger : after.logger = before.logger
  records : scopeRecords after.records = scopeRecords before.records ++ added

variable {j k l : Journal} {added more : List Event}

theorem Grows.refl (j : Journal) : Grows j [] j := ⟨rfl, (List.append_nil _).symm⟩

theorem Grows.trans (h : Grows j added k) (h' : Grows k more l) : Grows j (added ++ more) l where
  logger := h'.logger.trans h.logger
  records := by rw [h'.records, h.records, List.append_assoc]

/-- What comes first in the journal does not matter. -/
theorem Grows.prepend (h : Grows j added k) (earlier : List Event) :
    Grows (j.prepend earlier) added (k.prepend earlier) where
  logger := h.logger
  records := by
    show scopeRecords (earlier ++ k.records) = scopeRecords (earlier ++ j.records) ++ added
    unfold scopeRecords
    rw [List.filter_append, List.filter_append, List.append_assoc]
    exact congrArg _ h.records

theorem Grows.note {e : Event} (h : e.ofScope = false) (j : Journal) : Grows j [] (j.note e) := by
  unfold Journal.note
  split
  · refine ⟨rfl, ?_⟩
    unfold scopeRecords
    simp [h]
  · exact .refl j

/-- A record of a scope is added if the logger lets it through. -/
theorem Grows.note_scope {e : Event} (h : e.ofScope = true)
    (hpasses : j.logger.passes e.level.severity = true) : Grows j [e] (j.note e) := by
  unfold Journal.note
  rw [if_pos hpasses]
  refine ⟨rfl, ?_⟩
  unfold scopeRecords
  simp [h]

end Journal

end Log

namespace Session

open SessionM

/-- An operation leaves the logger and the records of scopes alone. -/
def Quiet (act : SessionM α) : Prop :=
  Relates (fun before after => before.journal.Grows [] after.journal) act

namespace Quiet

theorem pure (a : α) : Quiet (pure a) := fun ctx => .refl ctx.journal

theorem fail (e : Failure) : Quiet (fail e : SessionM α) := fun ctx => .refl ctx.journal

theorem lift (x : Except Failure α) : Quiet (liftM x) := fun ctx => .refl ctx.journal

theorem reading (f : Session → α) : Quiet (reading f) := fun ctx => .refl ctx.journal

theorem changing (f : Session → Session) : Quiet (changing f) := fun ctx => .refl ctx.journal

theorem note {e : Log.Event} (h : e.ofScope = false) : Quiet (note e) :=
  fun ctx => .note h ctx.journal

theorem bind {x : SessionM α} {f : α → SessionM β} (hx : Quiet x) (hf : ∀ a, Quiet (f a)) :
    Quiet (x >>= f) := Relates.bind (fun _ _ _ => .trans) hx hf

theorem tryCatch {x : SessionM α} {h : Failure → SessionM α} (hx : Quiet x)
    (hh : ∀ e, Quiet (h e)) : Quiet (tryCatch x h) := Relates.tryCatch (fun _ _ _ => .trans) hx hh

theorem forM {l : List α} {f : α → SessionM Unit} (h : ∀ a, Quiet (f a)) : Quiet (l.forM f) :=
  Relates.forM (fun ctx => .refl ctx.journal) (fun _ _ _ => .trans) h

theorem discard {act : SessionM α} (h : Quiet act) : Quiet (Functor.discard act) :=
  -- mapping over a result is binding it first
  h.bind fun _ => pure _

end Quiet

/-! ### Evaluations and assignments -/

theorem quiet_evaluateExpr (e : Expr) : Quiet (evaluateExpr e) := by
  refine (Quiet.reading _).bind fun env => (Quiet.forM fun p => .note rfl).bind fun _ => ?_
  cases e.eval env with
  | ok x => exact .pure x
  | error err => exact .fail _

theorem quiet_evaluate (d : Document) : Quiet (evaluate d) :=
  (Quiet.lift _).bind quiet_evaluateExpr

theorem quiet_evaluateGate (gate : Document) : Quiet (evaluateGate gate) := by
  refine (Quiet.lift _).bind fun scope => (Quiet.reading _).bind fun expr => ?_
  split
  · exact (quiet_evaluateExpr _).bind fun x => (Quiet.note rfl).bind fun _ => .pure x
  · exact .fail _

theorem quiet_testGate (gate target : Document) : Quiet (testGate gate target) := by
  refine (Quiet.lift _).bind fun scope => (Quiet.lift _).bind fun key =>
    (Quiet.reading _).bind fun env => ?_
  dsimp only
  split
  · exact .pure _
  · exact .fail _

theorem Quiet.attempt {act : SessionM Degree} (h : Quiet act) : Quiet (attempt act) := by
  refine .tryCatch (h.bind fun x => .pure _) fun e => ?_
  cases e.kind? with
  | some kind => exact .pure _
  | none => exact .fail e

theorem quiet_assignIn (name : String) (value : Degree) (scope : String) :
    Quiet (assignIn name value scope) :=
  (Quiet.changing _).bind fun _ => .note rfl

theorem quiet_bindExpr (g : Gate) (e : Expr) : Quiet (bindExpr g e) :=
  (Quiet.changing _).bind fun _ => .note rfl

theorem quiet_assignValue (target expr gate : Document) :
    Quiet (assignValue target expr gate) := by
  refine (Quiet.lift _).bind fun name => ?_
  have hrest (scope : Scope) : Quiet (do
      let x ← evaluate expr
      assignIn name.text x scope.name
      return x) :=
    (quiet_evaluate expr).bind fun x => (quiet_assignIn _ x _).bind fun _ => .pure x
  dsimp only
  split
  · exact (Quiet.reading _).bind hrest
  · exact (Quiet.lift _).bind hrest

theorem quiet_register (gate expr : Document) : Quiet (register gate expr) := by
  refine (Quiet.lift _).bind fun scope => (Quiet.lift _).bind fun g => ?_
  split
  · exact quiet_bindExpr _ _
  · exact .fail _

theorem quiet_assignExpression (gate expr : Document) : Quiet (assignExpression gate expr) := by
  refine (Quiet.lift _).bind fun scope => (Quiet.reading _).bind fun here => ?_
  have hrest : Quiet (do
      let e ← (Expr.ofDocument expr : Except Failure Expr)
      let g ← (scope.toGate : Except Failure Gate)
      bindExpr g e) :=
    (Quiet.lift _).bind fun e => (Quiet.lift _).bind fun g => quiet_bindExpr g e
  dsimp only
  split
  · exact (Quiet.note rfl).bind fun _ => hrest
  · exact hrest

theorem quiet_assign (target expr : Document) : Quiet (assign target expr) := by
  unfold assign
  split
  · exact (quiet_assignExpression _ _).bind fun _ => .pure _
  · exact (quiet_assignValue _ _ _).bind fun x => .pure _
  · exact (quiet_assignValue _ _ _).bind fun x => .pure _
  · exact .fail _

/-! ### Copies -/

/-- Copying a session writes nothing but what loading its export writes. -/
theorem journal_reloaded (ctx : Context) :
    (reloaded.run ctx).2.journal = ctx.journal ∨
      ∃ (e : Export) (c : Config), Config.ofDocument e.toDocument = .ok c ∧
        (reloaded.run ctx).2.journal = ((load c).run ⟨.fresh, ctx.journal⟩).2.journal := by
  unfold reloaded
  rw [run_bind, run_reading]
  dsimp only
  rw [run_bind, run_lift]
  cases (id ctx.session).exported.mapError Failure.format with
  | error f => exact .inl rfl
  | ok e =>
      dsimp only
      rw [run_bind, run_lift]
      cases hconfig : Config.ofDocument e.toDocument with
      | error f => exact .inl rfl
      | ok c =>
          refine .inr ⟨e, c, hconfig, ?_⟩
          dsimp only
          rw [mk_ofConfig, run_bind, run_elsewhere, run_bind]
          -- exporting the copy writes nothing
          rcases (load c).run ⟨.fresh, ctx.journal⟩ with ⟨_ | _, after⟩
          · rfl
          · dsimp only
            rw [run_reading]
            dsimp only
            rw [run_bind, run_lift]
            cases (id after.session).exported.mapError Failure.format <;> rfl

end Session

namespace Program

open Session

theorem quiet_silently {act : SessionM α} (h : Quiet act) : Quiet (silently act) :=
  h.discard.bind fun _ => .pure _

/-- **Every action is quiet that neither loads nor copies.** -/
theorem Action.quiet {a : Action} (hload : ∀ data, a ≠ .load data) (hreload : a ≠ .reload) :
    Quiet a.perform := by
  cases a with
  | load data => exact absurd rfl (hload data)
  | reload => exact absurd rfl hreload
  | assignValue target expr gate =>
      exact (Quiet.lift _).bind fun _ => (Quiet.lift _).bind fun _ => (Quiet.lift _).bind fun _ =>
        (quiet_assignValue _ _ _).bind fun _ => .pure _
  | assignExpression gate expr =>
      exact (Quiet.lift _).bind fun _ => (Quiet.lift _).bind fun _ =>
        quiet_silently (quiet_assignExpression _ _)
  | assign target expr =>
      exact (Quiet.lift _).bind fun _ => (Quiet.lift _).bind fun _ =>
        (quiet_assign _ _).bind fun _ => .pure _
  | evaluate expr =>
      exact (Quiet.lift _).bind fun _ => (quiet_evaluate _).bind fun _ => .pure _
  | testGate gate target =>
      exact (Quiet.lift _).bind fun _ => (Quiet.lift _).bind fun _ =>
        (quiet_testGate _ _).bind fun _ => .pure _
  | tryTestGate gate target =>
      exact (Quiet.lift _).bind fun _ => (Quiet.lift _).bind fun _ =>
        (quiet_testGate _ _).attempt.bind fun _ => .pure _
  | evaluateGate gate =>
      exact (Quiet.lift _).bind fun _ => (quiet_evaluateGate _).bind fun _ => .pure _
  | tryEvaluateGate gate =>
      exact (Quiet.lift _).bind fun _ => (quiet_evaluateGate _).attempt.bind fun _ => .pure _
  | abort message => exact .fail _
  | reset => exact quiet_silently (.changing _)
  | clearBindings => exact quiet_silently (.changing _)
  | clearRegistry => exact quiet_silently (.changing _)
  | assignIn name value scope =>
      exact (Quiet.lift _).bind fun _ => quiet_silently (quiet_assignIn _ _ _)
  | register gate expr =>
      exact (Quiet.lift _).bind fun _ => (Quiet.lift _).bind fun _ =>
        quiet_silently (quiet_register _ _)
  | testIn gate name | resolve name =>
      refine (Quiet.reading _).bind fun env => ?_
      split
      · exact .pure _
      · exact .fail _
  | exported | registryLogic =>
      exact (Quiet.reading _).bind fun _ => (Quiet.lift _).bind fun _ => .pure _
  | analyze expr gate | registered gate =>
      exact (Quiet.lift _).bind fun _ => (Quiet.lift _).bind fun _ =>
        (Quiet.reading _).bind fun _ => .pure _
  | isRegistered gate =>
      refine (Quiet.lift _).bind fun d => ?_
      dsimp only
      split
      · exact (Quiet.pure _).bind fun _ => (Quiet.reading _).bind fun _ => .pure _
      · exact (Quiet.fail _).bind fun _ => (Quiet.reading _).bind fun _ => .pure _
  | resolveScope _ | hasScope _ | showScope _ | showBindings | describeBindings | registrySize =>
      exact (Quiet.reading _).bind fun _ => .pure _

end Program

end FuzzyGates
