import Mathlib.Data.List.DropRight
import FuzzyGates.Proofs.OrderedMap
import FuzzyGates.Proofs.Program.Succession
import FuzzyGates.Proofs.Session.Evaluation
import FuzzyGates.Proofs.Session.Registry

/-!
# What the registry holds

The registry of a session is settled by what has been bound to gates since it was last emptied.
Blocks do not matter: leaving an anonymous scope brings back bindings of variables only.

* `registry_law` — what a mark makes of the registry.
* `Latest`, `boundSince` — the latest binding of a gate in a history, and all bindings since the
  registry was last emptied.
* **`registry_holds_latest`** — the registry at every moment, in terms of what has happened.
-/

namespace FuzzyGates.Program

open World

/-! ### What the marks of a run make of the registry -/

namespace Mark

/-- The expression that has just been bound to a gate of a session. -/
def binding? (name : String) : Mark → Option (Gate × Expr)
  | .done session (.act a) => if session = name then a.binding? else none
  | _ => none

/-- The registry of a session has just been emptied. -/
def empties (name : String) : Mark → Bool
  | .done session (.act .reset) | .done session (.act .clearRegistry) => session = name
  | _ => false

/-- What a mark makes of the registry of a session. -/
def registryAfter (name : String) (r : Registry) (mark : Mark) : Registry :=
  if mark.empties name then ∅ else afterBinding r (mark.binding? name)

end Mark

theorem Mark.registryAfter_done_act (name session : String) (r : Registry) (a : Action) :
    Mark.registryAfter name r (.done session (.act a)) =
      if session = name then a.registryAfter r else r := by
  unfold Mark.registryAfter
  by_cases h : session = name
  · cases a <;> simp [Mark.empties, Mark.binding?, Action.registryAfter, h]
  · cases a <;> simp [Mark.empties, Mark.binding?, afterBinding, h]

/-- Replacing a context by one with the same registry changes no registry. -/
theorem registry_withContext {w : World} {name : String} {ctx : Context}
    (h : ctx.session.registry = (w.session name).registry) (other : String) :
    ((w.withContext name ctx).session other).registry = (w.session other).registry := by
  rw [session_withContext]
  split
  · next heq => rw [h, heq]
  · rfl

/-- **What a mark makes of the registry of a session.**  Blocks leave it alone. -/
theorem registry_law (name : String) : Law fun v mark w =>
    (w.session name).registry = mark.registryAfter name (v.session name).registry where
  state hv hw h := by
    rw [← hv.1 name, ← hw.1 name]
    exact h
  task w session task hload := by
    cases task with
    | act a =>
        have hperform := registry_perform (fun data h => hload data (congrArg Task.act h))
          (w.context session)
        rw [run_perform_act, run_onSession, session_withContext, Mark.registryAfter_done_act]
        split
        · next h => rw [hperform, ← h]; rfl
        · rfl
    | snapshot slot => rfl
    | showSnapshot slot =>
        rw [run_perform_showSnapshot]
        cases w.snapshots.get? slot <;> rfl
    | restore slot =>
        rw [run_perform_restore]
        cases w.snapshots.get? slot with
        | none => rfl
        | some env => exact registry_withContext rfl name
  loaded w session data := by
    rw [Mark.registryAfter_done_act]
    split <;> rfl
  enter w session entry := by
    refine registry_withContext ?_ name
    cases entry <;> rfl
  leave v w session entry := by
    refine registry_withContext ?_ name
    cases entry <;> rfl
  refused w session e := rfl

/-- The registry of a session after what has happened in a run. -/
def registryOf (name : String) (history : List Mark) : Registry :=
  history.foldl (Mark.registryAfter name) ∅

theorem registry_lastWorld {level : Int} {program : List Step} {before later : List Moment}
    (hrun : moments program (.start level) = before ++ later) (name : String) :
    ((lastWorld (.start level) before).session name).registry =
      registryOf name (marks before) :=
  (registry_law name).lastWorld_eq hrun

theorem registryOf_concat (name : String) (history : List Mark) (mark : Mark) :
    registryOf name (history ++ [mark]) = mark.registryAfter name (registryOf name history) :=
  List.foldl_concat _ _ _ _

/-! ### Latest bindings -/

/-- The latest binding of a gate is one that has not been followed by another or by the registry
being emptied. -/
def Latest (name : String) (history : List Mark) (g : Gate) (e : Expr) : Prop :=
  ∃ earlier mark later, history = earlier ++ mark :: later ∧ mark.binding? name = some (g, e) ∧
    ∀ m ∈ later, m.empties name = false ∧ ∀ e', m.binding? name ≠ some (g, e')

/-- What has been bound to gates since the registry was last emptied. -/
def boundSince (name : String) (history : List Mark) : List (Gate × Expr) :=
  (history.rtakeWhile fun m => !m.empties name).filterMap (Mark.binding? name)

theorem Mark.binding?_of_empties {name : String} {mark : Mark} (h : mark.empties name = true) :
    mark.binding? name = none := by
  unfold Mark.empties at h
  split at h
  · simp [Mark.binding?, Action.binding?]
  · simp [Mark.binding?, Action.binding?]
  · cases h

/-- The last thing that has happened is the latest binding, or leaves it as it was. -/
theorem latest_concat {name : String} {history : List Mark} {mark : Mark} {g : Gate} {e : Expr} :
    Latest name (history ++ [mark]) g e ↔ mark.binding? name = some (g, e) ∨
      (mark.empties name = false ∧ ∀ e', mark.binding? name ≠ some (g, e')) ∧
        Latest name history g e := by
  constructor
  · rintro ⟨earlier, m, later, hsplit, hm, hlater⟩
    rcases later.eq_nil_or_concat with rfl | ⟨rest, last, rfl⟩
    · obtain ⟨-, hlast⟩ := List.append_inj' hsplit rfl
      cases hlast
      exact .inl hm
    · rw [List.concat_eq_append, ← List.cons_append, ← List.append_assoc] at hsplit
      obtain ⟨hhistory, hlast⟩ := List.append_inj' hsplit rfl
      cases hlast
      refine .inr ⟨hlater mark (by simp), earlier, m, rest, hhistory, hm, fun x hx => ?_⟩
      exact hlater x (by simp [hx])
  · rintro (hmark | ⟨hkeeps, earlier, m, later, rfl, hm, hlater⟩)
    · exact ⟨history, mark, [], rfl, hmark, fun m hm => absurd hm List.not_mem_nil⟩
    · refine ⟨earlier, m, later ++ [mark], by simp, hm, fun x hx => ?_⟩
      rcases List.mem_append.mp hx with hx | hx
      · exact hlater x hx
      · rw [List.mem_singleton.mp hx]
        exact hkeeps

/-- **The registry holds the latest bindings.** -/
theorem get?_registryOf_eq_some_iff {name : String} {history : List Mark} {g : Gate} {e : Expr} :
    (registryOf name history).get? g = some e ↔ Latest name history g e := by
  -- on the history from its end, where the last mark overrides what came before
  induction history using List.reverseRecOn with
  | nil =>
      constructor
      · intro h
        cases h
      · rintro ⟨earlier, m, later, hnil, -⟩
        simp at hnil
  | append_singleton history mark ih =>
      rw [registryOf_concat, latest_concat, ← ih]
      unfold Mark.registryAfter
      cases hempties : mark.empties name with
      | true => simp [Mark.binding?_of_empties hempties]
      | false =>
          cases hbinding : mark.binding? name with
          | none => simp [afterBinding]
          | some p =>
              obtain ⟨g', e'⟩ := p
              by_cases hg : g' = g <;> simp [afterBinding, OrderedMap.get?_insert, hg]

theorem boundSince_concat (name : String) (history : List Mark) (mark : Mark) :
    boundSince name (history ++ [mark]) = if mark.empties name then []
      else boundSince name history ++ (mark.binding? name).toList := by
  unfold boundSince
  cases hempties : mark.empties name with
  | true =>
      rw [List.rtakeWhile_concat_neg _ _ _ (by simp [hempties])]
      rfl
  | false =>
      rw [List.rtakeWhile_concat_pos _ _ _ (by simp [hempties]), List.filterMap_append]
      cases h : mark.binding? name <;> simp [h]

/-- The registry lists gates in the order of their first binding since it was last emptied. -/
theorem keys_registryOf (name : String) (history : List Mark) :
    (registryOf name history).keys = ((boundSince name history).map Prod.fst).eraseDups := by
  induction history using List.reverseRecOn with
  | nil => rfl
  | append_singleton history mark ih =>
      rw [registryOf_concat, boundSince_concat]
      unfold Mark.registryAfter
      cases hempties : mark.empties name with
      | true => rfl
      | false =>
          cases hbinding : mark.binding? name with
          | none => simpa [afterBinding] using ih
          | some p =>
              obtain ⟨g, e⟩ := p
              simp only [Bool.false_eq_true, ↓reduceIte, afterBinding, OrderedMap.keys_insert, ih,
                List.mem_eraseDups, Option.toList_some, List.map_append, List.map_cons,
                List.map_nil, eraseDups_concat]

/-! ### Evaluating gates -/

theorem answer_ne_noExpression (env : Environment) (e : Expr) (gate : String) :
    Session.answer env e ≠ .error (.noExpression gate) := by
  unfold Session.answer
  cases e.eval env with
  | ok x => exact fun h => by cases h
  | error fault => cases fault <;> exact fun h => by cases h

/-- Evaluating a gate evaluates what the registry holds for it, or reports that this is nothing. -/
theorem fst_run_evaluateGate_of_gate {d : Document} {g : Gate}
    (h : Scope.ofDocument d = .ok (.gate g)) (ctx : Context) :
    ((Session.evaluateGate d).run ctx).1 = match ctx.session.registry.get? g with
      | some e => Session.answer ctx.session.env e
      | none => .error (.noExpression g.name) := by
  rw [Session.fst_run_evaluateGate, h]
  rfl

/-- **The registry holds the latest bindings**, at every point of every run.  A gate has an
expression exactly if one has been bound to it since the registry was last emptied, and then the
one that was bound last; what blocks and rollbacks there were in between does not matter.  Gates
are listed in the order of their first binding since then.  Evaluating a gate gives what its
expression gives in the bindings that there are now, and the report that there is no expression
exactly if there is none.  An action that is there to bind has a result exactly if its arguments
name something to bind. -/
theorem registry_holds_latest {level : Int} {program : List Step} {before later : List Moment}
    (hrun : moments program (.start level) = before ++ later) (name : String) :
    let history := marks before
    let s := (lastWorld (.start level) before).session name
    (∀ g e, s.registry.get? g = some e ↔ Latest name history g e) ∧
    s.registry.keys = ((boundSince name history).map Prod.fst).eraseDups ∧
    (∀ g journal, ∀ d ∈ [Document.ofText g.name, .atom (.gate g)],
      let result := ((Session.evaluateGate d).run ⟨s, journal⟩).1
      (∀ e, Latest name history g e → result = Session.answer s.env e) ∧
        (result = .error (.noExpression g.name) ↔ ¬∃ e, Latest name history g e)) ∧
    (∀ journal, ((Session.evaluateGate (.ofText globalScope)).run ⟨s, journal⟩).1 =
      .error (.noExpression globalScope)) ∧
    (∀ a : Action, a.Binding → ∀ ctx,
      (∃ reply, (a.perform.run ctx).1 = .ok reply) ↔ a.binding?.isSome) := by
  intro history s
  have hregistry : s.registry = registryOf name history := registry_lastWorld hrun name
  have hlatest : ∀ g e, s.registry.get? g = some e ↔ Latest name history g e := by
    intro g e
    rw [hregistry]
    exact get?_registryOf_eq_some_iff
  refine ⟨hlatest, hregistry ▸ keys_registryOf name history, ?_, ?_, ?_⟩
  · intro g journal d hd
    have hscope : Scope.ofDocument d = .ok (.gate g) := by
      rcases List.mem_pair.mp hd with rfl | rfl
      · exact Session.scope_ofDocument_ofText g
      · rfl
    have hresult := fst_run_evaluateGate_of_gate hscope ⟨s, journal⟩
    intro result
    cases hget : s.registry.get? g with
    | none =>
        have hnone : ¬∃ e, Latest name history g e := by
          rintro ⟨e, he⟩
          rw [(hlatest g e).mpr he] at hget
          cases hget
        dsimp only at hresult
        rw [hget] at hresult
        exact ⟨fun e he => absurd ⟨e, he⟩ hnone, fun _ => hnone, fun _ => hresult⟩
    | some e =>
        dsimp only at hresult
        rw [hget] at hresult
        refine ⟨fun e' he' => ?_, fun h => ?_, fun h => absurd ⟨e, (hlatest g e).mp hget⟩ h⟩
        · rw [(hlatest g e').mpr he'] at hget
          cases hget
          exact hresult
        · exact absurd (hresult.symm.trans h) (answer_ne_noExpression _ _ _)
  · intro journal
    rw [Session.fst_run_evaluateGate]
    rfl
  · intro a ha ctx
    exact ha.bindsOrFails.isOk_iff ctx

/-- A gate is bound again and another one for the first time inside an anonymous scope, which takes
back a variable but neither of these. -/
theorem registry_holds_latest_after_rollback :
    let x : Expr := .var ⟨"x", by decide⟩
    let y : Expr := .var ⟨"y", by decide⟩
    let bind (gate : String) (e : Expr) : Step :=
      .task "s" false (.act (.assignExpression (.ok (.ofText gate)) (.ok (.ofExpr e))))
    let assign : Step := .task "s" false (.act (.assignValue (.ok (.ofText "x"))
      (.ok (.atom (.float 0.5))) (.ok (.atom .null))))
    let program : List Step :=
      [bind "g" x, .block "s" false .anonymous [assign, bind "h" x, bind "g" y, bind "" x]]
    let ms := moments program (.start 0)
    let s := (lastWorld (.start 0) ms).session "s"
    s.env = ∅ ∧ s.registry.keys.map Gate.name = ["g", "h"] ∧
      Latest "s" (marks ms) ⟨"g", by decide, by decide⟩ y := by
  intro x y bind assign program ms s
  have hlatest := (registry_holds_latest (List.append_nil ms).symm "s").1
  exact ⟨by decide +kernel, by decide +kernel, (hlatest _ _).mp (by decide +kernel)⟩

end FuzzyGates.Program
