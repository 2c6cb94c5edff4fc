import FuzzyGates.Proofs.Program.Moments
import FuzzyGates.Proofs.Session.Loading
import FuzzyGates.Proofs.Session.UnitInterval

/-!
# Degrees stay in the unit interval

Only one operator cuts its result off, and none looks at its arguments.  Still no degree
leaves the interval between zero and one in a program whose literals lie there: the literals
that it assigns, binds or loads.  Those of an expression that is evaluated and not kept are
an exception, and decide about that one answer only.

* `Action.literals`, `Task.UnitLiterals` — the literals that are assigned, bound or loaded.
* `Action.ensures` — what an action keeps and what it answers.
* `unitLiterals_loadSteps` — the steps inside a load have the literals of the configuration.
* `inUnit_invariant` — every kind of mark keeps all sessions and all snapshots in the interval.
* **`degrees_stay_in_unit`** — every degree that is held at any moment of a run, and every
  degree that is answered there, lies between zero and one.
-/

namespace FuzzyGates

/-- The degrees of a configuration and the literals of its expressions. -/
def Config.literals (c : Config) : List Degree :=
  (c.globals.entries.filterMap fun p => p.2.degree?) ++
    c.gates.entries.flatMap fun p =>
      (p.2.degrees.entries.filterMap fun q => q.2.degree?) ++
        p.2.expression.toList.flatMap Expr.literals

namespace Program

open World
open SessionM (Ensures)

/-- The literals that an action assigns, binds or loads. -/
def Action.literals : Action → List Degree
  | assignValue _ (.ok expr) _ | assignExpression _ (.ok expr) | assign _ (.ok expr) =>
      Expr.literalsOf expr
  | register _ (.ok (.atom (.expr e))) => e.literals
  | assignIn _ (.ok x) _ => [x]
  | load (.ok data) =>
      match Config.ofDocument data with
      | .ok c => c.literals
      | .error _ => []
  | _ => []

/-- The literals that an action evaluates and does not keep. -/
def Action.passingLiterals : Action → List Degree
  | evaluate (.ok expr) => Expr.literalsOf expr
  | _ => []

/-- The degree that a reply gives. -/
def Reply.value? : Reply → Option Degree
  | degree x => some x
  | degree? x => x
  | attempt a => a.degree?
  | _ => none

/-- The literals that a task assigns, binds or loads lie between zero and one. -/
def Task.UnitLiterals : Task → Prop
  | act a => ∀ x ∈ a.literals, x.InUnit
  | _ => True

instance : (task : Task) → Decidable task.UnitLiterals
  | .act a => inferInstanceAs (Decidable (∀ x ∈ a.literals, x.InUnit))
  | .snapshot _ | .showSnapshot _ | .restore _ => .isTrue trivial

/-! ### What an action keeps and answers -/

/-- A reply gives a degree between zero and one, if any. -/
def Reply.InUnit (r : Reply) : Prop := ∀ x ∈ r.value?, x.InUnit

theorem Reply.inUnit_of_value? {r : Reply} (h : r.value? = none) : r.InUnit := by
  intro x hx
  rw [h] at hx
  cases hx

theorem ensures_silently {α : Type} {I : Session → Prop} {act : SessionM α}
    (h : Ensures I act fun _ => True) : Ensures I (silently act) Reply.InUnit := by
  have hdiscard : Ensures I (Functor.discard act) fun _ => True :=
    -- mapping over a result is binding it first
    Ensures.bind h fun _ _ => .pure trivial
  exact hdiscard.bind fun _ _ => .pure (Reply.inUnit_of_value? rfl)

theorem ensures_degree {act : SessionM Degree} (h : Ensures Session.InUnit act Degree.InUnit) :
    Ensures Session.InUnit (do return .degree (← act)) Reply.InUnit :=
  h.bind fun x hx => .pure fun y hy => by
    cases hy
    exact hx

theorem ensures_attempted {act : SessionM Degree} (h : Ensures Session.InUnit act Degree.InUnit) :
    Ensures Session.InUnit (do return .attempt (← Session.attempt act)) Reply.InUnit :=
  (Session.ensures_attempt h).bind fun _ ha => .pure ha

/-- A failure or a degree that was found. -/
theorem ensures_found {x : Option Degree} (h : ∀ y ∈ x, y.InUnit) (e : Failure) :
    Ensures Session.InUnit (match x with
      | some y => pure (Reply.degree y)
      | none => throw e) Reply.InUnit := by
  cases x with
  | some y => exact .pure fun z hz => by cases hz; exact h y rfl
  | none => exact .fail e

/-- An answer without a degree. -/
theorem ensures_other {I : Session → Prop} {r : Reply} (h : r.value? = none) :
    Ensures I (pure r) Reply.InUnit :=
  .pure (Reply.inUnit_of_value? h)

/-- Making a copy leaves the session itself alone. -/
theorem ensures_reloaded : Ensures Session.InUnit Session.reloaded fun _ => True := by
  intro ctx hctx
  have hmade : SessionM.MadeFrom (fun _ => False) Session.reloaded := SessionM.madeFrom_reloaded
  have hmoves : SessionM.Moves (fun s t => s.InUnit → t.InUnit) Session.reloaded := by
    refine hmade.moves (fun _ hs => hs) (fun _ _ _ hst htu hs => htu (hst hs)) ?_ ?_
    · exact fun _ hc => hc.elim
    · exact fun _ _ _ hst hs => (hst (hs.withStack _)).withStack _
  exact ⟨hmoves ctx hctx, fun _ _ => trivial⟩

/-- **What an action with literals between zero and one keeps and answers.** -/
theorem Action.ensures {a : Action} (ha : ∀ x ∈ a.literals, x.InUnit)
    (hload : ∀ data, a ≠ .load data) : Ensures Session.InUnit a.perform fun r =>
      (∀ x ∈ a.passingLiterals, x.InUnit) → r.InUnit := by
  -- only an evaluation answers with more than the session holds
  have halways : ∀ {act : SessionM Reply} {l : List Degree},
      Ensures Session.InUnit act Reply.InUnit →
        Ensures Session.InUnit act fun r => (∀ x ∈ l, x.InUnit) → r.InUnit :=
    fun h => h.mono fun _ hr _ => hr
  cases a with
  | evaluate expr =>
      refine .after_lift fun d hd => (Session.ensures_evaluate d).bind fun x hx => .pure ?_
      subst hd
      intro hpassing y hy
      cases hy
      exact hx hpassing
  | assignValue target expr gate =>
      refine halways (.after_lift fun t _ => .after_lift fun d hd => .after_lift fun g _ => ?_)
      subst hd
      exact ensures_degree (Session.ensures_assignValue ha t g)
  | assignExpression gate expr =>
      refine halways (.after_lift fun g _ => .after_lift fun d hd => ?_)
      subst hd
      exact ensures_silently (Session.ensures_assignExpression ha g)
  | assign target expr =>
      refine halways (.after_lift fun t _ => .after_lift fun d hd => ?_)
      subst hd
      exact (Session.ensures_assign ha t).bind fun _ hx => .pure hx
  | register gate expr =>
      refine halways (.after_lift fun g _ => .after_lift fun d hd => ?_)
      subst hd
      refine ensures_silently (Session.ensures_register (fun e he => ?_) g)
      subst he
      exact ha
  | assignIn name value scope =>
      refine halways (.after_lift fun x hx => ?_)
      subst hx
      exact ensures_silently (Session.ensures_assignIn (ha x List.mem_cons_self) name scope)
  | testGate gate target =>
      exact halways (.after_lift fun g _ => .after_lift fun t _ =>
        ensures_degree (Session.ensures_testGate g t))
  | tryTestGate gate target =>
      exact halways (.after_lift fun g _ => .after_lift fun t _ =>
        ensures_attempted (Session.ensures_testGate g t))
  | evaluateGate gate =>
      exact halways (.after_lift fun g _ => ensures_degree (Session.ensures_evaluateGate g))
  | tryEvaluateGate gate =>
      exact halways (.after_lift fun g _ => ensures_attempted (Session.ensures_evaluateGate g))
  | testIn gate name =>
      exact halways (.after_reading fun s hs => ensures_found (fun _ hx => hs.env.testGate? hx) _)
  | resolve name =>
      exact halways (.after_reading fun s hs => ensures_found (fun _ hx => hs.env.resolve? hx) _)
  | load data => exact absurd rfl (hload data)
  | abort message => exact .fail _
  | reset => exact halways (ensures_silently (.changing fun _ _ => Session.inUnit_fresh))
  | clearBindings =>
      exact halways (ensures_silently (.changing fun _ hs => hs.withEnv Environment.inUnit_empty))
  | clearRegistry => exact halways (ensures_silently (.changing fun _ hs => hs.clearRegistry))
  | exported => exact halways (.after_reading fun _ _ => .after_lift fun _ _ => ensures_other rfl)
  | reload => exact halways (ensures_reloaded.bind fun _ _ => ensures_other rfl)
  | analyze expr gate =>
      exact halways (.after_lift fun _ _ => .after_lift fun _ _ => .after_reading fun _ _ =>
        ensures_other rfl)
  | registered gate =>
      exact halways (.after_lift fun _ _ => .after_lift fun _ _ => .after_reading fun _ _ =>
        ensures_other rfl)
  | isRegistered gate =>
      refine halways (.after_lift fun d _ => ?_)
      dsimp only
      split <;> exact .after_lift fun _ _ => .after_reading fun _ _ => ensures_other rfl
  | registryLogic =>
      exact halways (.after_reading fun _ _ => .after_lift fun _ _ => ensures_other rfl)
  | resolveScope _ | hasScope _ | showScope _ | showBindings | describeBindings | registrySize =>
      exact halways (.after_reading fun _ _ => ensures_other rfl)

/-- Loading answers no degree. -/
theorem value?_load {data : Argument} {ctx : Context} {r : Reply}
    (h : ((Action.load data).perform.run ctx).1 = .ok r) : r.value? = none := by
  cases data with
  | error e => cases h
  | ok d =>
      rw [run_perform_load] at h
      split at h
      · rw [run_silently] at h
        split at h
        · cases h
          rfl
        · cases h
      · cases h

/-! ### The steps inside a load -/

/-- A number that is assigned stands for the degree that it has, if it has one. -/
theorem literalsOf_toAtom (value : Number) :
    Expr.literalsOf (.atom value.toAtom) = value.degree?.toList := by
  unfold Expr.literalsOf
  rw [Expr.ofDocument_toAtom]
  cases value.degree? <;> rfl

theorem unitLiterals_degreeSteps (name : String) {degrees : OrderedMap String Number}
    {scope : Document} (h : ∀ x ∈ degrees.entries.filterMap fun p => p.2.degree?, x.InUnit) :
    onlyAll Task.UnitLiterals (degreeSteps name degrees scope) := by
  refine onlyAll_degreeSteps name fun p hp x hx => h x ?_
  have hdegree : p.2.degree? = some x := by
    have hx : x ∈ Expr.literalsOf (.atom p.2.toAtom) := hx
    rw [literalsOf_toAtom] at hx
    exact Option.mem_toList.mp hx
  exact List.mem_filterMap.mpr ⟨p, hp, hdegree⟩

/-- The steps of a configuration assign and bind the literals of the configuration. -/
theorem unitLiterals_loadSteps (name : String) {c : Config} (h : ∀ x ∈ c.literals, x.InUnit) :
    onlyAll Task.UnitLiterals (loadSteps name c) := by
  unfold Config.literals at h
  simp only [List.mem_append, or_imp, forall_and, List.mem_flatMap] at h
  obtain ⟨hglobals, hgates⟩ := h
  refine onlyAll_loadSteps name (unitLiterals_degreeSteps name hglobals) fun p hp => ?_
  refine onlyAll_gateSteps name (unitLiterals_degreeSteps name fun x hx => ?_) fun e he x hx => ?_
  · exact hgates x ⟨p, hp, .inl hx⟩
  · exact hgates x ⟨p, hp, .inr ⟨e, Option.mem_toList.mpr he, hx⟩⟩

theorem Task.UnitLiterals.inner {task : Task} (h : task.UnitLiterals) (name : String) (w : World) :
    onlyAll Task.UnitLiterals (task.inner name w).1 := by
  refine onlyAll_inner name fun d c hload hc => unitLiterals_loadSteps name ?_
  subst hload
  have hliterals : (Action.load (.ok d)).literals = c.literals := by
    simp only [Action.literals, hc]
  rw [← hliterals]
  exact h

/-! ### Runs -/

/-- All sessions and all snapshots are over the unit interval. -/
structure World.InUnit (w : World) : Prop where
  session : ∀ name, (w.session name).InUnit
  snapshot : ∀ slot env, w.snapshots.get? slot = some env → env.InUnit

theorem World.inUnit_start (level : Int) : (World.start level).InUnit where
  session _ := Session.inUnit_fresh
  snapshot _ _ h := nomatch h

theorem World.InUnit.withContext {w : World} (h : w.InUnit) (name : String) {ctx : Context}
    (hctx : ctx.session.InUnit) : (w.withContext name ctx).InUnit where
  session other := by
    rw [session_withContext]
    split
    · exact hctx
    · exact h.session other
  snapshot := h.snapshot

theorem World.InUnit.perform {w : World} (h : w.InUnit) (name : String) {task : Task}
    (htask : task.UnitLiterals) (hload : ∀ data, task ≠ .act (.load data)) :
    ((task.perform name).run w).2.InUnit := by
  cases task with
  | act a =>
      have ha := Action.ensures htask fun data heq => hload data (heq ▸ rfl)
      rw [run_perform_act, run_onSession]
      exact h.withContext name (ha (w.context name) (h.session name)).1
  | snapshot slot =>
      rw [run_perform_snapshot]
      refine ⟨h.session, fun other env hget => ?_⟩
      rw [OrderedMap.get?_insert] at hget
      split at hget
      · cases hget
        exact (h.session name).env
      · exact h.snapshot other env hget
  | showSnapshot slot =>
      rw [run_perform_showSnapshot]
      cases w.snapshots.get? slot <;> exact h
  | restore slot =>
      rw [run_perform_restore]
      cases hslot : w.snapshots.get? slot with
      | none => exact h
      | some env =>
          exact h.withContext name ((h.session name).withEnv (h.snapshot slot env hslot))

/-- The unit interval is not left by any task whose literals lie there, nor by blocks: an
anonymous scope brings back the bindings found on entry, and a snapshot those that it was taken
of. -/
theorem inUnit_invariant : Invariant Task.UnitLiterals fun _ w => w.InUnit where
  inner name w h := h.inner name w
  state hstate h := ⟨fun name => hstate.1 name ▸ h.session name, hstate.2 ▸ h.snapshot⟩
  task name task htask hload h := h.perform name htask hload
  enter name entry h := by
    refine h.withContext name ?_
    cases entry with
    | gate g => exact (h.session name).withStack _
    | anonymous => exact h.session name
  leave names name entry h hbody := by
    refine hbody.withContext name ?_
    cases entry with
    | gate g => exact (hbody.session name).withStack _
    | anonymous => exact (hbody.session name).withEnv (h.session name).env

/-- **Degrees stay in the unit interval.**  At every moment of a run with literals between zero
and one, inside loads too, all bindings and all snapshots lie between zero and one, and so does
every degree that an action with such literals answers there. -/
theorem degrees_stay_in_unit {level : Int} {program : List Step}
    (hprogram : onlyAll Task.UnitLiterals program) {before later : List Moment}
    (h : moments program (.start level) = before ++ later) :
    let w := lastWorld (.start level) before
    (∀ name, (w.session name).env.InUnit) ∧
      (∀ slot env, w.snapshots.get? slot = some env → env.InUnit) ∧
      ∀ name (a : Action) r, (∀ x ∈ a.literals ++ a.passingLiterals, x.InUnit) →
        (a.perform.run (w.context name)).1 = .ok r → ∀ x ∈ r.value?, x.InUnit := by
  intro w
  have hw : w.InUnit :=
    @Invariant.lastWorld _ _ inUnit_invariant _ hprogram [] _ (World.inUnit_start level) _ _ h
  refine ⟨fun name => (hw.session name).env, hw.snapshot, fun name a r ha hr => ?_⟩
  rw [List.forall_mem_append] at ha
  by_cases hload : ∃ data, a = .load data
  · obtain ⟨data, rfl⟩ := hload
    exact Reply.inUnit_of_value? (value?_load hr)
  · have hanswer := Action.ensures ha.1 fun data heq => hload ⟨data, heq⟩
    exact (hanswer (w.context name) (hw.session name)).2 r hr ha.2

/-- A load, a gate block, an anonymous scope that fails, a sum that is cut off and a cut at an
undefined threshold. -/
theorem degrees_stay_in_unit_nested :
    let sum : Expr := .join .add (.var ⟨"X", by decide⟩) (.value 0.75)
    let program : List Step := [
      .task "s" false (.act (.load (.ok (.mapping [
        (.text "globals", .mapping [(.text "X", .atom (.float 0.5))])])))),
      .block "s" false (.gate (.ok (.ofText "g"))) [
        .task "s" false (.act (.assignExpression (.ok (.ofText "g")) (.ok (.ofExpr sum)))),
        .block "s" false .anonymous [
          .task "s" false (.act (.assignValue (.ok (.ofText "X")) (.ok (.ofExpr sum))
            (.ok (.atom .null)))),
          .task "s" false (.act (.abort "stop"))],
        .task "s" false (.act (.assignValue (.ok (.ofText "Y"))
          (.ok (.ofExpr (.alphaCut sum (0.0 / 0.0)))) (.ok (.atom .null))))]]
    let w := (runAll program (.start 0)).2.2
    onlyAll Task.UnitLiterals program ∧ (w.session "s").env.held? "g" "Y" = some 0.0 ∧
      ((Action.evaluateGate (.ok (.ofText "g"))).perform.run (w.context "s")).1.toOption.bind
        Reply.value? = some 1.0 ∧ (w.session "s").env.InUnit := by
  intro sum program w
  have hprogram : onlyAll Task.UnitLiterals program := by
    have hload : (Task.act (.load (.ok (.mapping [
        (.text "globals", .mapping [(.text "X", .atom (.float 0.5))])])))).UnitLiterals := by
      decide
    have hsum : sum.InUnit := by decide
    have habort : (Task.act (.abort "stop")).UnitLiterals := by decide
    exact ⟨hload, ⟨hsum, ⟨hsum, habort, trivial⟩, hsum, trivial⟩, trivial⟩
  have hmoments : moments program (.start 0) = moments program (.start 0) ++ [] :=
    (List.append_nil _).symm
  obtain ⟨henv, -, -⟩ := degrees_stay_in_unit hprogram hmoments
  rw [lastWorld_moments] at henv
  exact ⟨hprogram, by decide, by decide, henv "s"⟩

/-- A literal that is evaluated and not kept is answered as it is. -/
theorem passing_literal_leaves_unit :
    let program : List Step := [.task "s" false (.act (.evaluate (.ok (.atom (.float 2.0)))))]
    onlyAll Task.UnitLiterals program ∧
      (runAll program (.start 0)).1 = [.task (.ok (.degree 2.0)) [] .fresh] ∧
      ¬ Degree.InUnit 2.0 := by
  intro program
  have hprogram : onlyAll Task.UnitLiterals program := ⟨fun x hx => (by cases hx), trivial⟩
  exact ⟨hprogram, rfl, by decide⟩

end Program

end FuzzyGates
