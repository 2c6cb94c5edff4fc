import FuzzyGates.Proofs.Program.Journal

/-!
# Loading a configuration is running a program

Loading does what a program would do that assigns the globals one after the other and
then, for every gate, opens a block and assigns the variables and the expression of the
gate inside it.  So what holds at every point of every program also holds while a
configuration is being loaded.

* `loadSteps` — that program.
* `Follows` — a list of steps does to a world what an operation does to its session.
* `Mirrors` — it also logs, record for record, what the operation logs, since operations do not
  look at the journal they write to; kept by sequencing, by iteration and by gate blocks.
* `mirrors_loadContents` — loading mirrors the steps of the configuration.
* `Task.inner` — the steps that a task amounts to: those of a configuration for a load
  that is not refused, none otherwise.
* **`load_follows`** — once the options for logging are applied, loading and the
  program end alike, with the same failure if any.
-/

namespace FuzzyGates.Program

open World

/-- The steps that assign degrees to the variables of a scope. -/
def degreeSteps (name : String) (degrees : OrderedMap String Number) (scope : Document) :
    List Step :=
  degrees.entries.map fun p =>
    .task name true (.act (.assignValue (.ok (.ofText p.1)) (.ok (.atom p.2.toAtom)) (.ok scope)))

/-- The steps that assign the contents of a gate, to be run inside its block. -/
def gateSteps (name : String) (g : Gate) (c : GateConfig) : List Step :=
  degreeSteps name c.degrees (.atom .null) ++
    c.expression.toList.map fun e =>
      .task name true (.act (.assignExpression (.ok (.ofText g.name)) (.ok (.ofExpr e))))

/-- The steps that assign the contents of a configuration. -/
def loadSteps (name : String) (c : Config) : List Step :=
  degreeSteps name c.globals (.ofText globalScope) ++
    c.gates.entries.map fun p =>
      .block name true (.gate (.ok (.ofText p.1.name))) (gateSteps name p.1 p.2)

/-- Running the steps has the effect of the operation, and its failure if it fails. -/
def Follows (name : String) (steps : List Step) (act : SessionM Unit) : Prop :=
  ∀ w, (runAll steps w).2.1 = leaving true (act.run (w.context name)).1 ∧
    Alike (runAll steps w).2.2 (w.withContext name (act.run (w.context name)).2)

theorem World.alike_withContext_withContext (w : World) (name : String) (c d : Context) :
    Alike ((w.withContext name c).withContext name d) (w.withContext name d) where
  session other := by
    simp only [session_withContext]
    split <;> rfl
  snapshots := rfl
  logger := rfl

theorem follows_nil (name : String) : Follows name [] (pure ()) := by
  intro w
  rw [runAll_nil]
  exact ⟨rfl, (alike_withContext_context w name).symm⟩

theorem Follows.append {name : String} {steps rest : List Step} {x y : SessionM Unit}
    (hx : Follows name steps x) (hy : Follows name rest y) :
    Follows name (steps ++ rest) (x >>= fun _ => y) := by
  intro w
  obtain ⟨hfailure, halike⟩ := hx w
  rw [runAll_append, run_bind, hfailure]
  rcases hrun : x.run (w.context name) with ⟨e | _, ctx⟩
  · rw [hrun] at halike
    exact ⟨rfl, halike⟩
  · rw [hrun] at halike
    obtain ⟨-, hrest, hend⟩ := runAll_alike rest halike
    obtain ⟨hfailure', halike'⟩ := hy (w.withContext name ctx)
    rw [context_withContext] at hfailure' halike'
    exact ⟨hrest.trans hfailure',
      hend.trans (halike'.trans (alike_withContext_withContext w name ctx _))⟩

/-- A step with an action follows what the action does, its reply left aside. -/
theorem follows_task (name : String) {a : Action} {act : SessionM Unit}
    (h : ∀ ctx, leaving true (a.perform.run ctx).1 = leaving true (act.run ctx).1 ∧
      (a.perform.run ctx).2 = (act.run ctx).2) :
    Follows name [.task name true (.act a)] act := by
  intro w
  obtain ⟨hfailure, hctx⟩ := h (w.context name)
  rw [runAll_cons, Step.run_task, run_perform_act, run_onSession, Bool.true_or, hfailure, hctx]
  cases leaving true (act.run (w.context name)).1 with
  | some e => exact ⟨rfl, alike_flush _⟩
  | none =>
      rw [runAll_nil]
      exact ⟨rfl, alike_flush _⟩

@[simp] theorem leaving_blockOutcome (failure : Option Failure) (rows : Nat) :
    leaving true (blockOutcome failure rows) = failure := by
  cases failure <;> rfl

theorem entry_gate_ofText (g : Gate) :
    (Block.gate (.ok (.ofText g.name))).entry = .ok (.gate g) := by
  simp [Block.entry, Document.ofText, Scope.ofDocument, Scope.ofName?, g.nonempty, g.not_global,
    Scope.toGate, bind, Except.bind, pure, Except.pure]

/-- A gate block follows the operation in a gate block that its body follows. -/
theorem Follows.gate {name : String} {body : List Step} {act : SessionM Unit} (g : Gate)
    (h : Follows name body act) :
    Follows name [.block name true (.gate (.ok (.ofText g.name))) body]
      (Session.withGate g act) := by
  intro w
  let before := w.session name
  let inside := w.update name (Entry.enter (.gate g))
  obtain ⟨hfailure, halike⟩ := h inside
  have hstart : inside.context name = (w.context name).enterGate g := context_withContext w name _
  rw [hstart] at hfailure halike
  -- leaving the block replaces the context once more, and only the last one counts
  have hend : Alike (afterBlock name (.gate g) body w)
      (w.withContext name ((Session.withGate g act).run (w.context name)).2) := by
    have hleave := halike.update name fun hcd => hcd.leave before (.gate g)
    rw [World.update, World.update, context_withContext] at hleave
    refine hleave.trans ((alike_withContext_withContext inside name _ _).trans ?_)
    exact alike_withContext_withContext w name _ _
  rw [runAll_cons, Step.run_entered _ _ _ _ (entry_gate_ofText g), leaving_blockOutcome,
    SessionM.run_withGate, hfailure]
  cases leaving true (act.run ((w.context name).enterGate g)).1 with
  | some e => exact ⟨rfl, (alike_flush _).trans hend⟩
  | none =>
      rw [runAll_nil]
      exact ⟨rfl, (alike_flush _).trans hend⟩

/-! ### Operations that log what steps log -/

/-- An operation does what the steps do, logs what they log and does not look at the journal. -/
structure Mirrors (name : String) (steps : List Step) (act : SessionM Unit) : Prop where
  follows : Follows name steps act
  journal : ∀ w, (act.run (w.context name)).2.journal = journalAfterAll steps w
  made : SessionM.MadeFrom (fun _ => True) act

theorem Mirrors.context {name : String} {steps : List Step} {act : SessionM Unit}
    (h : Mirrors name steps act) (w : World) : (act.run (w.context name)).2 =
      ⟨(runAll steps w).2.2.session name, journalAfterAll steps w⟩ := by
  have hsession := (h.follows w).2.session name
  rw [session_withContext, if_pos rfl] at hsession
  rw [hsession, ← h.journal w]

theorem mirrors_nil (name : String) : Mirrors name [] (pure ()) where
  follows := follows_nil name
  journal w := (journalAfterAll_nil w).symm
  made := .pure ()

/-- What the second operation logs comes after what the first one has logged, which it does not
look at. -/
theorem Mirrors.append {name : String} {steps rest : List Step} {x y : SessionM Unit}
    (hx : Mirrors name steps x) (hy : Mirrors name rest y) :
    Mirrors name (steps ++ rest) (x >>= fun _ => y) where
  follows := hx.follows.append hy.follows
  journal w := by
    have hfailure := (hx.follows w).1
    have hcontext := hx.context w
    rw [run_bind, journalAfterAll_append]
    rcases hrun : x.run (w.context name) with ⟨e | _, ctx⟩
    · rw [hrun] at hfailure hcontext
      rw [hfailure]
      exact congrArg Context.journal hcontext
    · rw [hrun] at hfailure hcontext
      let between := (runAll steps w).2.2
      have hctx : ctx = (between.context name).prepend (loggedAll (runAll steps w).1) := hcontext
      rw [hfailure, hctx]
      show (y.run ((between.context name).prepend _)).2.journal = _
      rw [hy.made.blind, hy.context between]
      rfl
  made := .bind hx.made fun _ => hy.made

theorem mirrors_forM {α : Type} {name : String} {l : List α} {step : α → Step}
    {act : α → SessionM Unit} (h : ∀ a ∈ l, Mirrors name [step a] (act a)) :
    Mirrors name (l.map step) (l.forM act) := by
  induction l with
  | nil => exact mirrors_nil name
  | cons a rest ih => exact (h a (by simp)).append (ih fun b hb => h b (by simp [hb]))

/-- A step with an action mirrors what the action does, its reply left aside. -/
theorem mirrors_task (name : String) {a : Action} {act : SessionM Unit}
    (h : ∀ ctx, leaving true (a.perform.run ctx).1 = leaving true (act.run ctx).1 ∧
      (a.perform.run ctx).2 = (act.run ctx).2)
    (made : SessionM.MadeFrom (fun _ => True) act) :
    Mirrors name [.task name true (.act a)] act where
  follows := follows_task name h
  journal w := by
    rw [journalAfterAll_singleton, Step.journalAfter_task, ← (h (w.context name)).2]
    rfl
  made := made

/-- A gate block mirrors the operation in a gate block that its body mirrors. -/
theorem Mirrors.gate {name : String} {body : List Step} {act : SessionM Unit} (g : Gate)
    (h : Mirrors name body act) :
    Mirrors name [.block name true (.gate (.ok (.ofText g.name))) body]
      (Session.withGate g act) where
  follows := h.follows.gate g
  journal w := by
    let inside := w.update name (Entry.enter (.gate g))
    have hstart : inside.context name = (w.context name).enterGate g :=
      context_withContext w name _
    rw [journalAfterAll_singleton, Step.journalAfter_entered _ _ _ _ (entry_gate_ofText g),
      SessionM.run_withGate, ← hstart, h.context inside]
    rfl
  made := .withGate g h.made

/-! ### The steps of a configuration -/

theorem run_silently {α : Type} (act : SessionM α) (ctx : Context) :
    (silently act).run ctx = match act.run ctx with
      | (.ok _, after) => (.ok .done, after)
      | (.error e, after) => (.error e, after) := by
  show ((act >>= fun _ => pure ()) >>= fun _ => pure Reply.done).run ctx = _
  rw [run_bind, run_bind]
  rcases act.run ctx with ⟨_ | _, after⟩ <;> rfl

theorem run_discard {α : Type} (act : SessionM α) (ctx : Context) :
    (Functor.discard act).run ctx = match act.run ctx with
      | (.ok _, after) => (.ok (), after)
      | (.error e, after) => (.error e, after) := by
  show (act >>= fun _ => pure ()).run ctx = _
  rw [run_bind]
  rcases act.run ctx with ⟨_ | _, after⟩ <;> rfl

/-- Assigning a degree as a step ends as assigning it in a load does. -/
theorem runs_degree (p : String × Number) (scope : Document) (ctx : Context) :
    let step := Action.assignValue (.ok (.ofText p.1)) (.ok (.atom p.2.toAtom)) (.ok scope)
    let inside := (do
      discard (Session.assignValue (.ofText p.1) (.atom p.2.toAtom) scope) : SessionM Unit)
    leaving true (step.perform.run ctx).1 = leaving true (inside.run ctx).1 ∧
      (step.perform.run ctx).2 = (inside.run ctx).2 := by
  intro step inside
  show leaving true ((Session.assignValue _ _ _ >>= fun x => pure (Reply.degree x)).run ctx).1 = _ ∧
    ((Session.assignValue _ _ _ >>= fun x => pure (Reply.degree x)).run ctx).2 = _
  rw [run_discard, run_bind]
  rcases (Session.assignValue (.ofText p.1) (.atom p.2.toAtom) scope).run ctx with ⟨_ | _, _⟩ <;>
    exact ⟨rfl, rfl⟩

theorem mirrors_loadDegrees (name : String) (degrees : OrderedMap String Number)
    (scope : Document) :
    Mirrors name (degreeSteps name degrees scope) (Session.loadDegrees degrees scope) := by
  refine mirrors_forM fun p _ => mirrors_task name (runs_degree p scope) ?_
  exact .discard (SessionM.madeFrom_assignValue (fun _ _ => trivial) _ _ _)

/-- Binding an expression as a step ends as binding it in a load does. -/
theorem runs_assignExpression (gate expr : Document) (ctx : Context) :
    let step := Action.assignExpression (.ok gate) (.ok expr)
    let inside := Session.assignExpression gate expr
    leaving true (step.perform.run ctx).1 = leaving true (inside.run ctx).1 ∧
      (step.perform.run ctx).2 = (inside.run ctx).2 := by
  intro step inside
  show leaving true ((silently (Session.assignExpression gate expr)).run ctx).1 = _ ∧
    ((silently (Session.assignExpression gate expr)).run ctx).2 = _
  rw [run_silently]
  rcases (Session.assignExpression gate expr).run ctx with ⟨_ | _, after⟩ <;> exact ⟨rfl, rfl⟩

theorem mirrors_assignExpression (name : String) (gate expr : Document) :
    Mirrors name [.task name true (.act (.assignExpression (.ok gate) (.ok expr)))]
      (Session.assignExpression gate expr) :=
  mirrors_task name (runs_assignExpression gate expr)
    (SessionM.madeFrom_assignExpression (fun _ _ => trivial) _ _)

theorem mirrors_loadGate (name : String) (g : Gate) (c : GateConfig) :
    Mirrors name [.block name true (.gate (.ok (.ofText g.name))) (gateSteps name g c)]
      (Session.loadGate g c) := by
  refine Mirrors.gate g ((mirrors_loadDegrees name c.degrees (.atom .null)).append ?_)
  cases c.expression with
  | none => exact mirrors_nil name
  | some e => exact mirrors_assignExpression name _ _

/-- Loading without the options for logging and without the closing record. -/
def loadContents (c : Config) : SessionM Unit := do
  Session.loadDegrees c.globals (.ofText globalScope)
  c.gates.entries.forM fun p => Session.loadGate p.1 p.2

/-- **Loading mirrors the steps of the configuration**, its options for logging and its closing
record left aside. -/
theorem mirrors_loadContents (name : String) (c : Config) :
    Mirrors name (loadSteps name c) (loadContents c) :=
  (mirrors_loadDegrees name c.globals (.ofText globalScope)).append
    (mirrors_forM fun p _ => mirrors_loadGate name p.1 p.2)

theorem load_eq_bind (c : Config) :
    Session.load c = (do
      Session.applyLogging c.logging
      loadContents c
      SessionM.note (.loaded c.globals.size c.gates.size)) := by
  simp only [Session.load, loadContents, bind_assoc]

/-- The options for logging do not touch the session. -/
theorem session_applyLogging (o : LoggingOptions) (ctx : Context) :
    ((Session.applyLogging o).run ctx).2.session = ctx.session := by
  unfold Session.applyLogging
  cases o.enabled <;> rfl

/-! ### The run inside a task -/

/-- The steps that a task amounts to and the world in which they are run.  Only loading a
configuration amounts to any, and only if the data and the options for logging are accepted. -/
def Task.inner (name : String) (w : World) : Task → List Step × World
  | act (.load (.ok data)) =>
      match Config.ofDocument data with
      | .error _ => ([], w)
      | .ok c =>
          match (Session.applyLogging c.logging).run (w.context name) with
          | (.error _, _) => ([], w)
          | (.ok _, ctx) => (loadSteps name c, w.withContext name ctx)
  | _ => ([], w)

/-- The sessions and the snapshots are the same. -/
def World.SameState (v w : World) : Prop :=
  (∀ name, v.session name = w.session name) ∧ v.snapshots = w.snapshots

theorem World.Alike.sameState {v w : World} (h : Alike v w) : v.SameState w :=
  ⟨h.session, h.snapshots⟩

theorem World.SameState.trans {u v w : World} (h : u.SameState v) (k : v.SameState w) :
    u.SameState w := ⟨fun name => (h.1 name).trans (k.1 name), h.2.trans k.2⟩

theorem World.SameState.symm {v w : World} (h : v.SameState w) : w.SameState v :=
  ⟨fun name => (h.1 name).symm, h.2.symm⟩

/-- Replacing a context by one with the same session changes no session. -/
theorem World.sameState_withContext {w : World} {name : String} {ctx : Context}
    (h : ctx.session = w.session name) : (w.withContext name ctx).SameState w := by
  refine ⟨fun other => ?_, rfl⟩
  rw [session_withContext]
  split
  · next heq => rw [h, heq]
  · rfl

/-- The steps of a task start in the world of the task, up to logging. -/
theorem sameState_inner (name : String) (w : World) (task : Task) :
    (task.inner name w).2.SameState w := by
  unfold Task.inner
  split
  · next data =>
      cases Config.ofDocument data with
      | error e => exact (Alike.refl w).sameState
      | ok c =>
          have hsession := session_applyLogging c.logging (w.context name)
          dsimp only
          rcases hrun : (Session.applyLogging c.logging).run (w.context name) with ⟨e | _, ctx⟩
          · exact (Alike.refl w).sameState
          · rw [hrun] at hsession
            exact sameState_withContext hsession
  · exact (Alike.refl w).sameState

theorem run_perform_load (d : Document) (ctx : Context) :
    (Action.load (.ok d)).perform.run ctx = match Config.ofDocument d with
      | .ok c => (silently (Session.load c)).run ctx
      | .error e => (.error e, ctx) := by
  show (liftM (Except.ok d : Argument) >>= fun data =>
    liftM (Config.ofDocument data) >>= fun config => silently (Session.load config)).run ctx = _
  rw [run_bind, SessionM.run_lift]
  show (liftM (Config.ofDocument d) >>= fun config =>
    silently (Session.load config) : SessionM Reply).run ctx = _
  rw [run_bind, SessionM.run_lift]
  cases Config.ofDocument d <;> rfl

/-- A task without steps of its own leaves the sessions as they were if it does not change its
session. -/
theorem sameState_of_inner_nil {name : String} {w : World} {task : Task} {ctx : Context}
    (hinner : task.inner name w = ([], w)) (hctx : ctx.session = w.session name)
    (failed : Prop) :
    (w.withContext name ctx).SameState (runAll (task.inner name w).1 (task.inner name w).2).2.2 ∧
      ((task.inner name w).1 ≠ [] → failed) := by
  rw [hinner, runAll_nil]
  exact ⟨sameState_withContext hctx, fun h => absurd rfl h⟩

/-- **Loading ends as the steps of the configuration do**, and fails as they do if these
are reached. -/
theorem load_follows (name : String) (data : Argument) (w : World) :
    let task := Task.act (.load data)
    let run := runAll (task.inner name w).1 (task.inner name w).2
    ((task.perform name).run w).2.SameState run.2.2 ∧
      ((task.inner name w).1 ≠ [] → leaving true ((task.perform name).run w).1 = run.2.1) := by
  intro task run
  have hperform : (task.perform name).run w = (onSession name (Action.load data).perform).run w :=
    rfl
  rw [hperform, run_onSession]
  cases data with
  | error e => exact sameState_of_inner_nil rfl rfl _
  | ok d =>
      rw [run_perform_load]
      cases hconfig : Config.ofDocument d with
      | error e =>
          have hinner : task.inner name w = ([], w) := by
            simp only [task, Task.inner, hconfig]
          exact sameState_of_inner_nil hinner rfl _
      | ok c =>
          have hsession := session_applyLogging c.logging (w.context name)
          dsimp only
          rw [run_silently, load_eq_bind, run_bind]
          rcases hlog : (Session.applyLogging c.logging).run (w.context name) with ⟨e | _, ctx⟩
          · have hinner : task.inner name w = ([], w) := by
              simp only [task, Task.inner, hconfig, hlog]
            rw [hlog] at hsession
            exact sameState_of_inner_nil hinner hsession _
          · have hinner : task.inner name w = (loadSteps name c, w.withContext name ctx) := by
              simp only [task, Task.inner, hconfig, hlog]
            obtain ⟨hfailure, halike⟩ :=
              (mirrors_loadContents name c).follows (w.withContext name ctx)
            rw [context_withContext] at hfailure halike
            simp only [run, hinner]
            rw [run_bind]
            rcases hload : (loadContents c).run ctx with ⟨e | _, after⟩
            · rw [hload] at hfailure halike
              exact ⟨((alike_withContext_withContext w name ctx after).symm.trans
                halike.symm).sameState, fun _ => hfailure.symm⟩
            · -- what is left is the record of having loaded the configuration
              rw [hload] at hfailure halike
              have hnote := (Alike.refl w).withContext name
                (Context.agree_note after (.loaded c.globals.size c.gates.size))
              exact ⟨(hnote.trans ((alike_withContext_withContext w name ctx after).symm.trans
                halike.symm)).sameState, fun _ => hfailure.symm⟩

end FuzzyGates.Program
