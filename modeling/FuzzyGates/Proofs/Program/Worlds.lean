import FuzzyGates.Proofs.Session.Records

/-!
# Runs in worlds that are alike

Two worlds are alike if they hold the same sessions and snapshots under every name and
the same logger.  What has been logged, and in which order the sessions were first used,
may differ.  A run cannot tell them apart.

* `World.Alike` — the relation, with one lemma for every way to change a world.
* `Step.run_task`, `Step.run_entered`, `Step.run_refused` — what a step does, by its kind.
* `Row.unlogged` — a row without its records.
* **`runAll_alike`** — runs from worlds that are alike give the same rows up to
  records, the same failure, and worlds that are alike.
-/

namespace FuzzyGates.Program

namespace World

@[simp] theorem session_withContext (w : World) (name other : String) (ctx : Context) :
    (w.withContext name ctx).session other =
      if name = other then ctx.session else w.session other := by
  simp only [session, withContext, OrderedMap.get?_insert]
  split <;> rfl

@[simp] theorem context_withContext (w : World) (name : String) (ctx : Context) :
    (w.withContext name ctx).context name = ctx := by
  show (⟨_, _⟩ : Context) = ctx
  rw [session_withContext, if_pos rfl]
  rfl

@[simp] theorem session_update (w : World) (name other : String) (f : Context → Context) :
    (w.update name f).session other =
      if name = other then (f (w.context name)).session else w.session other :=
  session_withContext w name other _

@[simp] theorem session_flush (w : World) (name : String) : w.flush.session name = w.session name :=
  rfl

/-- The same sessions, snapshots and logger. -/
structure Alike (v w : World) : Prop where
  session : ∀ name, v.session name = w.session name
  snapshots : v.snapshots = w.snapshots
  logger : v.journal.logger = w.journal.logger

@[refl] theorem Alike.refl (w : World) : Alike w w := ⟨fun _ => rfl, rfl, rfl⟩

theorem Alike.symm {v w : World} (h : Alike v w) : Alike w v :=
  ⟨fun name => (h.session name).symm, h.snapshots.symm, h.logger.symm⟩

theorem Alike.trans {u v w : World} (h : Alike u v) (k : Alike v w) : Alike u w :=
  ⟨fun name => (h.session name).trans (k.session name), h.snapshots.trans k.snapshots,
    h.logger.trans k.logger⟩

theorem alike_flush (w : World) : Alike w.flush w := ⟨fun _ => rfl, rfl, rfl⟩

theorem Alike.flush {v w : World} (h : Alike v w) : Alike v.flush w.flush :=
  (alike_flush v).trans (h.trans (alike_flush w).symm)

theorem Alike.context {v w : World} (h : Alike v w) (name : String) :
    (v.context name).Agree (w.context name) := ⟨h.session name, h.logger⟩

theorem Alike.withContext {v w : World} (h : Alike v w) (name : String) {c d : Context}
    (hcd : c.Agree d) : Alike (v.withContext name c) (w.withContext name d) where
  session other := by simp [hcd.session, h.session other]
  snapshots := h.snapshots
  logger := hcd.logger

/-- A change of one context that respects agreement respects likeness. -/
theorem Alike.update {v w : World} (h : Alike v w) (name : String) {f : Context → Context}
    (hf : ∀ {c d : Context}, c.Agree d → (f c).Agree (f d)) :
    Alike (v.update name f) (w.update name f) :=
  h.withContext name (hf (h.context name))

/-- Putting back what is there already changes nothing that can be told. -/
theorem alike_withContext_context (w : World) (name : String) :
    Alike (w.withContext name (w.context name)) w where
  session other := by
    rw [session_withContext]
    split
    · next h => rw [← h]; rfl
    · rfl
  snapshots := rfl
  logger := rfl

end World

open World

/-! ### What a step does -/

theorem run_onSession {α : Type} (name : String) (act : SessionM α) (w : World) :
    (onSession name act).run w =
      ((act.run (w.context name)).1, w.withContext name (act.run (w.context name)).2) := rfl

theorem run_perform_act (name : String) (a : Action) (w : World) :
    ((Task.act a).perform name).run w = (onSession name a.perform).run w := rfl

theorem run_snapshotOf (slot : String) (w : World) :
    (snapshotOf slot).run w =
      match w.snapshots.get? slot with
      | some env => (.ok env, w)
      | none => (.error (.noSnapshot slot), w) := by
  rw [snapshotOf, run_bind]
  show (match w.snapshots.get? slot with
    | some env => pure env
    | none => throw (.noSnapshot slot) : ProgramM Environment).run w = _
  cases w.snapshots.get? slot <;> rfl

theorem run_perform_snapshot (name slot : String) (w : World) :
    ((Task.snapshot slot).perform name).run w =
      (.ok (.count (w.session name).env.variableCount),
        { w with snapshots := w.snapshots.insert slot (w.session name).env }) := rfl

theorem run_perform_showSnapshot (name slot : String) (w : World) :
    ((Task.showSnapshot slot).perform name).run w =
      match w.snapshots.get? slot with
      | some env => (.ok (.environment env), w)
      | none => (.error (.noSnapshot slot), w) := by
  rw [Task.perform, run_bind, run_snapshotOf]
  cases w.snapshots.get? slot <;> rfl

theorem run_perform_restore (name slot : String) (w : World) :
    ((Task.restore slot).perform name).run w =
      match w.snapshots.get? slot with
      | some env => (.ok .done, w.update name (Context.restore env))
      | none => (.error (.noSnapshot slot), w) := by
  rw [Task.perform, run_bind, run_snapshotOf]
  cases w.snapshots.get? slot <;> rfl

theorem Step.run_task (name : String) (raises : Bool) (task : Task) (w : World) :
    (Step.task name raises task).run w =
      (.task ((task.perform name).run w).1 ((task.perform name).run w).2.journal.records
          (((task.perform name).run w).2.session name),
        leaving (raises || task.alwaysRaises) ((task.perform name).run w).1,
        ((task.perform name).run w).2.flush) := by
  simp only [Step.run]
  rfl

theorem Step.run_refused (name : String) (raises : Bool) {block : Block} (body : List Step)
    (w : World) {e : Failure} (h : block.entry = .error e) :
    (Step.block name raises block body).run w =
      (.task (.error e) w.journal.records (w.session name),
        leaving raises (.error e : Except Failure Unit), w.flush) := by
  simp only [Step.run, h]

/-- How a block ends whose body has ended. -/
def blockOutcome (failure : Option Failure) (rows : Nat) : Except Failure Reply :=
  match failure with
  | some e => .error e
  | none => .ok (.count rows)

/-- The world after a block that was entered as `entry` from the world `w`. -/
def afterBlock (name : String) (entry : Entry) (body : List Step) (w : World) : World :=
  (runAll body (w.update name entry.enter)).2.2.update name (entry.leave (w.session name))

theorem Step.run_entered (name : String) (raises : Bool) {block : Block} (body : List Step)
    (w : World) {entry : Entry} (h : block.entry = .ok entry) :
    (Step.block name raises block body).run w =
      (.block entry (runAll body (w.update name entry.enter)).1
          (blockOutcome (runAll body (w.update name entry.enter)).2.1
            (runAll body (w.update name entry.enter)).1.length)
          (afterBlock name entry body w).journal.records
          ((afterBlock name entry body w).session name),
        leaving raises (blockOutcome (runAll body (w.update name entry.enter)).2.1
          (runAll body (w.update name entry.enter)).1.length),
        (afterBlock name entry body w).flush) := by
  simp only [Step.run, h]
  rfl

theorem runAll_nil (w : World) : runAll [] w = ([], none, w) := by simp only [runAll]

/-- The rest is run exactly if the step does not leave the block around it. -/
theorem runAll_cons (step : Step) (rest : List Step) (w : World) :
    runAll (step :: rest) w =
      match (step.run w).2.1 with
      | some e => ([(step.run w).1], some e, (step.run w).2.2)
      | none =>
          ((step.run w).1 :: (runAll rest (step.run w).2.2).1,
            (runAll rest (step.run w).2.2).2) := by
  rw [runAll]
  rcases step.run w with ⟨row, _ | e, after⟩ <;> rfl

/-- Steps after steps are run exactly if the first ones have not failed. -/
theorem runAll_append (steps rest : List Step) (w : World) :
    runAll (steps ++ rest) w =
      match (runAll steps w).2.1 with
      | some e => ((runAll steps w).1, some e, (runAll steps w).2.2)
      | none =>
          ((runAll steps w).1 ++ (runAll rest (runAll steps w).2.2).1,
            (runAll rest (runAll steps w).2.2).2) := by
  induction steps generalizing w with
  | nil => rw [runAll_nil]; rfl
  | cons step steps ih =>
      rw [List.cons_append, runAll_cons, runAll_cons]
      cases (step.run w).2.1 with
      | some e => rfl
      | none =>
          simp only [ih]
          cases (runAll steps (step.run w).2.2).2.1 <;> rfl

/-! ### Rows without their records -/

mutual

/-- A row without its records. -/
def Row.unlogged : Row → Row
  | .task outcome _ session => .task outcome [] session
  | .block entry body outcome _ session => .block entry (unloggedAll body) outcome [] session

/-- Rows without their records. -/
def unloggedAll : List Row → List Row
  | [] => []
  | row :: rest => row.unlogged :: unloggedAll rest

end

theorem unloggedAll_eq_map (rows : List Row) : unloggedAll rows = rows.map Row.unlogged := by
  induction rows with
  | nil => rfl
  | cons row rest ih => simp [unloggedAll, ih]

@[simp] theorem length_unloggedAll (rows : List Row) : (unloggedAll rows).length = rows.length := by
  simp [unloggedAll_eq_map]

theorem length_eq_of_unloggedAll_eq {rows others : List Row}
    (h : unloggedAll rows = unloggedAll others) : rows.length = others.length := by
  rw [← length_unloggedAll rows, h, length_unloggedAll]

/-! ### Likeness is kept -/

theorem perform_alike (task : Task) (name : String) {v w : World} (h : Alike v w) :
    ((task.perform name).run v).1 = ((task.perform name).run w).1 ∧
      Alike ((task.perform name).run v).2 ((task.perform name).run w).2 := by
  cases task with
  | act a =>
      obtain ⟨hresult, hagree⟩ := a.madeFrom.blind.agree (h.context name)
      exact ⟨hresult, h.withContext name hagree⟩
  | snapshot slot =>
      rw [run_perform_snapshot, run_perform_snapshot, h.session name, h.snapshots]
      exact ⟨rfl, h.session, rfl, h.logger⟩
  | showSnapshot slot =>
      rw [run_perform_showSnapshot, run_perform_showSnapshot, h.snapshots]
      cases w.snapshots.get? slot <;> exact ⟨rfl, h⟩
  | restore slot =>
      rw [run_perform_restore, run_perform_restore, h.snapshots]
      cases w.snapshots.get? slot with
      | none => exact ⟨rfl, h⟩
      | some env => exact ⟨rfl, h.update name fun hcd => hcd.restore env⟩

mutual

theorem Step.run_alike (step : Step) {v w : World} (h : Alike v w) :
    (step.run v).1.unlogged = (step.run w).1.unlogged ∧
      (step.run v).2.1 = (step.run w).2.1 ∧ Alike (step.run v).2.2 (step.run w).2.2 := by
  cases step with
  | task name raises task =>
      obtain ⟨hresult, halike⟩ := perform_alike task name h
      rw [Step.run_task, Step.run_task]
      refine ⟨?_, ?_, halike.flush⟩
      · simp only [Row.unlogged, hresult, halike.session name]
      · simp only [hresult]
  | block name raises block body =>
      cases hentry : block.entry with
      | error e =>
          rw [Step.run_refused _ _ _ _ hentry, Step.run_refused _ _ _ _ hentry]
          refine ⟨?_, rfl, h.flush⟩
          simp only [Row.unlogged, h.session name]
      | ok entry =>
          obtain ⟨hrows, hfailure, halike⟩ :=
            runAll_alike body (h.update name fun hcd => hcd.enter entry)
          have hafter : Alike (afterBlock name entry body v) (afterBlock name entry body w) := by
            unfold afterBlock
            rw [h.session name]
            exact halike.update name fun hcd => hcd.leave _ entry
          rw [Step.run_entered _ _ _ _ hentry, Step.run_entered _ _ _ _ hentry]
          refine ⟨?_, ?_, hafter.flush⟩
          · simp only [Row.unlogged, hrows, hfailure, length_eq_of_unloggedAll_eq hrows,
              hafter.session name]
          · simp only [hfailure, length_eq_of_unloggedAll_eq hrows]

/-- **A run does not tell worlds apart that are alike.** -/
theorem runAll_alike (steps : List Step) {v w : World} (h : Alike v w) :
    unloggedAll (runAll steps v).1 = unloggedAll (runAll steps w).1 ∧
      (runAll steps v).2.1 = (runAll steps w).2.1 ∧
      Alike (runAll steps v).2.2 (runAll steps w).2.2 := by
  cases steps with
  | nil =>
      rw [runAll_nil, runAll_nil]
      exact ⟨rfl, rfl, h⟩
  | cons step rest =>
      obtain ⟨hrow, hfailure, halike⟩ := step.run_alike h
      rw [runAll_cons, runAll_cons, hfailure]
      cases (step.run w).2.1 with
      | some e => exact ⟨by simp only [unloggedAll, hrow], rfl, halike⟩
      | none =>
          obtain ⟨hrows, hrest, hend⟩ := runAll_alike rest halike
          exact ⟨by simp only [unloggedAll, hrow, hrows], hrest, hend⟩

end

end FuzzyGates.Program
