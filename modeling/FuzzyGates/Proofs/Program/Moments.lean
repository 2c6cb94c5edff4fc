import FuzzyGates.Proofs.Program.Loading

/-!
# The moments of a run

A run passes through one moment after every task, every entry into a block, every refusal
to enter one and every exit.  Loading a configuration is a task with moments of its own,
those of its steps.  What has happened up to a moment says which blocks are open then.

* `Mark`, `Moment`, `moments` — what happens in a run, each with the world after it.
* `lastWorld_moments` — the last moment of a run is its end.
* `OpenBlock`, `openBlocks` — the blocks that are open after what has happened.
* `Closed` — what happens in the course of whole steps opens no block for good.
* `Invariant` — what each kind of mark keeps, given the open blocks and the world.
* **`Invariant.lastWorld`** — what every mark keeps holds at every moment of every run.
-/

namespace FuzzyGates.Program

open World

/-- What has just happened in a run. -/
inductive Mark
  | done (session : String) (task : Task)
  | entered (session : String) (entry : Entry)
  | left (session : String) (entry : Entry)
  | refused (session : String) (failure : Failure)

/-- A moment of a run: what has just happened and the world after it. -/
structure Moment where
  mark : Mark
  world : World

/-- What has happened in the course of some moments. -/
abbrev marks (ms : List Moment) : List Mark := ms.map Moment.mark

mutual

/-- The moments of a step, those inside its tasks being given. -/
def Step.momentsWith (inner : String → Task → World → List Moment) : Step → World → List Moment
  | .task name _ task, w =>
      inner name task w ++ [⟨.done name task, ((task.perform name).run w).2.flush⟩]
  | .block name _ block body, w =>
      match block.entry with
      | .error e => [⟨.refused name e, w.flush⟩]
      | .ok entry =>
          ⟨.entered name entry, w.update name entry.enter⟩ ::
            (momentsWith inner body (w.update name entry.enter) ++
              [⟨.left name entry, (afterBlock name entry body w).flush⟩])

/-- The moments of steps, up to the first failure that leaves the block around them. -/
def momentsWith (inner : String → Task → World → List Moment) : List Step → World → List Moment
  | [], _ => []
  | step :: rest, w =>
      step.momentsWith inner w ++
        match (step.run w).2.1 with
        | some _ => []
        | none => momentsWith inner rest (step.run w).2.2

end

/-- The moments inside a task: those of the steps that it amounts to. -/
def Task.moments (name : String) (task : Task) (w : World) : List Moment :=
  momentsWith (fun _ _ _ => []) (task.inner name w).1 (task.inner name w).2

/-- Only a load has moments inside. -/
theorem Task.moments_of_not_load (name : String) {task : Task}
    (h : ∀ data, task ≠ .act (.load data)) (w : World) : task.moments name w = [] := by
  unfold Task.moments Task.inner
  split
  · exact absurd rfl (h _)
  · unfold momentsWith
    rfl

/-- The moments of a run. -/
def moments (steps : List Step) (w : World) : List Moment := momentsWith Task.moments steps w

/-- The world at the end of some moments that follow a world. -/
def lastWorld (w : World) (ms : List Moment) : World := (ms.getLast?.map Moment.world).getD w

theorem Step.lastWorld_momentsWith (inner : String → Task → World → List Moment) (step : Step)
    (v w : World) : lastWorld v (step.momentsWith inner w) = (step.run w).2.2 := by
  cases step with
  | task name raises task =>
      unfold Step.momentsWith lastWorld
      rw [List.getLast?_concat, Step.run_task]
      rfl
  | block name raises block body =>
      cases hentry : block.entry with
      | error e =>
          unfold Step.momentsWith
          rw [Step.run_refused _ _ _ _ hentry, hentry]
          rfl
      | ok entry =>
          unfold Step.momentsWith lastWorld
          rw [Step.run_entered _ _ _ _ hentry, hentry]
          dsimp only
          rw [← List.cons_append, List.getLast?_concat]
          rfl

theorem lastWorld_cons (w : World) (m : Moment) (ms : List Moment) :
    lastWorld w (m :: ms) = lastWorld m.world ms := by
  unfold lastWorld
  rw [List.getLast?_cons]
  cases ms.getLast? <;> rfl

theorem lastWorld_append (w : World) (ms later : List Moment) :
    lastWorld w (ms ++ later) = lastWorld (lastWorld w ms) later := by
  unfold lastWorld
  rw [List.getLast?_append]
  cases later.getLast? <;> rfl

theorem lastWorld_momentsWith (inner : String → Task → World → List Moment) (steps : List Step)
    (w : World) : lastWorld w (momentsWith inner steps w) = (runAll steps w).2.2 := by
  induction steps generalizing w with
  | nil =>
      unfold momentsWith
      rw [runAll_nil]
      rfl
  | cons step rest ih =>
      unfold momentsWith
      rw [lastWorld_append, Step.lastWorld_momentsWith, runAll_cons]
      cases (step.run w).2.1 with
      | some e => rfl
      | none => exact ih _

/-- The last moment of a run is its end. -/
theorem lastWorld_moments (steps : List Step) (w : World) :
    lastWorld w (moments steps w) = (runAll steps w).2.2 :=
  lastWorld_momentsWith Task.moments steps w

/-! ### The blocks that are open -/

/-- An open block: its session, how it was entered, and whether its session has not been reset
since then. -/
structure OpenBlock where
  session : String
  entry : Entry
  current : Bool
  deriving DecidableEq

/-- The block after some sessions have been reset. -/
def OpenBlock.fade (names : List String) (b : OpenBlock) : OpenBlock :=
  { b with current := b.current && decide (b.session ∉ names) }

/-- Open blocks, the outermost first. -/
abbrev Nesting := List OpenBlock

namespace Nesting

/-- The open blocks after some sessions have been reset. -/
def fade (names : List String) (n : Nesting) : Nesting := n.map (OpenBlock.fade names)

/-- The open blocks after one more thing has happened. -/
def after (n : Nesting) : Mark → Nesting
  | .entered session entry => n ++ [⟨session, entry, true⟩]
  | .left _ _ => n.dropLast
  | .done session (.act .reset) => n.fade [session]
  | .done _ _ | .refused _ _ => n

/-- The open blocks after some more things have happened. -/
def run (n : Nesting) (history : List Mark) : Nesting := history.foldl after n

@[simp] theorem run_nil (n : Nesting) : n.run [] = n := rfl

@[simp] theorem run_cons (n : Nesting) (m : Mark) (history : List Mark) :
    n.run (m :: history) = (n.after m).run history := rfl

@[simp] theorem run_append (n : Nesting) (history later : List Mark) :
    n.run (history ++ later) = (n.run history).run later := List.foldl_append

theorem fade_nil (n : Nesting) : n.fade [] = n := by
  unfold fade
  rw [List.map_congr_left (g := id) fun b _ => by simp [OpenBlock.fade], List.map_id]

theorem fade_fade (n : Nesting) (names others : List String) :
    (n.fade names).fade others = n.fade (names ++ others) := by
  unfold fade
  rw [List.map_map]
  refine List.map_congr_left fun b _ => ?_
  simp [OpenBlock.fade, Bool.and_assoc]

theorem fade_append (n others : Nesting) (names : List String) :
    (n ++ others).fade names = n.fade names ++ others.fade names := List.map_append

/-- A task resets its session or leaves the open blocks as they are. -/
theorem after_done (name : String) (task : Task) :
    ∃ names, ∀ n : Nesting, n.after (.done name task) = n.fade names := by
  by_cases h : task = .act .reset
  · exact ⟨[name], fun n => by rw [h]; rfl⟩
  · refine ⟨[], fun n => ?_⟩
    rw [fade_nil]
    unfold after
    split
    · next heq => cases heq
    · next heq => cases heq
    · next heq => cases heq; exact absurd rfl h
    · rfl
    · rfl

end Nesting

/-- The blocks that are open after what has happened in a run. -/
def openBlocks (history : List Mark) : Nesting := Nesting.run [] history

/-- All that becomes of open blocks is that some sessions are reset. -/
def Closed (history : List Mark) : Prop := ∃ names, ∀ n : Nesting, n.run history = n.fade names

theorem closed_nil : Closed [] := ⟨[], fun n => n.fade_nil.symm⟩

theorem Closed.append {history later : List Mark} (h : Closed history) (k : Closed later) :
    Closed (history ++ later) := by
  obtain ⟨names, hnames⟩ := h
  obtain ⟨others, hothers⟩ := k
  refine ⟨names ++ others, fun n => ?_⟩
  rw [Nesting.run_append, hnames, hothers, Nesting.fade_fade]

theorem closed_done (name : String) (task : Task) : Closed [.done name task] :=
  Nesting.after_done name task

theorem closed_refused (name : String) (e : Failure) : Closed [.refused name e] :=
  ⟨[], fun n => n.fade_nil.symm⟩

/-- Leaving a block closes the block that was entered last. -/
theorem Closed.block {history : List Mark} (h : Closed history) (name : String) (entry : Entry) :
    Closed (.entered name entry :: (history ++ [.left name entry])) := by
  obtain ⟨names, hnames⟩ := h
  refine ⟨names, fun n => ?_⟩
  rw [Nesting.run_cons, Nesting.run_append, hnames]
  show (Nesting.fade names (n ++ [_])).dropLast = _
  rw [Nesting.fade_append]
  exact List.dropLast_concat

mutual

/-- The moments of a step leave no block open. -/
theorem Step.closed_momentsWith {inner : String → Task → World → List Moment}
    (hinner : ∀ name task w, Closed (marks (inner name task w))) (step : Step) (w : World) :
    Closed (marks (step.momentsWith inner w)) := by
  cases step with
  | task name raises task =>
      unfold Step.momentsWith marks
      rw [List.map_append]
      exact (hinner name task w).append (closed_done name task)
  | block name raises block body =>
      unfold Step.momentsWith
      cases block.entry with
      | error e => exact closed_refused name e
      | ok entry =>
          have hbody := closed_momentsWith hinner body (w.update name entry.enter)
          simpa only [marks, List.map_cons, List.map_append, List.map_nil] using
            hbody.block name entry

/-- The moments of steps leave no block open, also if a failure ends them early. -/
theorem closed_momentsWith {inner : String → Task → World → List Moment}
    (hinner : ∀ name task w, Closed (marks (inner name task w))) (steps : List Step) (w : World) :
    Closed (marks (momentsWith inner steps w)) := by
  cases steps with
  | nil =>
      unfold momentsWith
      exact closed_nil
  | cons step rest =>
      unfold momentsWith marks
      rw [List.map_append]
      refine (step.closed_momentsWith hinner w).append ?_
      cases (step.run w).2.1 with
      | some e => exact closed_nil
      | none => exact closed_momentsWith hinner rest _

end

theorem Task.closed_moments (name : String) (task : Task) (w : World) :
    Closed (marks (task.moments name w)) :=
  @closed_momentsWith (fun _ _ _ => []) (fun _ _ _ => closed_nil) _ _

/-! ### What every mark keeps -/

mutual

/-- Every task of a step is of the given kind. -/
def Step.Only (T : Task → Prop) : Step → Prop
  | .task _ _ task => T task
  | .block _ _ _ body => onlyAll T body

/-- Every task of the steps is of the given kind. -/
def onlyAll (T : Task → Prop) : List Step → Prop
  | [] => True
  | step :: rest => step.Only T ∧ onlyAll T rest

end

mutual

theorem Step.only_of_forall {T : Task → Prop} (h : ∀ task, T task) (step : Step) :
    step.Only T := by
  cases step with
  | task name raises task => exact h task
  | block name raises block body => exact onlyAll_of_forall h body

theorem onlyAll_of_forall {T : Task → Prop} (h : ∀ task, T task) (steps : List Step) :
    onlyAll T steps := by
  cases steps with
  | nil => exact trivial
  | cons step rest => exact ⟨step.only_of_forall h, onlyAll_of_forall h rest⟩

end

mutual

theorem Step.Only.mono {T U : Task → Prop} (h : ∀ task, T task → U task) {step : Step}
    (hstep : step.Only T) : step.Only U := by
  cases step with
  | task name raises task => exact h task hstep
  | block name raises block body => exact onlyAll.mono h hstep

theorem onlyAll.mono {T U : Task → Prop} (h : ∀ task, T task → U task) {steps : List Step}
    (hsteps : onlyAll T steps) : onlyAll U steps := by
  cases steps with
  | nil => exact trivial
  | cons step rest => exact ⟨Step.Only.mono h hsteps.1, onlyAll.mono h hsteps.2⟩

end

mutual

theorem Step.Only.and {T U : Task → Prop} {step : Step} (hT : step.Only T) (hU : step.Only U) :
    step.Only fun task => T task ∧ U task := by
  cases step with
  | task name raises task => exact ⟨hT, hU⟩
  | block name raises block body => exact onlyAll.and hT hU

/-- Tasks that are of two kinds are of both. -/
theorem onlyAll.and {T U : Task → Prop} {steps : List Step} (hT : onlyAll T steps)
    (hU : onlyAll U steps) : onlyAll (fun task => T task ∧ U task) steps := by
  cases steps with
  | nil => exact trivial
  | cons step rest => exact ⟨Step.Only.and hT.1 hU.1, onlyAll.and hT.2 hU.2⟩

end

/-- A property holds at all moments, given the open blocks before them. -/
def Along (P : Nesting → World → Prop) (n : Nesting) : List Moment → Prop
  | [] => True
  | m :: ms => P (n.after m.mark) m.world ∧ Along P (n.after m.mark) ms

/-- A task that assigns a value or an expression. -/
def Task.Assigns : Task → Prop
  | act (.assignValue _ _ _) | act (.assignExpression _ _) => True
  | _ => False

theorem onlyAll_iff {T : Task → Prop} {steps : List Step} :
    onlyAll T steps ↔ ∀ step ∈ steps, step.Only T := by
  induction steps with
  | nil => simp [onlyAll]
  | cons step rest ih => simp [onlyAll, ih]

theorem onlyAll_append {T : Task → Prop} {steps rest : List Step} :
    onlyAll T (steps ++ rest) ↔ onlyAll T steps ∧ onlyAll T rest := by
  simp only [onlyAll_iff, List.mem_append, or_imp, forall_and]

section Steps

variable {T : Task → Prop} (name : String)

/-- The steps that assign degrees are of a kind if the assignments are. -/
theorem onlyAll_degreeSteps {degrees : OrderedMap String Number} {scope : Document}
    (h : ∀ p ∈ degrees.entries,
      T (.act (.assignValue (.ok (.ofText p.1)) (.ok (.atom p.2.toAtom)) (.ok scope)))) :
    onlyAll T (degreeSteps name degrees scope) := by
  rw [onlyAll_iff]
  intro step hstep
  obtain ⟨p, hp, rfl⟩ := List.mem_map.mp hstep
  exact h p hp

/-- The steps of a gate are of a kind if those for its degrees are and the one for its
expression. -/
theorem onlyAll_gateSteps {g : Gate} {c : GateConfig}
    (hdegrees : onlyAll T (degreeSteps name c.degrees (.atom .null)))
    (hexpr : ∀ e ∈ c.expression,
      T (.act (.assignExpression (.ok (.ofText g.name)) (.ok (.ofExpr e))))) :
    onlyAll T (gateSteps name g c) := by
  refine onlyAll_append.mpr ⟨hdegrees, ?_⟩
  cases hc : c.expression with
  | none => exact trivial
  | some e => exact ⟨hexpr e hc, trivial⟩

/-- The steps of a configuration are of a kind if those of its globals and of its gates are. -/
theorem onlyAll_loadSteps {c : Config}
    (hglobals : onlyAll T (degreeSteps name c.globals (.ofText globalScope)))
    (hgates : ∀ p ∈ c.gates.entries, onlyAll T (gateSteps name p.1 p.2)) :
    onlyAll T (loadSteps name c) := by
  refine onlyAll_append.mpr ⟨hglobals, ?_⟩
  rw [onlyAll_iff]
  intro step hstep
  obtain ⟨p, hp, rfl⟩ := List.mem_map.mp hstep
  exact hgates p hp

/-- The steps inside a task are of a kind if those of the configuration are that it loads. -/
theorem onlyAll_inner {w : World} {task : Task} (h : ∀ d c, task = .act (.load (.ok d)) →
    Config.ofDocument d = .ok c → onlyAll T (loadSteps name c)) :
    onlyAll T (task.inner name w).1 := by
  unfold Task.inner
  split
  · next d =>
      split
      · exact trivial
      · next c hc =>
          split
          · exact trivial
          · exact h d c rfl hc
  · exact trivial

end Steps

/-- The steps of a configuration only assign. -/
theorem onlyAll_assigns_loadSteps (name : String) (c : Config) :
    onlyAll Task.Assigns (loadSteps name c) := by
  refine onlyAll_loadSteps name (onlyAll_degreeSteps name fun _ _ => trivial) fun p _ => ?_
  exact onlyAll_gateSteps name (onlyAll_degreeSteps name fun _ _ => trivial) fun _ _ => trivial

/-- The steps inside a task only assign. -/
theorem onlyAll_assigns_inner (name : String) (w : World) (task : Task) :
    onlyAll Task.Assigns (task.inner name w).1 :=
  onlyAll_inner name fun _ c _ _ => onlyAll_assigns_loadSteps name c

/-- A property of the open blocks and the world is kept by the tasks of a kind and by blocks.
Loading is not asked for: the steps inside a load are of the kind as well. -/
structure Invariant (T : Task → Prop) (P : Nesting → World → Prop) : Prop where
  inner : ∀ {task} name w, T task → onlyAll T (task.inner name w).1
  state : ∀ {n v w}, SameState v w → P n v → P n w
  task : ∀ {n w} name task, T task → (∀ data, task ≠ .act (.load data)) → P n w →
    P (n.after (.done name task)) ((task.perform name).run w).2
  enter : ∀ {n w} name entry, P n w → P (n ++ [⟨name, entry, true⟩]) (w.update name entry.enter)
  leave : ∀ {n v w} names name entry, P n w →
    P (Nesting.fade names (n ++ [⟨name, entry, true⟩])) v →
    P (n.fade names) (v.update name (entry.leave (w.session name)))

theorem along_append {P : Nesting → World → Prop} {n : Nesting} {ms later : List Moment} :
    Along P n (ms ++ later) ↔ Along P n ms ∧ Along P (n.run (marks ms)) later := by
  induction ms generalizing n with
  | nil => simp [Along]
  | cons m ms ih => simp [Along, ih, and_assoc]

/-- A property that holds at first and along some moments holds in the end, with the blocks that
are open then. -/
theorem Along.lastWorld {P : Nesting → World → Prop} {n : Nesting} {w : World}
    {ms : List Moment} (hP : P n w) (h : Along P n ms) :
    P (n.run (marks ms)) (lastWorld w ms) := by
  induction ms generalizing n w with
  | nil => exact hP
  | cons m ms ih =>
      obtain ⟨hm, hrest⟩ := h
      rw [lastWorld_cons]
      exact ih hm hrest

/-- The moments inside a task keep a property, and the task ends with it. -/
def Invariant.Inside (P : Nesting → World → Prop) (inner : String → Task → World → List Moment)
    (name : String) (task : Task) : Prop :=
  ∀ {n w}, P n w → Along P n (inner name task w) ∧
    P ((n.run (marks (inner name task w))).after (.done name task)) ((task.perform name).run w).2

section Runs

variable {T K : Task → Prop} {P : Nesting → World → Prop}
  {inner : String → Task → World → List Moment}

mutual

/-- A step keeps an invariant if its tasks do. -/
theorem Step.along (h : Invariant T P) (hclosed : ∀ name task w, Closed (marks (inner name task w)))
    (hinside : ∀ name task, K task → Invariant.Inside P inner name task) (step : Step)
    (hK : step.Only K) {n : Nesting} {w : World} (hP : P n w) :
    Along P n (step.momentsWith inner w) ∧
      P (n.run (marks (step.momentsWith inner w))) (step.run w).2.2 := by
  cases step with
  | task name raises task =>
      obtain ⟨halong, hdone⟩ := hinside name task hK hP
      have hflush := h.state (alike_flush _).symm.sameState hdone
      unfold Step.momentsWith marks
      rw [along_append, List.map_append, Nesting.run_append, Step.run_task]
      exact ⟨⟨halong, hflush, trivial⟩, hflush⟩
  | block name raises block body =>
      cases hentry : block.entry with
      | error e =>
          have hflush := h.state (alike_flush w).symm.sameState hP
          unfold Step.momentsWith
          rw [Step.run_refused _ _ _ _ hentry, hentry]
          exact ⟨⟨hflush, trivial⟩, hflush⟩
      | ok entry =>
          obtain ⟨halong, hbody⟩ := runAll_along h hclosed hinside body hK (h.enter name entry hP)
          obtain ⟨names, hnames⟩ := closed_momentsWith hclosed body (w.update name entry.enter)
          -- what is open after the body is what was open on entry, some of it reset by now
          rw [hnames] at hbody
          have hleft := h.state (alike_flush _).symm.sameState (h.leave names name entry hP hbody)
          have hafter : ((n ++ [⟨name, entry, true⟩] : Nesting).run
              (marks (momentsWith inner body (w.update name entry.enter)))).after
                (.left name entry) = n.fade names := by
            rw [hnames, Nesting.fade_append]
            exact List.dropLast_concat
          unfold Step.momentsWith
          rw [Step.run_entered _ _ _ _ hentry, hentry]
          simp only [Along, along_append, marks, List.map_cons, List.map_append, List.map_nil,
            Nesting.run_cons, Nesting.run_append, Nesting.run_nil, and_true]
          refine ⟨⟨h.enter name entry hP, halong, ?_⟩, ?_⟩
          · exact hafter ▸ hleft
          · exact hafter ▸ hleft

/-- Steps keep an invariant if their tasks do, also if a failure ends them early. -/
theorem runAll_along (h : Invariant T P)
    (hclosed : ∀ name task w, Closed (marks (inner name task w)))
    (hinside : ∀ name task, K task → Invariant.Inside P inner name task) (steps : List Step)
    (hK : onlyAll K steps) {n : Nesting} {w : World} (hP : P n w) :
    Along P n (momentsWith inner steps w) ∧
      P (n.run (marks (momentsWith inner steps w))) (runAll steps w).2.2 := by
  cases steps with
  | nil =>
      unfold momentsWith
      rw [runAll_nil]
      exact ⟨trivial, hP⟩
  | cons step rest =>
      obtain ⟨halong, hstep⟩ := step.along h hclosed hinside hK.1 hP
      unfold momentsWith marks
      rw [along_append, List.map_append, Nesting.run_append, runAll_cons]
      cases (step.run w).2.1 with
      | some e => exact ⟨⟨halong, trivial⟩, hstep⟩
      | none =>
          obtain ⟨hrest, hend⟩ := runAll_along h hclosed hinside rest hK.2 hstep
          exact ⟨⟨halong, hrest⟩, hend⟩

end

end Runs

section Loads

variable {T : Task → Prop} {P : Nesting → World → Prop}

theorem Task.Assigns.not_load {task : Task} (ht : task.Assigns) (data : Argument) :
    task ≠ .act (.load data) := by
  rintro rfl
  exact ht

/-- The moments inside a task keep an invariant: inside a load they are those of assignments,
and other tasks have none. -/
theorem Invariant.inside (h : Invariant T P) (name : String) (task : Task) (ht : T task) :
    Invariant.Inside P Task.moments name task := by
  intro n w hP
  by_cases hload : ∃ data, task = .act (.load data)
  · obtain ⟨data, rfl⟩ := hload
    -- the steps inside the load are of the kind and only assign, so none of them is a load
    have hinner : onlyAll (fun inside => T inside ∧ inside.Assigns)
        ((Task.act (.load data)).inner name w).1 :=
      (h.inner name w ht).and (onlyAll_assigns_inner name w _)
    have hassign : ∀ name task, T task ∧ task.Assigns →
        Invariant.Inside P (fun _ _ _ => []) name task := fun name task hkind n w hP =>
      ⟨trivial, h.task name task hkind.1 hkind.2.not_load hP⟩
    obtain ⟨halong, hend⟩ := @runAll_along _ _ _ (fun _ _ _ => []) h (fun _ _ _ => closed_nil)
      hassign _ hinner _ _ (h.state (sameState_inner name w _).symm hP)
    exact ⟨halong, h.state (load_follows name data w).1.symm hend⟩
  · have hother : ∀ data, task ≠ .act (.load data) := fun data hdata => hload ⟨data, hdata⟩
    rw [Task.moments_of_not_load name hother]
    exact ⟨trivial, h.task name task ht hother hP⟩

/-- **An invariant holds at every moment** of a run whose tasks are of its kind, also at those
inside the loading of a configuration. -/
theorem Invariant.lastWorld (h : Invariant T P) {steps : List Step} (hT : onlyAll T steps)
    {n : Nesting} {w : World} (hP : P n w) {before later : List Moment}
    (hm : moments steps w = before ++ later) :
    P (n.run (marks before)) (Program.lastWorld w before) := by
  have halong : Along P n (moments steps w) :=
    (runAll_along h Task.closed_moments h.inside steps hT hP).1
  rw [hm] at halong
  exact (along_append.mp halong).1.lastWorld hP

end Loads

end FuzzyGates.Program
