import FuzzyGates.Proofs.Config.Schema
import FuzzyGates.Proofs.Program.Journal
import FuzzyGates.Proofs.Program.LexicalStack
import FuzzyGates.Proofs.Session.ScopeRecords

/-!
# Records of scopes are well bracketed

Every block that is entered writes one record then and one when it is left, however it is left.
So the records of scopes of a whole run, of all its sessions together, are nested like the blocks
of the run.  A record of entering a gate block and the one of leaving it name the same ambient
scope, unless the session was reset in between: leaving the block cuts the stack back to what it
was on entry.

Blocks that a load opens are among the blocks of the run.  Copying a session loads its export into
a session that nobody else sees, and writes records of its own to the same journal.

* `Balanced` — records of entering and of leaving that are properly nested.
* `Recorded` — which records belong to what has happened in a run.
* `Tells` — a journal goes on with the records that belong to what has happened.
* `tells_load` — loading writes the records that belong to its blocks.
* `Telling`, `tells_runAll` — steps write the records that belong to them if their tasks do.
* **`scope_records_bracketed`** — the records of scopes of every run.
-/

namespace FuzzyGates

/-- Records of scopes in which every entry is closed by one exit, of the same kind and from the
same gate, around records that are balanced themselves. -/
inductive Log.Balanced : List Log.Event → Prop
  | nil : Balanced []
  | gate {inside later : List Event} (g : Gate) (was back : Scope) :
      Balanced inside → Balanced later →
        Balanced (.enteredGate g was :: (inside ++ .leftGate g back :: later))
  | anonymous {inside later : List Event} (saved : Nat) :
      Balanced inside → Balanced later →
        Balanced (.enteredAnonymous saved :: (inside ++ .leftAnonymous :: later))

theorem Log.Balanced.append {records later : List Log.Event} (h : Log.Balanced records)
    (h' : Log.Balanced later) : Log.Balanced (records ++ later) := by
  induction h with
  | nil => exact h'
  | gate g was back hinside _ _ ihlater =>
      rw [List.cons_append, List.append_assoc, List.cons_append]
      exact .gate g was back hinside ihlater
  | anonymous saved hinside _ _ ihlater =>
      rw [List.cons_append, List.append_assoc, List.cons_append]
      exact .anonymous saved hinside ihlater

theorem Session.ambient_eq_of_stack_eq {s t : Session} (h : s.stack = t.stack) :
    s.ambient = t.ambient := by
  unfold Session.ambient
  rw [h]

namespace Program

open World
open Log (scopeRecords Balanced)

/-- The records of scopes that belong to what has happened.  Neither tasks nor blocks that are
refused have any, except that copying a session has those of what happens in the copy, which is
not reset.  A block has one record of its entry and one of its exit around those of what has
happened inside; for a gate block both name the same ambient scope unless its session was reset
inside. -/
inductive Recorded : List Mark → List Log.Event → Prop
  | nil : Recorded [] []
  | done {later : List Mark} {records : List Log.Event} (session : String) (task : Task) :
      Recorded later records → Recorded (.done session task :: later) records
  | copied {copy later : List Mark} {inside records : List Log.Event} (session : String) :
      Recorded copy inside → (∀ name, Mark.done name (.act .reset) ∉ copy) →
        Recorded later records →
          Recorded (.done session (.act .reload) :: later) (inside ++ records)
  | refused {later : List Mark} {records : List Log.Event} (session : String) (e : Failure) :
      Recorded later records → Recorded (.refused session e :: later) records
  | gate {within later : List Mark} {inside records : List Log.Event} (session : String)
      (g : Gate) (was back : Scope) :
      Recorded within inside → (Mark.done session (.act .reset) ∉ within → back = was) →
        Recorded later records →
          Recorded (.entered session (.gate g) :: (within ++ .left session (.gate g) :: later))
            (.enteredGate g was :: (inside ++ .leftGate g back :: records))
  | anonymous {within later : List Mark} {inside records : List Log.Event} (session : String)
      (saved : Nat) :
      Recorded within inside → Recorded later records →
        Recorded (.entered session .anonymous :: (within ++ .left session .anonymous :: later))
          (.enteredAnonymous saved :: (inside ++ .leftAnonymous :: records))

namespace Recorded

variable {history later : List Mark} {records more : List Log.Event}

theorem append (h : Recorded history records) (h' : Recorded later more) :
    Recorded (history ++ later) (records ++ more) := by
  induction h with
  | nil => exact h'
  | done session task _ ih => exact .done session task ih
  | copied session hcopy hreset _ _ ih =>
      rw [List.cons_append, List.append_assoc]
      exact .copied session hcopy hreset ih
  | refused session e _ ih => exact .refused session e ih
  | gate session g was back hwithin hsame _ _ ih =>
      simp only [List.cons_append, List.append_assoc]
      exact .gate session g was back hwithin hsame ih
  | anonymous session saved hwithin _ _ ih =>
      simp only [List.cons_append, List.append_assoc]
      exact .anonymous session saved hwithin ih

/-- **What belongs to a run is balanced.** -/
theorem balanced (h : Recorded history records) : Balanced records := by
  induction h with
  | nil => exact .nil
  | done _ _ _ ih => exact ih
  | copied _ _ _ _ ihcopy ih => exact ihcopy.append ih
  | refused _ _ _ ih => exact ih
  | gate _ g was back _ _ _ ihwithin ih => exact .gate g was back ihwithin ih
  | anonymous _ saved _ _ ihwithin ih => exact .anonymous saved ihwithin ih

end Recorded

/-- A journal goes on with the records of scopes that belong to what has happened. -/
def Tells (before : Log.Journal) (history : List Mark) (after : Log.Journal) : Prop :=
  ∃ records, before.Grows records after ∧ Recorded history records

namespace Tells

variable {j k l : Log.Journal} {history later : List Mark}

theorem append (h : Tells j history k) (h' : Tells k later l) : Tells j (history ++ later) l := by
  obtain ⟨records, hgrows, hrecorded⟩ := h
  obtain ⟨more, hgrows', hrecorded'⟩ := h'
  exact ⟨records ++ more, hgrows.trans hgrows', hrecorded.append hrecorded'⟩

theorem prepend (h : Tells j history k) (earlier : List Log.Event) :
    Tells (j.prepend earlier) history (k.prepend earlier) := by
  obtain ⟨records, hgrows, hrecorded⟩ := h
  exact ⟨records, hgrows.prepend earlier, hrecorded⟩

theorem logger (h : Tells j history k) : k.logger = j.logger := by
  obtain ⟨records, hgrows, -⟩ := h
  exact hgrows.logger

/-- What is added to the journal besides may be anything but records of scopes. -/
theorem quiet (h : Tells j history k) (hquiet : k.Grows [] l) : Tells j history l := by
  obtain ⟨records, hgrows, hrecorded⟩ := h
  refine ⟨records, ?_, hrecorded⟩
  rw [← List.append_nil records]
  exact hgrows.trans hquiet

theorem nil (j : Log.Journal) : Tells j [] j := ⟨[], .refl j, .nil⟩

theorem done (session : String) (task : Task) (h : j.Grows [] k) :
    Tells j [.done session task] k := ⟨[], h, .done session task .nil⟩

theorem refused (session : String) (e : Failure) (j : Log.Journal) :
    Tells j [.refused session e] j := ⟨[], .refl j, .refused session e .nil⟩

end Tells

/-- The logger lets all records of scopes through. -/
def World.Debugging (w : World) : Prop :=
  w.journal.logger.passes Log.LevelName.debug.severity = true

theorem World.Debugging.of_logger_eq {v w : World} (h : w.Debugging)
    (hlogger : v.journal.logger = w.journal.logger) : v.Debugging := by
  unfold Debugging
  rw [hlogger]
  exact h

/-! ### Blocks -/

theorem logger_update_enter (w : World) (name : String) (entry : Entry) :
    (w.update name entry.enter).journal.logger = w.journal.logger := by
  cases entry <;> exact (Context.agree_note (w.context name) _).logger

/-- Leaving a block that was not reset inside names the scope that was ambient on entry. -/
theorem ambient_of_leave {s before : Session} {g : Gate} (h : s.stack = before.stack ++ [g]) :
    ({ s with stack := s.stack.take before.depth } : Session).ambient = before.ambient := by
  refine Session.ambient_eq_of_stack_eq ?_
  show s.stack.take before.stack.length = before.stack
  rw [h, List.take_left]

/-- A block writes the records that belong to it if its body does. -/
theorem tells_block {name : String} (raises : Bool) {block : Block} {body : List Step}
    {entry : Entry} {w : World} {within : List Mark} (hentry : block.entry = .ok entry)
    (hdebug : w.Debugging)
    (hbody : Tells (w.update name entry.enter).journal within
      (journalAfterAll body (w.update name entry.enter)))
    (hstack : Mark.done name (.act .reset) ∉ within →
      ((runAll body (w.update name entry.enter)).2.2.session name).stack =
        ((w.update name entry.enter).session name).stack) :
    Tells w.journal (.entered name entry :: (within ++ [.left name entry]))
      ((Step.block name raises block body).journalAfter w) := by
  obtain ⟨records, hgrows, hrecorded⟩ := hbody
  rw [Step.journalAfter_entered _ _ _ _ hentry]
  let inside := w.update name entry.enter
  let before := w.session name
  let s := (runAll body inside).2.2.session name
  cases entry with
  | gate g =>
      let back := ({ s with stack := s.stack.take before.depth } : Session).ambient
      have hentered : w.journal.Grows [.enteredGate g before.ambient] inside.journal :=
        .note_scope rfl hdebug
      have hlogger := hgrows.logger.trans hentered.logger
      have hleft := Log.Journal.Grows.note_scope (e := .leftGate g back) rfl
        (j := journalAfterAll body inside) (by rw [hlogger]; exact hdebug)
      refine ⟨_, (hentered.trans hgrows).trans hleft, ?_⟩
      have hsame : Mark.done name (.act .reset) ∉ within → back = before.ambient := by
        intro hreset
        refine ambient_of_leave (g := g) ((hstack hreset).trans ?_)
        rw [session_update, if_pos rfl]
        rfl
      exact .gate name g before.ambient back hrecorded hsame .nil
  | anonymous =>
      have hentered : w.journal.Grows [.enteredAnonymous before.env.variableCount]
          inside.journal := .note_scope rfl hdebug
      have hlogger := hgrows.logger.trans hentered.logger
      have hrestored := Log.Journal.Grows.note
        (e := .restored before.env.globals.size before.env.scopes.size) rfl
        (journalAfterAll body inside)
      have hleft := Log.Journal.Grows.note_scope (e := .leftAnonymous) rfl
        (j := (journalAfterAll body inside).note _)
        (by rw [hrestored.logger, hlogger]; exact hdebug)
      refine ⟨_, ((hentered.trans hgrows).trans hrestored).trans hleft, ?_⟩
      rw [List.append_nil]
      exact .anonymous name _ hrecorded .nil

/-! ### Steps -/

/-- Tasks of a kind write the records that belong to them, those inside them being given, and keep
the stacks those of the open blocks. -/
structure Telling (K : Task → Prop) (inner : String → Task → World → List Moment) : Prop where
  closed : ∀ session task w, Closed (marks (inner session task w))
  stacked : ∀ name session task, K task →
    Invariant.Inside (Nesting.Stacked name) inner session task
  task : ∀ {w : World} session task, w.Debugging → K task →
    Tells w.journal (marks (inner session task w) ++ [.done session task])
      ((task.perform session).run w).2.journal

section Steps

variable {K : Task → Prop} {inner : String → Task → World → List Moment}

mutual

/-- A step writes the records that belong to it if its tasks do. -/
theorem Step.tells (h : Telling K inner) (step : Step) (hK : step.Only K) {w : World}
    (hdebug : w.Debugging) :
    Tells w.journal (marks (step.momentsWith inner w)) (step.journalAfter w) := by
  cases step with
  | task name raises task =>
      unfold Step.momentsWith marks
      rw [List.map_append, Step.journalAfter_task]
      exact h.task name task hdebug hK
  | block name raises block body =>
      unfold Step.momentsWith
      cases hentry : block.entry with
      | error e =>
          rw [Step.journalAfter_refused _ _ _ _ hentry]
          exact .refused name e w.journal
      | ok entry =>
          have hinside := hdebug.of_logger_eq (logger_update_enter w name entry)
          have hbody := tells_runAll h body hK hinside
          have hblock := tells_block raises hentry hdebug hbody fun hreset =>
            stack_eq_of_not_reset h.closed (h.stacked name) hK hreset
          simpa only [marks, List.map_cons, List.map_append, List.map_nil] using hblock

/-- **Steps write the records that belong to them** if their tasks do, also if a failure ends them
early. -/
theorem tells_runAll (h : Telling K inner) (steps : List Step) (hK : onlyAll K steps) {w : World}
    (hdebug : w.Debugging) :
    Tells w.journal (marks (momentsWith inner steps w)) (journalAfterAll steps w) := by
  cases steps with
  | nil =>
      unfold momentsWith
      rw [journalAfterAll_nil]
      exact .nil w.journal
  | cons step rest =>
      have hstep := step.tells h hK.1 hdebug
      unfold momentsWith marks
      rw [List.map_append, journalAfterAll_cons]
      cases (step.run w).2.1 with
      | some e => exact hstep.append (.nil _)
      | none =>
          -- the row of the step has the records that its journal no longer has
          have hnext : (step.run w).2.2.Debugging := hdebug.of_logger_eq hstep.logger
          exact hstep.append ((tells_runAll h rest hK.2 hnext).prepend _)

end

end Steps

/-! ### Tasks -/

/-- A load leaves the logger alone if the configuration that it is given does not turn logging
on. -/
def Task.LeavesLogging : Task → Prop
  | act (.load (.ok data)) => ∀ c, Config.ofDocument data = .ok c → c.logging.enabled = false
  | _ => True

/-- A task has no records of scopes if it neither loads nor copies. -/
theorem tells_task (name : String) {task : Task} (hload : ∀ data, task ≠ .act (.load data))
    (hreload : task ≠ .act .reload) (w : World) :
    Tells w.journal [.done name task] ((task.perform name).run w).2.journal := by
  refine .done name task ?_
  cases task with
  | act a =>
      rw [run_perform_act, run_onSession]
      exact Action.quiet (fun data h => hload data (congrArg _ h)) (fun h => hreload (congrArg _ h))
        (w.context name)
  | snapshot slot => exact .refl w.journal
  | showSnapshot slot =>
      rw [run_perform_showSnapshot]
      cases w.snapshots.get? slot <;> exact .refl w.journal
  | restore slot =>
      rw [run_perform_restore]
      cases w.snapshots.get? slot with
      | none => exact .refl w.journal
      | some env => exact .note rfl w.journal

/-- Assignments have no records of scopes. -/
theorem telling_assigns : Telling Task.Assigns fun _ _ _ => [] where
  closed _ _ _ := closed_nil
  stacked name session task hassigns n w h :=
    ⟨trivial, (stacked_invariant name).task session task trivial hassigns.not_load h⟩
  task {w} session task _ hassigns := by
    refine tells_task session hassigns.not_load ?_ w
    rintro rfl
    exact hassigns

/-- Without logging turned on there is nothing to configure. -/
theorem run_applyLogging_of_disabled {o : LoggingOptions} (h : o.enabled = false)
    (ctx : Context) : (Session.applyLogging o).run ctx = (.ok (), ctx) := by
  unfold Session.applyLogging
  rw [h]
  rfl

/-- Loading writes the records that belong to the blocks of the configuration. -/
theorem tells_load (name : String) {c : Config} (hlogging : c.logging.enabled = false) {w : World}
    (hdebug : w.Debugging) :
    Tells w.journal (marks (momentsWith (fun _ _ _ => []) (loadSteps name c) w))
      ((Session.load c).run (w.context name)).2.journal := by
  have hsteps := tells_runAll telling_assigns _ (onlyAll_assigns_loadSteps name c) hdebug
  have hcontents : ((loadContents c).run (w.context name)).2.journal =
      journalAfterAll (loadSteps name c) w :=
    congrArg Context.journal ((mirrors_loadContents name c).context w)
  rw [← hcontents] at hsteps
  rw [load_eq_bind, run_bind, run_applyLogging_of_disabled hlogging]
  dsimp only
  rw [run_bind]
  rcases hload : (loadContents c).run (w.context name) with ⟨e | _, after⟩
  · rw [hload] at hsteps
    exact hsteps
  · rw [hload] at hsteps
    exact hsteps.quiet (.note rfl after.journal)

mutual

/-- What a step does are its tasks, if the moments inside these are left out. -/
theorem Step.of_done_mem_marks {T : Task → Prop} (step : Step) (hT : step.Only T) {w : World}
    {session : String} {task : Task}
    (h : Mark.done session task ∈ marks (step.momentsWith (fun _ _ _ => []) w)) : T task := by
  cases step with
  | task name raises task =>
      unfold Step.momentsWith at h
      cases List.mem_singleton.mp h
      exact hT
  | block name raises block body =>
      unfold Step.momentsWith at h
      cases hentry : block.entry with
      | error e =>
          rw [hentry] at h
          cases List.mem_singleton.mp h
      | ok entry =>
          rw [hentry] at h
          simp only [marks, List.map_cons, List.map_append, List.map_nil, List.mem_cons,
            List.mem_append, reduceCtorEq, List.not_mem_nil, or_false, false_or] at h
          exact of_done_mem_marks body hT h

theorem of_done_mem_marks {T : Task → Prop} (steps : List Step) (hT : onlyAll T steps) {w : World}
    {session : String} {task : Task}
    (h : Mark.done session task ∈ marks (momentsWith (fun _ _ _ => []) steps w)) : T task := by
  cases steps with
  | nil =>
      unfold momentsWith at h
      cases h
  | cons step rest =>
      unfold momentsWith marks at h
      rw [List.map_append, List.mem_append] at h
      rcases h with h | h
      · exact step.of_done_mem_marks hT.1 h
      · cases hfailure : (step.run w).2.1 with
        | some e =>
            rw [hfailure] at h
            cases h
        | none =>
            rw [hfailure] at h
            exact of_done_mem_marks rest hT.2 h

end

/-- An export asks for no logging. -/
theorem logging_of_export {e : Export} {c : Config}
    (h : Config.ofDocument e.toDocument = .ok c) : c.logging = {} :=
  ((Config.ofDocument_eq_ok_iff_describes (by simp [Document.field?])).mp h).1

/-- Copying a session writes the records of what happens in the copy. -/
theorem tells_reload (name : String) {w : World} (hdebug : w.Debugging) :
    Tells w.journal [.done name (.act .reload)]
      (((Task.act .reload).perform name).run w).2.journal := by
  have hperform : (((Task.act .reload).perform name).run w).2.journal =
      (Session.reloaded.run (w.context name)).2.journal := by
    show ((Session.reloaded >>= fun r => pure (Reply.reloaded r.1 r.2)).run
      (w.context name)).2.journal = _
    rw [run_bind]
    rcases Session.reloaded.run (w.context name) with ⟨_ | _, after⟩ <;> rfl
  rw [hperform]
  rcases Session.journal_reloaded (w.context name) with hsame | ⟨e, c, hconfig, hloaded⟩
  · rw [hsame]
    exact .done name _ (.refl w.journal)
  · rw [hloaded]
    -- the copy, in the place of the session that it is made of
    let copy := w.withContext name ⟨.fresh, w.journal⟩
    have hcontext : copy.context name = ⟨.fresh, w.journal⟩ := context_withContext w name _
    have hlogging : c.logging.enabled = false := by rw [logging_of_export hconfig]
    have hload := tells_load name hlogging (w := copy) hdebug
    rw [hcontext] at hload
    obtain ⟨records, hgrows, hrecorded⟩ := hload
    refine ⟨records, hgrows, ?_⟩
    have hreset : ∀ session, Mark.done session (.act .reset) ∉
        marks (momentsWith (fun _ _ _ => []) (loadSteps name c) copy) := fun session hmem =>
      of_done_mem_marks _ (onlyAll_assigns_loadSteps name c) hmem
    have hcopied := Recorded.copied name hrecorded hreset .nil
    rwa [List.append_nil] at hcopied

/-- A load writes the records of the blocks of the configuration, and none if the data are
refused. -/
theorem tells_load_task (name : String) {data : Argument} {w : World}
    (hlogging : (Task.act (.load data)).LeavesLogging) (hdebug : w.Debugging) :
    Tells w.journal (marks ((Task.act (.load data)).moments name w))
      (((Task.act (.load data)).perform name).run w).2.journal := by
  cases data with
  | error e => exact .nil w.journal
  | ok d =>
      have hperform : (((Task.act (.load (.ok d))).perform name).run w).2.journal =
          ((Action.load (.ok d)).perform.run (w.context name)).2.journal := rfl
      rw [hperform, run_perform_load]
      cases hconfig : Config.ofDocument d with
      | error e =>
          have hinner : (Task.act (.load (.ok d))).inner name w = ([], w) := by
            simp only [Task.inner, hconfig]
          unfold Task.moments
          rw [hinner]
          exact .nil w.journal
      | ok c =>
          let v := w.withContext name (w.context name)
          have hcontext : v.context name = w.context name := context_withContext w name _
          have hinner : (Task.act (.load (.ok d))).inner name w = (loadSteps name c, v) := by
            simp only [Task.inner, hconfig, run_applyLogging_of_disabled (hlogging c hconfig), v]
          have hload := tells_load name (hlogging c hconfig) (w := v) hdebug
          rw [hcontext] at hload
          unfold Task.moments
          rw [hinner]
          dsimp only
          rw [run_silently]
          rcases hrun : (Session.load c).run (w.context name) with ⟨_ | _, after⟩
          · rw [hrun] at hload
            exact hload
          · rw [hrun] at hload
            exact hload

/-- **Tasks write the records of scopes that belong to them.** -/
theorem telling_runs : Telling Task.LeavesLogging Task.moments where
  closed := Task.closed_moments
  stacked name session task _ := (stacked_invariant name).inside session task trivial
  task {w} session task hdebug hlogging := by
    by_cases hload : ∃ data, task = .act (.load data)
    · obtain ⟨data, rfl⟩ := hload
      exact (tells_load_task session hlogging hdebug).append (.done session _ (.refl _))
    · have hother : ∀ data, task ≠ .act (.load data) := fun data hdata => hload ⟨data, hdata⟩
      rw [Task.moments_of_not_load session hother]
      by_cases hreload : task = .act .reload
      · rw [hreload]
        exact tells_reload session hdebug
      · exact tells_task session hother hreload w

/-! ### Runs -/

/-- **Records of scopes are well bracketed.**  The records of scopes that a run logs, in all its
sessions, are balanced: each entry is closed by one exit of the same kind and from the same gate,
however the block ends.  They are those that belong to what happens in the run, so that a gate
block names the same ambient scope on entry and on exit unless its session was reset inside.  A
block that is refused logs nothing. -/
theorem scope_records_bracketed {w : World} {program : List Step} (hdebug : w.Debugging)
    (hempty : w.journal.records = []) (hlogging : onlyAll Task.LeavesLogging program) :
    let records := scopeRecords (journalAfterAll program w).records
    Balanced records ∧ Recorded (marks (moments program w)) records ∧
      ∀ name raises block body v e, Block.entry block = .error e →
        (Step.block name raises block body).journalAfter v = v.journal := by
  intro records
  obtain ⟨added, hgrows, hrecorded⟩ := tells_runAll telling_runs program hlogging hdebug
  have hrecords : records = added := by
    show scopeRecords (journalAfterAll program w).records = added
    rw [hgrows.records, hempty]
    rfl
  rw [hrecords]
  exact ⟨hrecorded.balanced, hrecorded, fun name raises block body v e hentry =>
    Step.journalAfter_refused name raises body v hentry⟩

/-- A reset inside two blocks, around one of another session; a block that is refused, a load, an
anonymous scope that fails, and a copy of a session with a gate. -/
theorem scope_records_bracketed_after_reset :
    let gate (session name : String) (body : List Step) :=
      Step.block session false (.gate (.ok (.ofText name))) body
    let data : Document := .mapping [(.text "gates", .mapping [(.text "c", .mapping [])])]
    let outer := gate "s" "a" [
      gate "t" "d" [gate "s" "b" [.task "s" false (.act .reset)]],
      gate "s" globalScope [.task "s" false (.act .reset)],
      .block "s" true .anonymous [
        .task "s" false (.act (.load (.ok data))),
        .task "s" false (.act (.abort "stop"))],
      gate "s" "b" []]
    let program : List Step := [
      outer,
      .task "t" false (.act (.assignIn "x" (.ok 1) "d")),
      .task "t" false (.act .reload)]
    let w := World.start 10
    let a : Gate := ⟨"a", by decide, by decide⟩
    let b : Gate := ⟨"b", by decide, by decide⟩
    let c : Gate := ⟨"c", by decide, by decide⟩
    let d : Gate := ⟨"d", by decide, by decide⟩
    let records := scopeRecords (journalAfterAll program w).records
    (w.Debugging ∧ w.journal.records = [] ∧ onlyAll Task.LeavesLogging program) ∧
      records = [.enteredGate a .global, .enteredGate d .global, .enteredGate b (.gate a),
        .leftGate b .global, .leftGate d .global, .enteredAnonymous 0, .enteredGate c .global,
        .leftGate c .global, .leftAnonymous, .leftGate a .global, .enteredGate d .global,
        .leftGate d .global] ∧
      Balanced records ∧ Recorded (marks (moments program w)) records := by
  intro gate data outer program w a b c d records
  have hdebug : w.Debugging := rfl
  have hload : (Task.act (.load (.ok data))).LeavesLogging := by
    have hdata : Config.ofDocument data = .ok ⟨{}, ∅, .ofList [(c, ⟨∅, none⟩)]⟩ := rfl
    intro config hconfig
    cases hdata.symm.trans hconfig
    rfl
  have houter : outer.Only Task.LeavesLogging :=
    ⟨⟨⟨trivial, trivial⟩, trivial⟩, ⟨trivial, trivial⟩, ⟨hload, trivial, trivial⟩, trivial, trivial⟩
  have hlogging : onlyAll Task.LeavesLogging program := ⟨houter, trivial, trivial, trivial⟩
  have h := scope_records_bracketed hdebug rfl hlogging
  exact ⟨⟨hdebug, rfl, hlogging⟩, by decide +kernel, h.1, h.2.1⟩

end Program

end FuzzyGates
