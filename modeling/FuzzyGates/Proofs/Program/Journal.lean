import FuzzyGates.Proofs.Program.Worlds

/-!
# What a run logs

Each row of a run takes the records out of the journal that are new since the row before.  Put
back in front of the journal, in the order of the rows, they are all that has been logged.

* `Row.logged`, `loggedAll` — the records of rows, oldest first.
* `Step.journalAfter`, `journalAfterAll` — the journal after a run with the records of its rows,
  for each kind of step and for steps in a row.
-/

namespace FuzzyGates

theorem Log.Journal.prepend_prepend (first second : List Log.Event) (j : Log.Journal) :
    (j.prepend second).prepend first = j.prepend (first ++ second) := by
  simp [prepend]

theorem Context.restore_prepend (earlier : List Log.Event) (saved : Environment)
    (ctx : Context) : (ctx.prepend earlier).restore saved = (ctx.restore saved).prepend earlier :=
  note_prepend earlier ⟨{ ctx.session with env := saved }, ctx.journal⟩ _

namespace Program

open World

theorem Entry.leave_prepend (earlier : List Log.Event) (before : Session) (entry : Entry)
    (ctx : Context) :
    entry.leave before (ctx.prepend earlier) = (entry.leave before ctx).prepend earlier := by
  cases entry with
  | gate g => exact Context.leaveGate_prepend earlier before.depth g ctx
  | anonymous =>
      show ((ctx.prepend earlier).restore before.env).note .leftAnonymous = _
      rw [Context.restore_prepend, Context.note_prepend]
      rfl

/-! ### The records of rows -/

mutual

/-- The records of a row, after those of its body. -/
def Row.logged : Row → List Log.Event
  | .task _ records _ => records
  | .block _ body _ records _ => loggedAll body ++ records

/-- The records of rows, oldest first. -/
def loggedAll : List Row → List Log.Event
  | [] => []
  | row :: rest => row.logged ++ loggedAll rest

end

theorem loggedAll_append (rows others : List Row) :
    loggedAll (rows ++ others) = loggedAll rows ++ loggedAll others := by
  induction rows with
  | nil => rfl
  | cons row rest ih => rw [List.cons_append, loggedAll, loggedAll, ih, List.append_assoc]

/-- The journal after a step, with the records that its row has taken out of it. -/
def Step.journalAfter (step : Step) (w : World) : Log.Journal :=
  (step.run w).2.2.journal.prepend (step.run w).1.logged

/-- The journal after a run, with the records that its rows have taken out of it. -/
def journalAfterAll (steps : List Step) (w : World) : Log.Journal :=
  (runAll steps w).2.2.journal.prepend (loggedAll (runAll steps w).1)

theorem World.prepend_flush (w : World) :
    w.flush.journal.prepend w.journal.records = w.journal := by
  simp [World.flush, Log.Journal.prepend]

theorem Step.journalAfter_task (name : String) (raises : Bool) (task : Task) (w : World) :
    (Step.task name raises task).journalAfter w = ((task.perform name).run w).2.journal := by
  unfold Step.journalAfter
  rw [Step.run_task]
  exact World.prepend_flush _

theorem Step.journalAfter_refused (name : String) (raises : Bool) {block : Block}
    (body : List Step) (w : World) {e : Failure} (h : block.entry = .error e) :
    (Step.block name raises block body).journalAfter w = w.journal := by
  unfold Step.journalAfter
  rw [Step.run_refused _ _ _ _ h]
  exact World.prepend_flush w

/-- Leaving a block adds to the journal that the run of its body leads to. -/
theorem Step.journalAfter_entered (name : String) (raises : Bool) {block : Block}
    (body : List Step) (w : World) {entry : Entry} (h : block.entry = .ok entry) :
    let inside := w.update name entry.enter
    (Step.block name raises block body).journalAfter w =
      (entry.leave (w.session name)
        ⟨(runAll body inside).2.2.session name, journalAfterAll body inside⟩).journal := by
  intro inside
  let rows := loggedAll (runAll body inside).1
  let after := afterBlock name entry body w
  calc (Step.block name raises block body).journalAfter w
      = after.flush.journal.prepend (rows ++ after.journal.records) := by
        unfold Step.journalAfter
        rw [Step.run_entered _ _ _ _ h]
        rfl
    _ = after.journal.prepend rows := by
        rw [← Log.Journal.prepend_prepend, World.prepend_flush]
    _ = ((entry.leave (w.session name) ((runAll body inside).2.2.context name)).prepend
          rows).journal := rfl
    _ = _ := by
        rw [← Entry.leave_prepend]
        rfl

theorem journalAfterAll_nil (w : World) : journalAfterAll [] w = w.journal := by
  unfold journalAfterAll
  rw [runAll_nil]
  rfl

theorem journalAfterAll_cons (step : Step) (rest : List Step) (w : World) :
    journalAfterAll (step :: rest) w =
      match (step.run w).2.1 with
      | some _ => step.journalAfter w
      | none => (journalAfterAll rest (step.run w).2.2).prepend (step.run w).1.logged := by
  unfold journalAfterAll Step.journalAfter
  rw [runAll_cons]
  cases (step.run w).2.1 with
  | some e =>
      show Log.Journal.prepend ((step.run w).1.logged ++ []) _ = _
      rw [List.append_nil]
  | none => exact (Log.Journal.prepend_prepend _ _ _).symm

theorem journalAfterAll_singleton (step : Step) (w : World) :
    journalAfterAll [step] w = step.journalAfter w := by
  rw [journalAfterAll_cons]
  cases (step.run w).2.1 with
  | some e => rfl
  | none =>
      rw [journalAfterAll_nil]
      rfl

theorem journalAfterAll_append (steps rest : List Step) (w : World) :
    journalAfterAll (steps ++ rest) w =
      match (runAll steps w).2.1 with
      | some _ => journalAfterAll steps w
      | none =>
          (journalAfterAll rest (runAll steps w).2.2).prepend (loggedAll (runAll steps w).1) := by
  unfold journalAfterAll
  rw [runAll_append]
  cases (runAll steps w).2.1 with
  | some e => rfl
  | none =>
      show Log.Journal.prepend (loggedAll (_ ++ _)) _ = _
      rw [loggedAll_append, Log.Journal.prepend_prepend]

end Program

end FuzzyGates
