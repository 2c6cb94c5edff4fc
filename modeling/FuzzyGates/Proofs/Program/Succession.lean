import FuzzyGates.Proofs.Program.Moments

/-!
# What one moment makes of the one before

A run is a succession of worlds, each made of the one before by what has just happened.  A
law for the single mark, stated for the world before and the world after, then holds between
all successive moments of all runs, those inside the loading of a configuration included.

* `Linked` — a relation holds between all successive moments.
* `Law` — a relation between the worlds around a mark that every mark obeys, by its kind.
* **`Law.linked`** — every run is linked by every law.
* `Law.lastWorld_eq` — a part of the world is what the marks make of it one after the other.
-/

namespace FuzzyGates.Program

open World

/-- A relation between the worlds around a mark holds from moment to moment. -/
def Linked (R : World → Mark → World → Prop) : World → List Moment → Prop
  | _, [] => True
  | w, m :: ms => R w m.mark m.world ∧ Linked R m.world ms

/-- A relation holds between the worlds around every mark.  It must not depend on logging.  Loading
is asked for its end only: what it assigns are marks of their own. -/
structure Law (R : World → Mark → World → Prop) : Prop where
  state : ∀ {v v' w w' mark}, SameState v v' → SameState w w' → R v mark w → R v' mark w'
  task : ∀ (w : World) (name : String) (task : Task), (∀ data, task ≠ .act (.load data)) →
    R w (.done name task) ((task.perform name).run w).2
  loaded : ∀ w name data, R w (.done name (.act (.load data))) w
  enter : ∀ (w : World) (name : String) (entry : Entry),
    R w (.entered name entry) (w.update name entry.enter)
  leave : ∀ (v w : World) (name : String) (entry : Entry),
    R v (.left name entry) (v.update name (entry.leave (w.session name)))
  refused : ∀ w name e, R w (.refused name e) w

variable {R : World → Mark → World → Prop}

theorem linked_append {w : World} {ms later : List Moment} :
    Linked R w (ms ++ later) ↔ Linked R w ms ∧ Linked R (lastWorld w ms) later := by
  induction ms generalizing w with
  | nil => simp [Linked, lastWorld]
  | cons m ms ih => rw [List.cons_append, Linked, Linked, ih, lastWorld_cons, and_assoc]

/-- The world that a succession starts from may be replaced by one in the same state. -/
theorem Linked.state (h : Law R) {v w : World} (hvw : SameState v w) {ms : List Moment}
    (hlinked : Linked R v ms) : Linked R w ms := by
  cases ms with
  | nil => exact trivial
  | cons m ms => exact ⟨h.state hvw (Alike.refl _).sameState hlinked.1, hlinked.2⟩

theorem sameState_lastWorld {v w : World} (h : SameState v w) (ms : List Moment) :
    SameState (lastWorld v ms) (lastWorld w ms) := by
  unfold lastWorld
  cases ms.getLast? with
  | none => exact h
  | some m => exact (Alike.refl _).sameState

/-- The moments inside a task and the one after it are linked. -/
def Law.Inside (R : World → Mark → World → Prop) (inner : String → Task → World → List Moment)
    (name : String) (task : Task) : Prop :=
  ∀ w, Linked R w (inner name task w ++ [⟨.done name task, ((task.perform name).run w).2⟩])

section Runs

variable {K : Task → Prop} {inner : String → Task → World → List Moment}

mutual

/-- The moments of a step are linked if those of its tasks are. -/
theorem Step.linked (h : Law R) (hinside : ∀ name task, K task → Law.Inside R inner name task)
    (step : Step) (hK : step.Only K) (w : World) : Linked R w (step.momentsWith inner w) := by
  cases step with
  | task name raises task =>
      have hdone := linked_append.mp (hinside name task hK w)
      have hflush := (alike_flush ((task.perform name).run w).2).symm.sameState
      unfold Step.momentsWith
      rw [linked_append]
      exact ⟨hdone.1, h.state (Alike.refl _).sameState hflush hdone.2.1, trivial⟩
  | block name raises block body =>
      unfold Step.momentsWith
      cases block.entry with
      | error e =>
          have hflush := (alike_flush w).symm.sameState
          exact ⟨h.state (Alike.refl _).sameState hflush (h.refused w name e), trivial⟩
      | ok entry =>
          have hbody := linked_momentsWith h hinside body hK (w.update name entry.enter)
          have hflush := (alike_flush (afterBlock name entry body w)).symm.sameState
          refine ⟨h.enter w name entry, linked_append.mpr ⟨hbody, ?_, trivial⟩⟩
          rw [lastWorld_momentsWith]
          exact h.state (Alike.refl _).sameState hflush (h.leave _ w name entry)

/-- The moments of steps are linked if those of their tasks are, also if a failure ends them
early. -/
theorem linked_momentsWith (h : Law R)
    (hinside : ∀ name task, K task → Law.Inside R inner name task) (steps : List Step)
    (hK : onlyAll K steps) (w : World) : Linked R w (momentsWith inner steps w) := by
  cases steps with
  | nil =>
      unfold momentsWith
      exact trivial
  | cons step rest =>
      unfold momentsWith
      rw [linked_append, Step.lastWorld_momentsWith]
      refine ⟨step.linked h hinside hK.1 w, ?_⟩
      cases (step.run w).2.1 with
      | some e => exact trivial
      | none => exact linked_momentsWith h hinside rest hK.2 _

end

end Runs

/-- Inside a load the moments are those of assignments, and other tasks have none inside. -/
theorem Law.inside (h : Law R) (name : String) (task : Task) :
    Law.Inside R Task.moments name task := by
  intro w
  by_cases hload : ∃ data, task = .act (.load data)
  · obtain ⟨data, rfl⟩ := hload
    have hassign : ∀ name task, Task.Assigns task → Law.Inside R (fun _ _ _ => []) name task :=
      fun name task hassigns w => ⟨h.task w name task hassigns.not_load, trivial⟩
    have hstart := sameState_inner name w (.act (.load data))
    have hkind := onlyAll_assigns_inner name w (.act (.load data))
    have hlinked := linked_momentsWith h hassign _ hkind (Task.inner name w (.act (.load data))).2
    -- the load ends in the world in which its last assignment ends
    have hend := sameState_lastWorld hstart (Task.moments name (.act (.load data)) w)
    unfold Task.moments at hend
    rw [lastWorld_momentsWith] at hend
    have hsame := hend.symm.trans (load_follows name data w).1.symm
    refine linked_append.mpr ⟨hlinked.state h hstart, ?_, trivial⟩
    exact h.state (Alike.refl _).sameState hsame (h.loaded _ name data)
  · have hother : ∀ data, task ≠ .act (.load data) := fun data hdata => hload ⟨data, hdata⟩
    rw [Task.moments_of_not_load name hother]
    exact ⟨h.task w name task hother, trivial⟩

/-- **Every run is linked by every law**, from moment to moment. -/
theorem Law.linked (h : Law R) (steps : List Step) (w : World) : Linked R w (moments steps w) :=
  linked_momentsWith h (fun name task _ => h.inside name task) steps
    (onlyAll_of_forall (fun _ => trivial) steps) w

/-- If every mark says what becomes of a part of the world, so does what has happened up to a
moment. -/
theorem Law.lastWorld_eq {σ : Type} {part : World → σ} {next : σ → Mark → σ}
    (h : Law fun v mark w => part w = next (part v) mark) {steps : List Step} {w : World}
    {before later : List Moment} (hrun : moments steps w = before ++ later) :
    part (lastWorld w before) = (marks before).foldl next (part w) := by
  have hlinked := h.linked steps w
  rw [hrun, linked_append] at hlinked
  replace hlinked := hlinked.1
  clear hrun
  induction before generalizing w with
  | nil => rfl
  | cons m ms ih =>
      rw [lastWorld_cons, ih hlinked.2, hlinked.1]
      rfl

end FuzzyGates.Program
