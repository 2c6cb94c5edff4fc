import FuzzyGates.Proofs.OrderedMap
import FuzzyGates.Proofs.Program.Moments

/-!
# Regular environments

An environment is regular if no scope and no variable has an empty name and no scope is
empty.  Then its scopes are those of gates.  A session that binds variables by assignments,
and directly only under names, stays regular, whatever blocks it enters and leaves and
whichever snapshots it restores.

* `Environment.Regular` — the property, with one lemma for every change.
* `Environment.gateScopes` — the scopes by gates; `map_gateScopes` for regular ones.
* `Task.Named` — the tasks that put no nameless binding into an environment.
* **`regular_of_named`** — at every moment of a run of such tasks all sessions and all
  snapshots have regular environments.
* `Task.Indirect`, `regular_of_indirect` — the tasks that put no bindings into an environment
  directly, as a special case.
-/

namespace FuzzyGates

theorem Gate.ofName?_eq_some_iff {s : String} {g : Gate} : ofName? s = some g ↔ g.name = s := by
  constructor
  · intro h
    unfold ofName? at h
    split at h
    · cases h
    · split at h
      · cases h
      · cases h
        rfl
  · rintro rfl
    exact ofName?_name g

/-- Gates are different exactly if their names are. -/
theorem Gate.nodup_names_iff {α : Type} {l : List α} {gate : α → Gate} :
    (l.map fun a => (gate a).name).Nodup ↔ (l.map gate).Nodup := by
  rw [List.Nodup, List.Nodup, List.pairwise_map, List.pairwise_map]
  constructor
  · exact fun h => h.imp fun hne hgate => hne (congrArg Gate.name hgate)
  · exact fun h => h.imp fun hne hname => hne (Gate.ext hname)

namespace Environment

/-- No scope and no variable has an empty name, and every scope binds something. -/
structure Regular (env : Environment) : Prop where
  globals_named : "" ∉ env.globals.keys
  scopes_named : "" ∉ env.scopes.keys
  scope_nonempty : ∀ p ∈ env.scopes.entries, p.2.entries ≠ []
  scope_named : ∀ p ∈ env.scopes.entries, "" ∉ p.2.keys

theorem regular_empty : (∅ : Environment).Regular where
  globals_named := List.not_mem_nil
  scopes_named := List.not_mem_nil
  scope_nonempty _ hp := absurd hp List.not_mem_nil
  scope_named _ hp := absurd hp List.not_mem_nil

theorem Regular.scope_keys {env : Environment} (h : env.Regular) (gate : String) :
    "" ∉ (env.scope gate).keys := by
  unfold scope
  cases hget : env.scopes.get? gate with
  | none => exact List.not_mem_nil
  | some b => exact h.scope_named _ (OrderedMap.get?_eq_some_iff.mp hget)

/-- Binding a named variable of a named scope keeps an environment regular. -/
theorem Regular.assign {env : Environment} (h : env.Regular) {name scope : String} (x : Degree)
    (hname : name ≠ "") (hscope : scope ≠ "") : (env.assign name x scope).Regular := by
  unfold Environment.assign
  split
  · exact ⟨OrderedMap.not_mem_keys_insert x h.globals_named hname.symm, h.scopes_named,
      h.scope_nonempty, h.scope_named⟩
  · refine ⟨h.globals_named, OrderedMap.not_mem_keys_insert _ h.scopes_named hscope.symm, ?_, ?_⟩
    · intro p hp
      rcases OrderedMap.mem_upsert hp with rfl | hp
      · exact OrderedMap.entries_insert_ne_nil _ _ _
      · exact h.scope_nonempty p hp
    · intro p hp
      rcases OrderedMap.mem_upsert hp with rfl | hp
      · exact OrderedMap.not_mem_keys_insert x (h.scope_keys scope) hname.symm
      · exact h.scope_named p hp

/-- The scopes with the gates that they are named after. -/
def gateScopes (env : Environment) : List (Gate × Bindings) :=
  env.scopes.entries.filterMap fun p => (Gate.ofName? p.1).map fun g => (g, p.2)

theorem mem_gateScopes {env : Environment} {g : Gate} {b : Bindings} :
    (g, b) ∈ env.gateScopes ↔ (g.name, b) ∈ env.scopes.entries := by
  unfold gateScopes
  rw [List.mem_filterMap]
  constructor
  · rintro ⟨p, hp, hgate⟩
    obtain ⟨g', hname, hpair⟩ := Option.map_eq_some_iff.mp hgate
    rw [Prod.mk.injEq] at hpair
    obtain ⟨rfl, rfl⟩ := hpair
    rw [Gate.ofName?_eq_some_iff.mp hname]
    exact hp
  · intro hp
    exact ⟨_, hp, by rw [Gate.ofName?_name]; rfl⟩

/-- The scopes of a regular environment are those of gates. -/
theorem Regular.map_gateScopes {env : Environment} (h : env.Regular) :
    env.gateScopes.map (fun p => (p.1.name, p.2)) = env.scopes.entries := by
  have hnamed : ∀ p ∈ env.scopes.entries, p.1 ≠ "" ∧ p.1 ≠ globalScope := by
    intro p hp
    have hkey : p.1 ∈ env.scopes.keys := List.mem_map_of_mem hp
    refine ⟨fun h0 => h.scopes_named (h0 ▸ hkey), fun h0 => env.global_not_scope (h0 ▸ hkey)⟩
  unfold gateScopes
  generalize env.scopes.entries = l at hnamed
  induction l with
  | nil => rfl
  | cons p rest ih =>
      obtain ⟨hempty, hglobal⟩ := hnamed p List.mem_cons_self
      have hgate : Gate.ofName? p.1 = some ⟨p.1, hempty, hglobal⟩ := by
        simp [Gate.ofName?, hempty, hglobal]
      rw [List.filterMap_cons, hgate]
      simp only [Option.map_some, List.map_cons]
      rw [ih fun q hq => hnamed q (List.mem_cons_of_mem _ hq)]

end Environment

namespace Program

open World
open Session (Change)

/-- A task that puts no nameless binding into an environment. -/
def Task.Named : Task → Prop
  | act (.assignIn name _ scope) => name ≠ "" ∧ scope ≠ ""
  | _ => True

/-- A task that puts no bindings into an environment directly. -/
def Task.Indirect : Task → Prop
  | act (.assignIn _ _ _) | restore _ => False
  | _ => True

theorem Task.Indirect.named {task : Task} (h : task.Indirect) : task.Named := by
  unfold Task.Named
  split
  · exact h.elim
  · trivial

theorem Task.Assigns.named {task : Task} (h : task.Assigns) : task.Named := by
  unfold Task.Assigns at h
  split at h
  · trivial
  · trivial
  · exact h.elim

/-- All sessions have regular environments. -/
def World.Regular (w : World) : Prop := ∀ name, (w.session name).env.Regular

/-- All snapshots are of regular environments. -/
def World.RegularSnapshots (w : World) : Prop :=
  ∀ slot env, w.snapshots.get? slot = some env → env.Regular

theorem regular_apply {c : Change} {s : Session} (h : s.env.Regular)
    (hc : ∀ name x scope, c = .assign name x scope → name ≠ "" ∧ scope ≠ "") :
    (c.apply s).env.Regular := by
  cases c with
  | assign name x scope =>
      obtain ⟨hname, hscope⟩ := hc name x scope rfl
      exact h.assign x hname hscope
  | bind | clearRegistry => exact h
  | clearBindings | reset => exact Environment.regular_empty

theorem Action.assigns_named {a : Action} (h : (Task.act a).Named) {c : Change}
    (hc : a.Makes c) (name : String) (x : Degree) (scope : String)
    (hassign : c = .assign name x scope) : name ≠ "" ∧ scope ≠ "" := by
  subst hassign
  cases a <;>
    simp_all [Action.Makes, Task.Named, Change.Named, Change.Binds]

theorem regular_perform {a : Action} (h : (Task.act a).Named) (ctx : Context)
    (hctx : ctx.session.env.Regular) : (a.perform.run ctx).2.session.env.Regular := by
  have hmoves : SessionM.Moves (fun s t => s.env.Regular → t.env.Regular) a.perform := by
    refine a.madeFrom.moves (fun _ hs => hs) (fun _ _ _ hst htu hs => htu (hst hs)) ?_ ?_
    · intro c hc s hs
      exact regular_apply hs (Action.assigns_named h hc)
    · intro g s t hst hs
      exact hst hs
  exact hmoves ctx hctx

theorem World.Regular.withContext {w : World} (h : w.Regular) (name : String) {ctx : Context}
    (hctx : ctx.session.env.Regular) : (w.withContext name ctx).Regular := by
  intro other
  rw [session_withContext]
  split
  · exact hctx
  · exact h other

theorem regular_task {w : World} (h : w.Regular) (hsnapshots : w.RegularSnapshots) (name : String)
    {task : Task} (htask : task.Named) :
    ((task.perform name).run w).2.Regular ∧ ((task.perform name).run w).2.RegularSnapshots := by
  cases task with
  | act a =>
      rw [run_perform_act, run_onSession]
      exact ⟨h.withContext name (regular_perform htask (w.context name) (h name)), hsnapshots⟩
  | snapshot slot =>
      rw [run_perform_snapshot]
      refine ⟨h, fun other env hget => ?_⟩
      rw [OrderedMap.get?_insert] at hget
      split at hget
      · cases hget
        exact h name
      · exact hsnapshots other env hget
  | showSnapshot slot =>
      rw [run_perform_showSnapshot]
      cases w.snapshots.get? slot <;> exact ⟨h, hsnapshots⟩
  | restore slot =>
      rw [run_perform_restore]
      cases hslot : w.snapshots.get? slot with
      | none => exact ⟨h, hsnapshots⟩
      | some env => exact ⟨h.withContext name (hsnapshots slot env hslot), hsnapshots⟩

/-- Regular environments are kept by all named tasks, and by blocks: an anonymous scope brings
back the environment found on entry, and a snapshot one that was regular when it was taken. -/
theorem regular_invariant : Invariant Task.Named fun _ w => w.Regular ∧ w.RegularSnapshots where
  inner name w _ := (onlyAll_assigns_inner name w _).mono fun _ => Task.Assigns.named
  state hstate h := ⟨fun name => hstate.1 name ▸ h.1 name, fun slot env hget =>
    h.2 slot env (hstate.2 ▸ hget)⟩
  task name task htask _ h := regular_task h.1 h.2 name htask
  enter name entry h := by
    refine ⟨h.1.withContext name ?_, h.2⟩
    cases entry with
    | gate g => exact h.1 name
    | anonymous => exact h.1 name
  leave names name entry h hbody := by
    refine ⟨hbody.1.withContext name ?_, hbody.2⟩
    cases entry with
    | gate g => exact hbody.1 name
    | anonymous => exact h.1 name

/-- **Sessions that are worked with under names have regular environments**, at every point of
every run, and so have the snapshots that are taken of them. -/
theorem regular_of_named {level : Int} {program : List Step}
    (hprogram : onlyAll Task.Named program) {before later : List Moment}
    (h : moments program (.start level) = before ++ later) :
    (lastWorld (.start level) before).Regular ∧
      (lastWorld (.start level) before).RegularSnapshots := by
  have hregular : (World.start level).Regular := fun name => Environment.regular_empty
  have hsnapshots : (World.start level).RegularSnapshots := fun slot env hget => by cases hget
  exact @Invariant.lastWorld _ _ regular_invariant _ hprogram [] _ ⟨hregular, hsnapshots⟩ _ _ h

/-- Sessions that are worked with through their operations have regular environments. -/
theorem regular_of_indirect {level : Int} {program : List Step}
    (hprogram : onlyAll Task.Indirect program) {before later : List Moment}
    (h : moments program (.start level) = before ++ later) :
    (lastWorld (.start level) before).Regular :=
  (regular_of_named (hprogram.mono fun _ => Task.Indirect.named) h).1

end Program

end FuzzyGates
