import FuzzyGates.Proofs.Session.Regular

/-!
# Well-formed sessions

The parts of a session fit together: no scope, gate or variable goes without a name, none of
the gates is the global scope, every scope binds something, and no name stands twice in a
mapping.  What the types of gates and mappings do not rule out by themselves is kept by every
step of every run, whichever way the step ends.

* `Session.WellFormed` — the property, clause by clause.
* `Session.wellFormed_of_regular` — a session with a regular environment is well-formed.
* **`sessions_wellFormed`** — at every moment of every run all sessions are well-formed.
-/

namespace FuzzyGates

namespace Session

/-- The parts of a session fit together. -/
structure WellFormed (s : Session) : Prop where
  /-- Scopes are named after gates. -/
  scopes_named : ∀ scope ∈ s.env.scopes.keys, scope ≠ "" ∧ scope ≠ globalScope
  /-- No scope is empty. -/
  scopes_bind : ∀ p ∈ s.env.scopes.entries, p.2.entries ≠ []
  /-- Variables have names, in the global scope and in all others. -/
  globals_named : "" ∉ s.env.globals.keys
  variables_named : ∀ p ∈ s.env.scopes.entries, "" ∉ p.2.keys
  /-- Expressions are bound to gates, and blocks are those of gates. -/
  registry_named : ∀ g ∈ s.registry.keys, g.name ≠ "" ∧ g.name ≠ globalScope
  stack_named : ∀ g ∈ s.stack, g.name ≠ "" ∧ g.name ≠ globalScope
  /-- The ambient scope is the global one outside of all blocks only. -/
  ambient_global_iff : s.ambient.name = globalScope ↔ s.depth = 0
  /-- No name stands twice in a mapping. -/
  globals_nodup : s.env.globals.keys.Nodup
  scopes_nodup : s.env.scopes.keys.Nodup
  variables_nodup : ∀ p ∈ s.env.scopes.entries, p.2.keys.Nodup
  registry_nodup : (s.registry.keys.map Gate.name).Nodup

theorem ambient_name_eq_global_iff (s : Session) :
    s.ambient.name = globalScope ↔ s.depth = 0 := by
  have hname : s.ambient.name = globalScope ↔ s.ambient = .global := by
    cases s.ambient with
    | global => exact ⟨fun _ => rfl, fun _ => rfl⟩
    | gate g => exact ⟨fun h => absurd h g.not_global, fun h => by cases h⟩
  rw [hname, ambient_eq_global_iff]
  exact List.length_eq_zero_iff.symm

/-- What a regular environment adds to the types of gates and mappings makes a session
well-formed. -/
theorem wellFormed_of_regular {s : Session} (h : s.env.Regular) : s.WellFormed where
  scopes_named scope hscope :=
    ⟨fun h0 => h.scopes_named (h0 ▸ hscope), fun h0 => s.env.global_not_scope (h0 ▸ hscope)⟩
  scopes_bind := h.scope_nonempty
  globals_named := h.globals_named
  variables_named := h.scope_named
  registry_named g _ := ⟨g.nonempty, g.not_global⟩
  stack_named g _ := ⟨g.nonempty, g.not_global⟩
  ambient_global_iff := s.ambient_name_eq_global_iff
  globals_nodup := s.env.globals.nodup_keys
  scopes_nodup := s.env.scopes.nodup_keys
  variables_nodup p _ := p.2.nodup_keys
  registry_nodup := by
    have hkeys : (s.registry.keys.map fun g => g).Nodup := by
      rw [List.map_id']
      exact s.registry.nodup_keys
    exact Gate.nodup_names_iff.mpr hkeys

end Session

namespace Program

/-- **Sessions are well-formed**, at every moment of every run whose direct bindings have names:
between any two steps, inside every block, in the middle of a load, and after every failure. -/
theorem sessions_wellFormed {level : Int} {program : List Step}
    (hprogram : onlyAll Task.Named program) {before later : List Moment}
    (hrun : moments program (.start level) = before ++ later) (name : String) :
    ((lastWorld (.start level) before).session name).WellFormed :=
  Session.wellFormed_of_regular ((regular_of_named hprogram hrun).1 name)

/-- A load inside an anonymous scope inside a gate block, which stops at a variable without a
name after the load has entered a block of its own and bound a variable there. -/
theorem sessions_wellFormed_inside_failing_load :
    let data : Document := .mapping [(.text "gates", .mapping [(.text "b", .mapping
      [(.text "variables", .mapping [(.text "y", .atom (.float 0.5)),
        (.text "", .atom (.float 0.25))])])])]
    let load : Step := .task "s" false (.act (.load (.ok data)))
    let program : List Step :=
      [.block "s" false (.gate (.ok (.ofText "a"))) [.block "s" false .anonymous [load]]]
    let before := (moments program (.start 0)).take 5
    let s := (lastWorld (.start 0) before).session "s"
    onlyAll Task.Named program ∧ s.stack.map Gate.name = ["a", "b"] ∧
      s.env.scopes.keys = ["b"] ∧ s.WellFormed := by
  intro data load program before s
  have hprogram : onlyAll Task.Named program := by
    simp [program, load, onlyAll, Step.Only, Task.Named]
  exact ⟨hprogram, by decide +kernel, by decide +kernel,
    sessions_wellFormed hprogram (List.take_append_drop 5 _).symm "s"⟩

end Program

end FuzzyGates
