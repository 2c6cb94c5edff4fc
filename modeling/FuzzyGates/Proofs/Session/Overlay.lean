import FuzzyGates.Proofs.Document.Range
import FuzzyGates.Proofs.OrderedMap.Overlay
import FuzzyGates.Proofs.Session.Loading
import FuzzyGates.Proofs.Session.Warnings

/-!
# What a load leaves in a session

A configuration without a nameless variable or a number out of range is loaded as a whole, and
then the session is the former one with the configuration laid over it.  What the session held
before decides about the places only, since the values of a configuration are numbers: a name
that is bound keeps its place among the names of its scope, a scope that exists keeps its place
among the scopes, and all else is appended in the order of the configuration.

* `Config.Loadable` — the configurations in question.
* `Config.degreesOf`, `Config.scopes`, `Config.expressions` — the maps of a configuration.
* `Session.overlay` — a configuration laid over a session.
* `putAll_assignments` — making the assignments of a configuration one after the other.
* `overlay_overlay` — a configuration that has been loaded changes nothing.
* **`load_overlays`** — loading a configuration once and once more, with what is logged.
-/

namespace FuzzyGates

open Config (Assignment degreeAssignments gateAssignments)
open Config.Assignment (putAll)

/-! ### The maps of a configuration -/

namespace Config

/-- A configuration leaves logging alone, names all its variables, and gives them numbers that
have a degree. -/
structure Loadable (c : Config) : Prop where
  logging : c.logging.enabled = false
  globals : ∀ p ∈ c.globals.entries, p.1 ≠ "" ∧ p.2.InRange
  gates : ∀ g ∈ c.gates.entries, ∀ p ∈ g.2.degrees.entries, p.1 ≠ "" ∧ p.2.InRange

/-- The degrees that are assigned to variables with numbers. -/
def degreesOf (numbers : OrderedMap String Number) : Bindings :=
  numbers.mapEntries fun _ n => n.nearest

/-- What a configuration has for a gate. -/
def contentsOf (g : Gate) (c : GateConfig) : GateContents := ⟨g, degreesOf c.degrees, c.expression⟩

/-- The gates of a configuration with what it has for them. -/
def contents (c : Config) : List GateContents := c.gates.entries.map fun p => contentsOf p.1 p.2

theorem nodup_gates_contents (c : Config) : (c.contents.map GateContents.gate).Nodup := by
  unfold contents
  rw [List.map_map]
  exact c.gates.nodup_keys

/-- The scopes of a configuration: those of its gates that have variables. -/
def scopes (c : Config) : OrderedMap String Bindings where
  entries := c.contents.filterMap GateContents.scope?
  nodup_keys := OrderedMap.nodup_keys_filterMap GateContents.fst_of_mem_scope?
    (Gate.nodup_names_iff.mpr c.nodup_gates_contents)

/-- The expressions of a configuration by gates. -/
def expressions (c : Config) : Registry where
  entries := c.contents.filterMap GateContents.binding?
  nodup_keys := OrderedMap.nodup_keys_filterMap GateContents.fst_of_mem_binding?
    c.nodup_gates_contents

/-- The scopes of a configuration are those of gates. -/
theorem global_not_mem_scopes (c : Config) : globalScope ∉ c.scopes.keys := by
  intro hmem
  obtain ⟨p, hp, hglobal⟩ := List.mem_map.mp hmem
  obtain ⟨g, -, hg⟩ := List.mem_filterMap.mp hp
  exact g.gate.not_global ((g.fst_of_mem_scope? p hg).symm.trans hglobal)

theorem Loadable.refusal?_eq_none {c : Config} (h : c.Loadable) :
    ∀ a ∈ c.assignments, a.refusal? = none := by
  have hdegrees {scope : Scope} {numbers : OrderedMap String Number}
      (hnumbers : ∀ p ∈ numbers.entries, p.1 ≠ "" ∧ p.2.InRange) :
      ∀ a ∈ degreeAssignments scope numbers, a.refusal? = none := by
    intro a ha
    obtain ⟨p, hp, rfl⟩ := List.mem_map.mp ha
    obtain ⟨hname, hrange⟩ := hnumbers p hp
    exact Assignment.refusal?_eq_none_iff.mpr
      ⟨hname, _, Number.degree?_eq_some_iff.mpr ⟨hrange, rfl⟩⟩
  intro a ha
  rcases List.mem_append.mp ha with hglobal | hgate
  · exact hdegrees h.globals a hglobal
  · obtain ⟨g, hg, hmem⟩ := List.mem_flatMap.mp hgate
    rcases List.mem_append.mp hmem with hvariable | hexpression
    · exact hdegrees (h.gates g hg) a hvariable
    · obtain ⟨e, -, rfl⟩ := List.mem_map.mp hexpression
      rfl

theorem Loadable.logging_refusal? {c : Config} (h : c.Loadable) : c.logging.refusal? = none := by
  unfold LoggingOptions.refusal?
  cases c.logging.format <;> simp [h.logging]

end Config

/-! ### A configuration laid over a session -/

namespace Session

/-- A configuration laid over a session.  Degrees and expressions replace those at the same place,
and new ones are appended in the order of the configuration. -/
def overlay (s : Session) (c : Config) : Session where
  env :=
    { globals := s.env.globals.overlay (Config.degreesOf c.globals)
      scopes := s.env.scopes.overlayWith OrderedMap.overlay c.scopes
      global_not_scope := fun hmem => (OrderedMap.mem_keys_overlayWith.mp hmem).elim
        s.env.global_not_scope c.global_not_mem_scopes }
  registry := s.registry.overlay c.expressions
  stack := s.stack

@[ext] theorem ext {s t : Session} (henv : s.env = t.env) (hregistry : s.registry = t.registry)
    (hstack : s.stack = t.stack) : s = t := by
  cases s; cases t; cases henv; cases hregistry; cases hstack; rfl

/-- A configuration that has been laid over a session changes nothing any more. -/
theorem overlay_overlay (s : Session) (c : Config) : (s.overlay c).overlay c = s.overlay c := by
  have hscopes := OrderedMap.overlayWith_idem OrderedMap.overlay_self OrderedMap.overlay_idem
    s.env.scopes c.scopes
  refine Session.ext (Environment.ext ?_ hscopes) ?_ rfl
  · exact OrderedMap.overlay_idem _ _
  · exact OrderedMap.overlay_idem _ _

/-! ### One assignment after the other -/

theorem putAll_degreeAssignments {scope : Scope} {numbers : OrderedMap String Number}
    (h : ∀ p ∈ numbers.entries, p.2.InRange) (s : Session) :
    putAll (degreeAssignments scope numbers) s =
      { s with env := s.env.assignAll scope.name (Config.degreesOf numbers).entries } := by
  unfold degreeAssignments Config.degreesOf
  rw [OrderedMap.entries_mapEntries]
  generalize numbers.entries = l at *
  induction l generalizing s with
  | nil => rfl
  | cons p rest ih =>
      rw [List.forall_mem_cons] at h
      have hvalue : p.2.degree? = some p.2.nearest := Number.degree?_eq_some_iff.mpr ⟨h.1, rfl⟩
      have hput : (Assignment.degree scope p.1 p.2).put s =
          { s with env := s.env.assign p.1 p.2.nearest scope.name } := by
        simp only [Assignment.put, hvalue]
      show putAll (rest.map _) ((Assignment.degree scope p.1 p.2).put s) = _
      rw [hput]
      exact ih _ h.2

theorem putAll_gateAssignments {g : Gate} {c : GateConfig}
    (h : ∀ p ∈ c.degrees.entries, p.2.InRange) (s : Session) :
    putAll (gateAssignments g c) s = s.put (Config.contentsOf g c) := by
  unfold gateAssignments
  rw [Assignment.putAll_append, putAll_degreeAssignments h]
  unfold put Config.contentsOf
  cases c.expression <;> rfl

/-- The assignments of a configuration go to the globals first and then to one gate after the
other. -/
theorem putAll_assignments_eq_foldl {c : Config} (h : c.Loadable) (s : Session) :
    putAll c.assignments s = c.contents.foldl put
      { s with env := s.env.assignAll globalScope (Config.degreesOf c.globals).entries } := by
  unfold Config.assignments
  rw [Assignment.putAll_append, putAll_degreeAssignments fun p hp => (h.globals p hp).2]
  unfold putAll Config.contents
  rw [List.foldl_flatMap, List.foldl_map]
  refine List.foldl_ext _ _ _ fun t g hg => ?_
  exact putAll_gateAssignments (fun p hp => (h.gates g hg p hp).2) t

/-- **Making the assignments of a configuration lays it over the session.** -/
theorem putAll_assignments {c : Config} (h : c.Loadable) (s : Session) :
    putAll c.assignments s = s.overlay c := by
  rw [putAll_assignments_eq_foldl h, Environment.assignAll_global]
  refine Session.ext (Environment.ext ?_ (scopes_foldl_put rfl _)) (registry_foldl_put rfl _)
    (stack_foldl_put _ _)
  rw [globals_foldl_put]
  exact OrderedMap.foldl_insert s.env.globals _

/-- A load makes all the assignments. -/
theorem leads_load {c : Config} (h : c.Loadable) (s : Session) :
    Leads (load c) s (putAll c.assignments s) () := by
  have hnone := Assignment.firstRefusal_eq_none_iff.mpr h.refusal?_eq_none
  have hload := ends_load c s
  rw [h.logging_refusal?, Assignment.untilRefused_of_none hnone, Assignment.outcome,
    hnone] at hload
  exact hload

/-- **Loading a configuration lays it over the session**, in whatever gate blocks, and without a
warning that an expression is bound outside the ambient gate.  Loading it once more changes
nothing. -/
theorem load_overlays {c : Config} (h : c.Loadable) (s : Session) (journal : Log.Journal) :
    ∃ once twice,
      (load c).run ⟨s, journal⟩ = (.ok (), ⟨s.overlay c, once⟩) ∧
      (load c).run ⟨s.overlay c, once⟩ = (.ok (), ⟨s.overlay c, twice⟩) ∧
      journal.Unwarned once ∧ once.Unwarned twice := by
  obtain ⟨once, hfirst⟩ := leads_load h s journal
  obtain ⟨twice, hsecond⟩ := leads_load h (s.overlay c) once
  have hunwarned := unwarned_load c ⟨s, journal⟩ rfl
  have hunwarned' := unwarned_load c ⟨s.overlay c, once⟩ rfl
  rw [putAll_assignments h] at hfirst
  rw [putAll_assignments h, overlay_overlay] at hsecond
  rw [hfirst] at hunwarned
  rw [hsecond] at hunwarned'
  exact ⟨once, twice, hfirst, hsecond, hunwarned.2, hunwarned'.2⟩

/-- A load inside the block of a gate that has a scope and an expression.  Both keep their places,
and so do the names that are bound.  The gate without variables gets an expression only. -/
theorem load_overlays_inside_block :
    let a : Gate := ⟨"a", by decide, by decide⟩
    let b : Gate := ⟨"b", by decide, by decide⟩
    let s : Session :=
      { env := ⟨.ofList [("X", 0.1), ("Y", 0.2)], .ofList [("b", .ofList [("v", 0.3)])], by decide⟩
        registry := .ofList [(b, .value 0.4)]
        stack := [b] }
    let c : Config :=
      { logging := {}
        globals := .ofList [("Z", .float 0.5), ("X", .int 1)]
        gates := .ofList [(a, ⟨∅, some (.value 0.6)⟩),
          (b, ⟨.ofList [("w", .float 0.7), ("v", .int 0)], some (.value 0.8)⟩)] }
    let t : Session :=
      { env := ⟨.ofList [("X", 1.0), ("Y", 0.2), ("Z", 0.5)],
          .ofList [("b", .ofList [("v", 0.0), ("w", 0.7)])], by decide⟩
        registry := .ofList [(b, .value 0.8), (a, .value 0.6)]
        stack := [b] }
    c.Loadable ∧ ∀ journal, ∃ once twice,
      (load c).run ⟨s, journal⟩ = (.ok (), ⟨t, once⟩) ∧
      (load c).run ⟨t, once⟩ = (.ok (), ⟨t, twice⟩) ∧
      journal.Unwarned once ∧ once.Unwarned twice := by
  intro a b s c t
  have hc : c.Loadable := ⟨rfl, by decide +kernel, by decide +kernel⟩
  have ht : s.overlay c = t := by decide
  refine ⟨hc, fun journal => ?_⟩
  have hload := load_overlays hc s journal
  rwa [ht] at hload

end Session

end FuzzyGates
