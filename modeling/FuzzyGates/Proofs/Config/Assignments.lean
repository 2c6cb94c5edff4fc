import Mathlib.Data.List.Nodup
import FuzzyGates.Config.Basic
import FuzzyGates.Proofs.Environment.Lookup
import FuzzyGates.Session.Basic

/-!
# The assignments of a configuration

A configuration is a list of assignments: the global degrees, then, gate by gate, the degrees
of its variables and its expression.  An assignment is refused if its variable has no name or
its number is no degree.  No two assignments of a configuration go to one place, so a session
to which all are made holds all of them.

* `Config.Assignment`, `Config.assignments` — the assignments of a configuration in order.
* `Assignment.refusal?`, `Assignment.put`, `Assignment.Holds` — why an assignment is refused,
  the session after it, and what it means that a session holds what it assigns.
* `Assignment.firstRefusal`, `Assignment.untilRefused` — where a list of assignments breaks off.
* `nodup_places` — the assignments of a configuration go to different places.
* **`holds_putAll`** — assignments to different places are all held in the end.
-/

namespace FuzzyGates

/-! ### The assignments of a configuration -/

/-- The degree that a scope itself binds a name to. -/
def Environment.boundIn? (env : Environment) (scope : Scope) (name : String) : Option Degree :=
  match scope with
  | .global => env.globals.get? name
  | .gate g => (env.scope g.name).get? name

theorem Environment.boundIn?_eq_held? (env : Environment) (scope : Scope) (name : String) :
    env.boundIn? scope name = env.held? scope.name name := by
  cases scope with
  | global => exact (env.held?_globalScope name).symm
  | gate g => exact (held?_of_ne g.not_global name).symm

/-- An assignment binds its variable in its scope, and nothing else. -/
theorem Environment.boundIn?_assign (env : Environment) (scope other : Scope) (name key : String)
    (x : Degree) : (env.assign name x scope.name).boundIn? other key =
      if scope = other ∧ name = key then some x else env.boundIn? other key := by
  have hscope : scope.name = other.name ↔ scope = other := by
    refine ⟨fun h => Option.some.inj ?_, congrArg Scope.name⟩
    rw [← Scope.ofName?_name scope, h, Scope.ofName?_name]
  rw [boundIn?_eq_held?, boundIn?_eq_held?, held?_assign]
  simp only [hscope]

namespace Config

/-- One thing that a configuration has a session assign. -/
inductive Assignment
  | degree (scope : Scope) (name : String) (value : Number)
  | expression (gate : Gate) (expr : Expr)

/-- The assignments of degrees to the variables of a scope. -/
def degreeAssignments (scope : Scope) (degrees : OrderedMap String Number) : List Assignment :=
  degrees.entries.map fun p => .degree scope p.1 p.2

/-- The assignments of a gate: to its variables, then of its expression. -/
def gateAssignments (g : Gate) (c : GateConfig) : List Assignment :=
  degreeAssignments (.gate g) c.degrees ++ c.expression.toList.map (.expression g)

/-- The assignments of a configuration in the order in which they are made. -/
def assignments (c : Config) : List Assignment :=
  degreeAssignments .global c.globals ++
    c.gates.entries.flatMap fun p => gateAssignments p.1 p.2

namespace Assignment

/-- Why an assignment is refused: the variable has no name, or the number is no degree. -/
def refusal? : Assignment → Option Failure
  | degree _ name value =>
      if name = "" then some (.badTarget (.ofText name))
      else if value.degree?.isNone then some .tooLarge
      else none
  | expression _ _ => none

/-- The session after an assignment. -/
def put : Assignment → Session → Session
  | degree scope name value, s =>
      match value.degree? with
      | some x => { s with env := s.env.assign name x scope.name }
      | none => s
  | expression g e, s => { s with registry := s.registry.insert g e }

/-- The session after some assignments. -/
def putAll (as : List Assignment) (s : Session) : Session := as.foldl (fun s a => a.put s) s

/-- A session holds what is assigned, where it is assigned. -/
def Holds (s : Session) : Assignment → Prop
  | degree scope name value => ∃ x, value.degree? = some x ∧ s.env.boundIn? scope name = some x
  | expression g e => s.registry.get? g = some e

/-- The first refusal among some assignments. -/
def firstRefusal (as : List Assignment) : Option Failure := as.findSome? refusal?

/-- The assignments before the first one that is refused. -/
def untilRefused (as : List Assignment) : List Assignment :=
  as.takeWhile fun a => a.refusal?.isNone

/-- How making some assignments ends: with the first refusal, if there is one. -/
def outcome (as : List Assignment) : Except Failure Unit :=
  match firstRefusal as with
  | some f => .error f
  | none => .ok ()

theorem refusal?_eq_none_iff {scope : Scope} {name : String} {value : Number} :
    (degree scope name value).refusal? = none ↔ name ≠ "" ∧ ∃ x, value.degree? = some x := by
  unfold refusal?
  by_cases hname : name = ""
  · simp [hname]
  · cases h : value.degree? <;> simp [hname, h]

@[simp] theorem stack_put (a : Assignment) (s : Session) : (a.put s).stack = s.stack := by
  cases a with
  | expression g e => rfl
  | degree scope name value => cases h : value.degree? <;> simp [put, h]

@[simp] theorem stack_putAll (as : List Assignment) (s : Session) :
    (putAll as s).stack = s.stack := by
  induction as generalizing s with
  | nil => rfl
  | cons a rest ih => exact (ih (a.put s)).trans (stack_put a s)

/-- What assignments do to a session does not depend on its gate blocks. -/
theorem putAll_stack (as : List Assignment) (s : Session) (stack : List Gate) :
    putAll as { s with stack := stack } = { putAll as s with stack := stack } := by
  induction as generalizing s with
  | nil => rfl
  | cons a rest ih =>
      have hput : a.put { s with stack := stack } = { a.put s with stack := stack } := by
        cases a with
        | expression g e => rfl
        | degree scope name value => cases h : value.degree? <;> simp [put, h]
      show putAll rest (a.put { s with stack := stack }) = _
      rw [hput]
      exact ih (a.put s)

theorem putAll_append (as bs : List Assignment) (s : Session) :
    putAll (as ++ bs) s = putAll bs (putAll as s) := List.foldl_append

/-! #### The first refusal -/

theorem firstRefusal_append (as bs : List Assignment) :
    firstRefusal (as ++ bs) = (firstRefusal as).or (firstRefusal bs) := List.findSome?_append

theorem firstRefusal_eq_none_iff {as : List Assignment} :
    firstRefusal as = none ↔ ∀ a ∈ as, a.refusal? = none := List.findSome?_eq_none_iff

/-- Assignments none of which is refused are all made. -/
theorem untilRefused_append_of_none {as : List Assignment} (h : firstRefusal as = none)
    (bs : List Assignment) : untilRefused (as ++ bs) = as ++ untilRefused bs :=
  List.takeWhile_append_of_pos fun a ha => by simp [firstRefusal_eq_none_iff.mp h a ha]

theorem untilRefused_of_none {as : List Assignment} (h : firstRefusal as = none) :
    untilRefused as = as := by
  simpa [untilRefused] using untilRefused_append_of_none h []

/-- A first refusal splits the assignments at the one that is refused. -/
theorem exists_of_firstRefusal {as : List Assignment} {f : Failure} (h : firstRefusal as = some f) :
    ∃ a rest, as = untilRefused as ++ a :: rest ∧ a.refusal? = some f := by
  obtain ⟨before, a, rest, rfl, ha, hbefore⟩ := List.findSome?_eq_some_iff.mp h
  refine ⟨a, rest, ?_, ha⟩
  rw [untilRefused_append_of_none (firstRefusal_eq_none_iff.mpr hbefore)]
  simp [untilRefused, ha]

/-- What stands after a refused assignment does not matter. -/
theorem untilRefused_append_of_some {as : List Assignment} {f : Failure}
    (h : firstRefusal as = some f) (bs : List Assignment) :
    untilRefused (as ++ bs) = untilRefused as := by
  obtain ⟨before, a, rest, rfl, ha, hbefore⟩ := List.findSome?_eq_some_iff.mp h
  have hbefore : firstRefusal before = none := firstRefusal_eq_none_iff.mpr hbefore
  have hcut (rest : List Assignment) : untilRefused (a :: rest) = [] := by simp [untilRefused, ha]
  rw [List.append_assoc, untilRefused_append_of_none hbefore, untilRefused_append_of_none hbefore,
    List.cons_append, hcut, hcut]

theorem refusal?_of_mem_untilRefused {as : List Assignment} {a : Assignment}
    (h : a ∈ untilRefused as) : a.refusal? = none := by
  simpa using List.all_eq_true.mp List.all_takeWhile a h

/-! #### What is assigned is held -/

/-- Where an assignment goes: a variable of a scope, or the expression of a gate. -/
def place : Assignment → Scope × Option String
  | degree scope name _ => (scope, some name)
  | expression g _ => (.gate g, none)

theorem holds_put_self {a : Assignment} (h : a.refusal? = none) (s : Session) :
    Holds (a.put s) a := by
  cases a with
  | expression g e => exact OrderedMap.get?_insert_self s.registry g e
  | degree scope name value =>
      obtain ⟨-, x, hx⟩ := refusal?_eq_none_iff.mp h
      refine ⟨x, hx, ?_⟩
      simp [put, hx, Environment.boundIn?_assign]

/-- An assignment that goes elsewhere leaves alone what a session holds. -/
theorem Holds.put {s : Session} {a b : Assignment} (h : Holds s a) (hplace : a.place ≠ b.place) :
    Holds (b.put s) a := by
  cases b with
  | expression g e =>
      cases a with
      | degree scope name value => exact h
      | expression g' e' =>
          have hne : g ≠ g' := fun heq => hplace (by rw [heq]; rfl)
          exact (OrderedMap.get?_insert_of_ne s.registry e hne).trans h
  | degree scope name value =>
      cases hvalue : value.degree? with
      | none => simpa [Assignment.put, hvalue] using h
      | some x =>
          cases a with
          | expression g e =>
              simp only [Assignment.put, hvalue]
              exact h
          | degree scope' name' value' =>
              obtain ⟨y, hy, hbound⟩ := h
              have hne : ¬(scope = scope' ∧ name = name') := by
                rintro ⟨rfl, rfl⟩
                exact hplace rfl
              refine ⟨y, hy, ?_⟩
              simp [Assignment.put, hvalue, Environment.boundIn?_assign, hne, hbound]

theorem Holds.putAll {s : Session} {a : Assignment} (h : Holds s a) {as : List Assignment}
    (hplace : ∀ b ∈ as, a.place ≠ b.place) : Holds (putAll as s) a := by
  induction as generalizing s with
  | nil => exact h
  | cons b rest ih =>
      rw [List.forall_mem_cons] at hplace
      exact ih (h.put hplace.1) hplace.2

/-- Assignments to different places are all held in the end. -/
theorem holds_putAll {as : List Assignment} (has : ∀ a ∈ as, a.refusal? = none)
    (hplaces : (as.map place).Nodup) (s : Session) : ∀ a ∈ as, Holds (putAll as s) a := by
  induction as generalizing s with
  | nil => exact fun a ha => absurd ha List.not_mem_nil
  | cons b rest ih =>
      rw [List.forall_mem_cons] at has
      rw [List.map_cons, List.nodup_cons] at hplaces
      intro a ha
      rcases List.mem_cons.mp ha with rfl | ha
      · refine (holds_put_self has.1 s).putAll fun c hc hplace => hplaces.1 ?_
        exact hplace ▸ List.mem_map_of_mem hc
      · exact ih has.2 hplaces.2 (b.put s) a ha

end Assignment

theorem places_degreeAssignments (scope : Scope) (degrees : OrderedMap String Number) :
    (degreeAssignments scope degrees).map Assignment.place =
      degrees.keys.map fun name => (scope, some name) := by
  simp [degreeAssignments, OrderedMap.keys, Assignment.place, Function.comp_def]

theorem places_gateAssignments (g : Gate) (c : GateConfig) :
    (gateAssignments g c).map Assignment.place =
      (c.degrees.keys.map fun name => (.gate g, some name)) ++
        c.expression.toList.map fun _ => (.gate g, none) := by
  unfold gateAssignments
  rw [List.map_append, places_degreeAssignments, List.map_map]
  rfl

theorem nodup_places_degreeAssignments (scope : Scope) (degrees : OrderedMap String Number) :
    ((degreeAssignments scope degrees).map Assignment.place).Nodup := by
  rw [places_degreeAssignments]
  refine List.Nodup.map ?_ degrees.nodup_keys
  intro name other heq
  simpa using heq

theorem nodup_places_gateAssignments (g : Gate) (c : GateConfig) :
    ((gateAssignments g c).map Assignment.place).Nodup := by
  have hdegrees := nodup_places_degreeAssignments (.gate g) c.degrees
  rw [places_degreeAssignments] at hdegrees
  rw [places_gateAssignments, List.nodup_append]
  refine ⟨hdegrees, by cases c.expression <;> simp, ?_⟩
  intro p hp q hq heq
  obtain ⟨name, -, rfl⟩ := List.mem_map.mp hp
  obtain ⟨e, -, rfl⟩ := List.mem_map.mp hq
  cases heq

/-- The places of the assignments of a gate are in its scope. -/
theorem scope_of_mem_gateAssignments {g : Gate} {c : GateConfig} {p : Scope × Option String}
    (h : p ∈ (gateAssignments g c).map Assignment.place) : p.1 = .gate g := by
  rw [places_gateAssignments, List.mem_append, List.mem_map, List.mem_map] at h
  rcases h with ⟨name, -, rfl⟩ | ⟨e, -, rfl⟩ <;> rfl

/-- No two assignments of a configuration go to one place. -/
theorem nodup_places (c : Config) : (c.assignments.map Assignment.place).Nodup := by
  unfold assignments
  rw [List.map_append, List.map_flatMap, List.nodup_append]
  refine ⟨nodup_places_degreeAssignments _ _, ?_, ?_⟩
  · -- the places of different gates lie in different scopes
    rw [List.nodup_flatMap]
    refine ⟨fun p _ => nodup_places_gateAssignments p.1 p.2, ?_⟩
    refine (List.pairwise_map.mp c.gates.nodup_keys).imp fun hgates a ha hb => hgates ?_
    have hscope := (scope_of_mem_gateAssignments ha).symm.trans (scope_of_mem_gateAssignments hb)
    rwa [Scope.gate.injEq] at hscope
  · rw [places_degreeAssignments]
    intro a ha b hb heq
    obtain ⟨name, -, rfl⟩ := List.mem_map.mp ha
    obtain ⟨q, -, hb⟩ := List.mem_flatMap.mp hb
    have hscope := scope_of_mem_gateAssignments hb
    rw [← heq] at hscope
    cases hscope

end Config

end FuzzyGates
