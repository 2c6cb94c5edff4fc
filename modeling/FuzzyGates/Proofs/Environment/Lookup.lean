import FuzzyGates.Environment
import FuzzyGates.Proofs.OrderedMap

/-!
# Where a name is found

The three ways of looking up a name search on their own: one for a degree, one for a scope,
and one in a single gate.  What each of them answers is settled by one fact about the
environment, namely which gate scope is the first to bind the name, if any does.

* `held?`, `held?_assign` — what a place holds, and what an assignment changes there.
* `Binds` — the scope of a gate binds a name.
* `FirstBinder` — the gate scope that a search meets first, with all three answers.
* `Unscoped` — no gate scope binds a name, with all three answers.
* **`firstBinder_or_unscoped`** — one of the two holds of every name.
-/

namespace FuzzyGates.Environment

variable {env : Environment} {name gate : String} {x : Degree}

/-- The scope of a gate binds a name. -/
def Binds (env : Environment) (gate name : String) : Prop :=
  ((env.scope gate).get? name).isSome = true

theorem scope_of_mem {b : Bindings} (h : (gate, b) ∈ env.scopes.entries) :
    env.scope gate = b := by
  unfold scope
  rw [OrderedMap.get?_eq_some_iff.mpr h]
  rfl

theorem binds_iff : env.Binds gate name ↔
    ∃ b, (gate, b) ∈ env.scopes.entries ∧ (b.get? name).isSome = true := by
  constructor
  · intro h
    unfold Binds scope at h
    cases hget : env.scopes.get? gate with
    | none => simp [hget] at h
    | some b =>
        rw [hget] at h
        exact ⟨b, OrderedMap.get?_eq_some_iff.mp hget, h⟩
  · rintro ⟨b, hb, hname⟩
    unfold Binds
    rw [scope_of_mem hb]
    exact hname

/-- A gate whose scope binds something is not the global scope. -/
theorem Binds.ne_global (h : env.Binds gate name) : gate ≠ globalScope := by
  obtain ⟨b, hb, -⟩ := binds_iff.mp h
  rintro rfl
  exact env.global_not_scope (List.mem_map_of_mem hb)

/-- What a gate sees: its own binding, or else the global one. -/
theorem testGate?_eq (env : Environment) (gate name : String) :
    env.testGate? gate name = ((env.scope gate).get? name).or (env.globals.get? name) := by
  unfold testGate? scope
  by_cases hgate : gate = globalScope
  · have hnone : env.scopes.get? gate = none :=
      OrderedMap.get?_eq_none_iff.mpr (hgate ▸ env.global_not_scope)
    rw [if_pos hgate, hnone]
    rfl
  · cases env.scopes.get? gate <;> simp [hgate]

/-! ### What a place holds -/

/-- The degree that the global bindings or the scope of a gate themselves hold under a name. -/
def held? (env : Environment) (scope name : String) : Option Degree :=
  if scope = globalScope then env.globals.get? name else (env.scope scope).get? name

@[simp] theorem held?_empty (scope name : String) : (∅ : Environment).held? scope name = none := by
  unfold held?
  split <;> rfl

@[simp] theorem held?_globalScope (env : Environment) (name : String) :
    env.held? globalScope name = env.globals.get? name :=
  if_pos rfl

theorem held?_of_ne {scope : String} (h : scope ≠ globalScope) (name : String) :
    env.held? scope name = (env.scope scope).get? name :=
  if_neg h

theorem testGate?_eq_held? (env : Environment) (gate name : String) :
    env.testGate? gate name = (env.held? gate name).or (env.held? globalScope name) := by
  by_cases hgate : gate = globalScope
  · simp [hgate]
  · rw [testGate?_eq, held?_of_ne hgate, held?_globalScope]

/-- An assignment changes what its own place holds, and nothing else. -/
theorem held?_assign (env : Environment) (name : String) (x : Degree)
    (scope other key : String) : (env.assign name x scope).held? other key =
      if scope = other ∧ name = key then some x else env.held? other key := by
  by_cases hglobal : scope = globalScope
  · rw [hglobal, assign_globalScope]
    by_cases hother : other = globalScope
    · simp [hother, OrderedMap.get?_insert]
    · have hne : globalScope ≠ other := fun h => hother h.symm
      simp [held?, hother, hne, Environment.scope]
  · by_cases hother : other = globalScope
    · simp [hother, hglobal, globals_assign env hglobal]
    · rw [held?_of_ne hother, held?_of_ne hother]
      simp only [Environment.scope, scopes_assign env hglobal, OrderedMap.get?_insert]
      by_cases hsame : scope = other
      · simp [hsame, OrderedMap.get?_insert]
      · simp [hsame]

/-! ### The first gate scope that binds a name -/

/-- Going through the gate scopes in their order, that of the gate is the first to bind the
name. -/
structure FirstBinder (env : Environment) (name gate : String) (x : Degree) : Prop where
  split : ∃ before b after, env.scopes.entries = before ++ (gate, b) :: after ∧
    (∀ p ∈ before, p.2.get? name = none) ∧ b.get? name = some x

theorem FirstBinder.get?_scope (h : env.FirstBinder name gate x) :
    (env.scope gate).get? name = some x := by
  obtain ⟨before, b, after, hentries, -, hx⟩ := h.split
  have hmem : (gate, b) ∈ env.scopes.entries := by simp [hentries]
  rw [scope_of_mem hmem, hx]

theorem FirstBinder.binds (h : env.FirstBinder name gate x) : env.Binds gate name := by
  unfold Binds
  rw [h.get?_scope]
  rfl

theorem FirstBinder.resolveScope?_eq (h : env.FirstBinder name gate x) :
    env.resolveScope? name = some gate := by
  obtain ⟨before, b, after, hentries, hbefore, hx⟩ := h.split
  have hfind : env.scopes.entries.find? (fun p => p.2.contains name) = some (gate, b) := by
    rw [hentries, List.find?_append, List.find?_eq_none.mpr]
    · simp [OrderedMap.contains, hx]
    · intro p hp
      simp [OrderedMap.contains, hbefore p hp]
  unfold resolveScope?
  rw [hfind]

theorem FirstBinder.resolve?_eq (h : env.FirstBinder name gate x) :
    env.resolve? name = some x := by
  obtain ⟨before, b, after, hentries, hbefore, hx⟩ := h.split
  have hfind : env.scopes.entries.findSome? (fun p => p.2.get? name) = some x := by
    rw [hentries, List.findSome?_append, List.findSome?_eq_none_iff.mpr hbefore]
    simp [hx]
  unfold resolve?
  rw [hfind]
  rfl

theorem FirstBinder.testGate?_eq (h : env.FirstBinder name gate x) :
    env.testGate? gate name = some x := by
  rw [Environment.testGate?_eq, h.get?_scope]
  rfl

/-! ### Names that no gate scope binds -/

/-- No gate scope binds the name. -/
def Unscoped (env : Environment) (name : String) : Prop := ∀ gate, ¬ env.Binds gate name

theorem Unscoped.get?_eq_none (h : env.Unscoped name) {p : String × Bindings}
    (hp : p ∈ env.scopes.entries) : p.2.get? name = none := by
  rw [← Option.not_isSome_iff_eq_none]
  exact fun hsome => h p.1 (binds_iff.mpr ⟨p.2, hp, hsome⟩)

theorem Unscoped.resolveScope?_eq (h : env.Unscoped name) :
    env.resolveScope? name = (env.globals.get? name).map fun _ => globalScope := by
  have hfind : env.scopes.entries.find? (fun p => p.2.contains name) = none := by
    rw [List.find?_eq_none]
    intro p hp
    simp [OrderedMap.contains, h.get?_eq_none hp]
  unfold resolveScope?
  rw [hfind]
  cases hglobal : env.globals.get? name <;> simp [OrderedMap.contains, hglobal]

theorem Unscoped.resolve?_eq (h : env.Unscoped name) :
    env.resolve? name = env.globals.get? name := by
  unfold resolve?
  rw [List.findSome?_eq_none_iff.mpr fun p hp => h.get?_eq_none hp]
  rfl

theorem Unscoped.testGate?_eq (h : env.Unscoped name) (gate : String) :
    env.testGate? gate name = env.globals.get? name := by
  rw [Environment.testGate?_eq, Option.not_isSome_iff_eq_none.mp (h gate)]
  rfl

/-- **Either some gate scope is the first to bind a name, or none binds it.** -/
theorem firstBinder_or_unscoped (env : Environment) (name : String) :
    (∃ gate x, env.FirstBinder name gate x) ∨ env.Unscoped name := by
  cases hfind : env.scopes.entries.find? fun p => (p.2.get? name).isSome with
  | some p =>
      obtain ⟨hp, before, after, hentries, hbefore⟩ := List.find?_eq_some_iff_append.mp hfind
      obtain ⟨x, hx⟩ := Option.isSome_iff_exists.mp hp
      refine .inl ⟨p.1, x, before, p.2, after, hentries, fun q hq => ?_, hx⟩
      simpa using hbefore q hq
  | none =>
      refine .inr fun gate hbinds => ?_
      obtain ⟨b, hb, hname⟩ := binds_iff.mp hbinds
      exact absurd hname (List.find?_eq_none.mp hfind _ hb)

/-! ### The lookups compared -/

theorem resolve?_eq_none_iff :
    env.resolve? name = none ↔ env.Unscoped name ∧ env.globals.get? name = none := by
  rcases firstBinder_or_unscoped env name with ⟨gate, x, hfirst⟩ | hunscoped
  · rw [hfirst.resolve?_eq]
    simp only [reduceCtorEq, false_iff, not_and]
    exact fun h => absurd hfirst.binds (h gate)
  · rw [hunscoped.resolve?_eq]
    simp [hunscoped]

theorem resolveScope?_eq_none_iff :
    env.resolveScope? name = none ↔ env.resolve? name = none := by
  rw [← Option.not_isSome_iff_eq_none, ← Option.not_isSome_iff_eq_none, isSome_resolveScope?]

/-- A name is unbound for an evaluation exactly if no gate sees it. -/
theorem resolve?_eq_none_iff_testGate? :
    env.resolve? name = none ↔ ∀ gate, env.testGate? gate name = none := by
  rw [resolve?_eq_none_iff]
  constructor
  · rintro ⟨hunscoped, hglobal⟩ gate
    rw [hunscoped.testGate?_eq, hglobal]
  · intro h
    refine ⟨fun gate hbinds => ?_, by simpa using h globalScope⟩
    have hgate := h gate
    rw [testGate?_eq, Option.or_eq_none_iff] at hgate
    exact Option.not_isSome_iff_eq_none.mpr hgate.1 hbinds

/-- The scope in which a name is found is the first one that binds it, or the global one if no
gate scope does. -/
theorem resolveScope?_eq_some_iff {scope : String} :
    env.resolveScope? name = some scope ↔
      (∃ x, env.FirstBinder name scope x) ∨
        (scope = globalScope ∧ env.Unscoped name ∧ ∃ x, env.globals.get? name = some x) := by
  constructor
  · intro h
    rcases firstBinder_or_unscoped env name with ⟨gate, x, hfirst⟩ | hunscoped
    · obtain rfl : gate = scope := Option.some.inj (hfirst.resolveScope?_eq.symm.trans h)
      exact .inl ⟨x, hfirst⟩
    · rw [hunscoped.resolveScope?_eq, Option.map_eq_some_iff] at h
      obtain ⟨x, hx, hscope⟩ := h
      exact .inr ⟨hscope.symm, hunscoped, x, hx⟩
  · rintro (⟨x, hfirst⟩ | ⟨rfl, hunscoped, x, hx⟩)
    · exact hfirst.resolveScope?_eq
    · rw [hunscoped.resolveScope?_eq, hx]
      rfl

/-- A name resolves to what the scope in which it is found sees under it. -/
theorem exists_resolve?_eq_testGate? {scope : String} (h : env.resolveScope? name = some scope) :
    ∃ x, env.resolve? name = some x ∧ env.testGate? scope name = some x := by
  rcases resolveScope?_eq_some_iff.mp h with ⟨x, hfirst⟩ | ⟨rfl, hunscoped, x, hx⟩
  · exact ⟨x, hfirst.resolve?_eq, hfirst.testGate?_eq⟩
  · exact ⟨x, hunscoped.resolve?_eq.trans hx, (hunscoped.testGate?_eq _).trans hx⟩

/-- A name resolves to what is held where it is found. -/
theorem resolve?_eq_bind_held? (env : Environment) (name : String) :
    env.resolve? name = (env.resolveScope? name).bind fun scope => env.held? scope name := by
  rcases firstBinder_or_unscoped env name with ⟨gate, x, hfirst⟩ | hunscoped
  · rw [hfirst.resolve?_eq, hfirst.resolveScope?_eq, Option.bind_some,
      held?_of_ne hfirst.binds.ne_global, hfirst.get?_scope]
  · rw [hunscoped.resolve?_eq, hunscoped.resolveScope?_eq]
    cases hglobal : env.globals.get? name <;> simp [hglobal]

end FuzzyGates.Environment
