/-!
# Names of variables and gates

A variable has a non-empty name.  A gate has a non-empty name other than the
one reserved for the global scope.
-/

namespace FuzzyGates

/-- The name of a variable. -/
structure Name where
  text : String
  nonempty : text ≠ ""
  deriving DecidableEq

namespace Name

@[ext] theorem ext {a b : Name} (h : a.text = b.text) : a = b := by
  cases a; cases b; cases h; rfl

/-- The name that a text spells. -/
def ofText? (s : String) : Option Name :=
  if h : s = "" then none else some ⟨s, h⟩

@[simp] theorem ofText?_text (n : Name) : ofText? n.text = some n := by
  simp [ofText?, n.nonempty]

theorem ofText?_eq_some_iff {s : String} {n : Name} : ofText? s = some n ↔ n.text = s := by
  constructor
  · intro h
    by_cases hs : s = ""
    · simp [ofText?, hs] at h
    · simp only [ofText?, hs, ↓reduceDIte, Option.some.injEq] at h
      exact h ▸ rfl
  · rintro rfl
    exact ofText?_text n

theorem ofText?_eq_none_iff {s : String} : ofText? s = none ↔ s = "" := by
  by_cases hs : s = "" <;> simp [ofText?, hs]

end Name

/-- The name reserved for the scope that every gate shares. -/
def globalScope : String := "global"

/-- The name of a gate. -/
structure Gate where
  name : String
  nonempty : name ≠ ""
  not_global : name ≠ globalScope
  deriving DecidableEq

namespace Gate

@[ext] theorem ext {a b : Gate} (h : a.name = b.name) : a = b := by
  cases a; cases b; cases h; rfl

/-- The gate that a text names. -/
def ofName? (s : String) : Option Gate :=
  if h : s = "" then none
  else if g : s = globalScope then none
  else some ⟨s, h, g⟩

@[simp] theorem ofName?_name (g : Gate) : ofName? g.name = some g := by
  simp [ofName?, g.nonempty, g.not_global]

end Gate

/-- A place for bindings: the global one or that of a gate. -/
inductive Scope
  | global
  | gate (g : Gate)
  deriving DecidableEq

namespace Scope

/-- The name of a scope. -/
def name : Scope → String
  | global => globalScope
  | gate g => g.name

/-- The scope of a name, which must not be empty. -/
def ofName? (s : String) : Option Scope :=
  if h : s = "" then none
  else if g : s = globalScope then some global
  else some (gate ⟨s, h, g⟩)

@[simp] theorem ofName?_name (s : Scope) : ofName? s.name = some s := by
  cases s with
  | global => rfl
  | gate g => simp [ofName?, name, g.nonempty, g.not_global]

theorem name_ne_empty (s : Scope) : s.name ≠ "" := by
  cases s with
  | global => decide
  | gate g => exact g.nonempty

end Scope

end FuzzyGates
