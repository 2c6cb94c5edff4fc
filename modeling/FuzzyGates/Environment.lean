import FuzzyGates.OrderedMap
import FuzzyGates.Degree
import FuzzyGates.Name

/-!
# Environments: global bindings and one scope per gate

Gate scopes stand in the order of their creation.  Two ways of looking up a
name live side by side.  `resolve?` serves the evaluation of expressions: it
searches every gate scope in order and then the global bindings, so a name
bound in any gate hides the global one everywhere.  `testGate?` looks into one
gate and then at the global bindings, and never into another gate.
-/

namespace FuzzyGates

/-- Names and their degrees in the order of their first binding. -/
abbrev Bindings := OrderedMap String Degree

/-- Global bindings and the scopes of gates.  The global scope is never a gate's. -/
structure Environment where
  globals : Bindings
  scopes : OrderedMap String Bindings
  global_not_scope : globalScope ∉ scopes.keys
  deriving DecidableEq

namespace Environment

@[ext] theorem ext {a b : Environment} (hg : a.globals = b.globals) (hs : a.scopes = b.scopes) :
    a = b := by
  cases a; cases b; cases hg; cases hs; rfl

/-- The environment without bindings. -/
def empty : Environment := ⟨∅, ∅, by simp⟩

instance : EmptyCollection Environment := ⟨empty⟩
instance : Inhabited Environment := ⟨empty⟩

/-- The degree that the evaluation of a variable finds. -/
def resolve? (env : Environment) (name : String) : Option Degree :=
  (env.scopes.entries.findSome? fun p => p.2.get? name).or (env.globals.get? name)

/-- The scope in which the evaluation of a variable finds its degree. -/
def resolveScope? (env : Environment) (name : String) : Option String :=
  match env.scopes.entries.find? fun p => p.2.contains name with
  | some p => some p.1
  | none => if env.globals.contains name then some globalScope else none

/-- The degree that one gate sees under a name: its own binding or the global one. -/
def testGate? (env : Environment) (gate name : String) : Option Degree :=
  (if gate = globalScope then none else (env.scopes.get? gate).bind fun s => s.get? name).or
    (env.globals.get? name)

@[simp] theorem testGate?_globalScope (env : Environment) (name : String) :
    env.testGate? globalScope name = env.globals.get? name := by
  simp [testGate?]

theorem isSome_resolveScope? (env : Environment) (name : String) :
    (env.resolveScope? name).isSome = (env.resolve? name).isSome := by
  have aux : ∀ l : List (String × Bindings),
      (l.find? fun p => p.2.contains name).isSome
        = (l.findSome? fun p => p.2.get? name).isSome := by
    intro l
    induction l with
    | nil => rfl
    | cons p rest ih =>
        rw [List.find?_cons, List.findSome?_cons]
        cases h : p.2.get? name with
        | none => simpa [OrderedMap.contains, h] using ih
        | some x => simp [OrderedMap.contains, h]
  have h := aux env.scopes.entries
  unfold resolveScope? resolve?
  cases hf : env.scopes.entries.find? fun p => p.2.contains name with
  | some p =>
      rw [hf] at h
      simp [← h]
  | none =>
      rw [hf] at h
      cases hg : env.globals.get? name <;> simp [← h, OrderedMap.contains, hg]

/-- The bindings of a gate; a gate without a scope has none. -/
def scope (env : Environment) (gate : String) : Bindings := (env.scopes.get? gate).getD ∅

/-- Whether a gate has a scope. -/
def hasScope (env : Environment) (gate : String) : Bool := env.scopes.contains gate

/-- Bind a name in the global scope or in that of a gate, which is created if need be. -/
def assign (env : Environment) (name : String) (value : Degree) (scope : String) : Environment :=
  if h : scope = globalScope then { env with globals := env.globals.insert name value }
  else
    { env with
      scopes := env.scopes.insert scope ((env.scope scope).insert name value)
      global_not_scope := by
        rw [OrderedMap.keys_insert]
        split
        · exact env.global_not_scope
        · simp only [List.mem_append, List.mem_singleton, not_or]
          exact ⟨env.global_not_scope, fun e => h e.symm⟩ }

theorem assign_globalScope (env : Environment) (name : String) (x : Degree) :
    env.assign name x globalScope = { env with globals := env.globals.insert name x } := by
  unfold assign
  rw [dif_pos rfl]

theorem scopes_assign (env : Environment) {scope : String} (h : scope ≠ globalScope) (name : String)
    (x : Degree) : (env.assign name x scope).scopes =
      env.scopes.insert scope ((env.scope scope).insert name x) := by
  unfold assign
  rw [dif_neg h]

theorem globals_assign (env : Environment) {scope : String} (h : scope ≠ globalScope)
    (name : String) (x : Degree) : (env.assign name x scope).globals = env.globals := by
  unfold assign
  rw [dif_neg h]

/-- The number of bindings in all scopes. -/
def variableCount (env : Environment) : Nat :=
  env.scopes.entries.foldl (fun n p => n + p.2.size) env.globals.size

end Environment

end FuzzyGates
