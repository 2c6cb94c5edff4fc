import Mathlib.Data.List.DropRight
import Mathlib.Data.List.Find
import FuzzyGates.Proofs.Environment.Creation
import FuzzyGates.Proofs.Expr.CrossGate

/-!
# What a sequence of assignments leaves behind

The order in which names were bound inside one scope does not show, and neither does a degree
that has been overwritten.  What shows is the last degree written to each place, and the order in
which the gates were first written to, because evaluations search the gate scopes in this order.

* `Write`, `written` — a sequence of assignments and the environment after it.
* `lastWritten?`, `gatesWritten` — the last degree at a place; the gates, by their first write.
* `held?_written`, `keys_scopes_written` — they are what the environment holds and its scopes.
* `Alike` — environments that hold the same and list the same gates, and all that agrees on them.
* **`last_writes_decide`** — nothing but the last writes and the order of the gates matters.
-/

namespace FuzzyGates.Environment

/-- An assignment of a degree to a name, in the global scope or in that of a gate. -/
structure Write where
  name : String
  value : Degree
  scope : String

/-- The environment after some assignments to the empty one. -/
def written (ws : List Write) : Environment :=
  ws.foldl (fun env w => env.assign w.name w.value w.scope) ∅

/-- The degree that was written last to a name in a scope. -/
def lastWritten? (ws : List Write) (scope name : String) : Option Degree :=
  ((ws.filter fun w => w.scope = scope ∧ w.name = name).getLast?).map Write.value

/-- The gates that were written to, in the order of the first writes. -/
def gatesWritten (ws : List Write) : List String :=
  ((ws.map Write.scope).filter fun scope => scope ≠ globalScope).eraseDups

theorem written_concat (ws : List Write) (w : Write) :
    written (ws ++ [w]) = (written ws).assign w.name w.value w.scope := by
  simp [written]

theorem lastWritten?_concat (ws : List Write) (w : Write) (scope name : String) :
    lastWritten? (ws ++ [w]) scope name =
      if w.scope = scope ∧ w.name = name then some w.value else lastWritten? ws scope name := by
  unfold lastWritten?
  rw [List.filter_append]
  by_cases h : w.scope = scope ∧ w.name = name <;> simp [h]

theorem lastWritten?_eq_none {ws : List Write} {scope name : String}
    (h : ∀ w ∈ ws, ¬ (w.scope = scope ∧ w.name = name)) : lastWritten? ws scope name = none := by
  have hfilter : ws.filter (fun w => w.scope = scope ∧ w.name = name) = [] := by
    simpa [List.filter_eq_nil_iff] using h
  unfold lastWritten?
  rw [hfilter]
  rfl

/-- The last writes agree everywhere if they do at the places that are written to at all. -/
theorem lastWritten?_eq_of_written {ws vs : List Write}
    (h : ∀ w ∈ ws ++ vs, lastWritten? ws w.scope w.name = lastWritten? vs w.scope w.name)
    (scope name : String) : lastWritten? ws scope name = lastWritten? vs scope name := by
  by_cases hwritten : ∃ w ∈ ws ++ vs, w.scope = scope ∧ w.name = name
  · obtain ⟨w, hw, rfl, rfl⟩ := hwritten
    exact h w hw
  · have hnone : ∀ w ∈ ws ++ vs, ¬ (w.scope = scope ∧ w.name = name) :=
      fun w hw hplace => hwritten ⟨w, hw, hplace⟩
    rw [lastWritten?_eq_none fun w hw => hnone w (List.mem_append_left vs hw),
      lastWritten?_eq_none fun w hw => hnone w (List.mem_append_right ws hw)]

theorem gatesWritten_concat (ws : List Write) (w : Write) :
    gatesWritten (ws ++ [w]) =
      if w.scope = globalScope ∨ w.scope ∈ gatesWritten ws then gatesWritten ws
      else gatesWritten ws ++ [w.scope] := by
  unfold gatesWritten
  rw [List.map_append, List.filter_append]
  by_cases hglobal : w.scope = globalScope
  · simp [hglobal]
  · have hlast : ([w].map Write.scope).filter (fun scope => scope ≠ globalScope) = [w.scope] := by
      simp [hglobal]
    rw [hlast, eraseDups_concat]
    simp [hglobal, List.mem_eraseDups]

/-- **A place holds what was written to it last.** -/
theorem held?_written (ws : List Write) (scope name : String) :
    (written ws).held? scope name = lastWritten? ws scope name := by
  induction ws using List.reverseRecOn with
  | nil => exact held?_empty scope name
  | append_singleton ws w ih => rw [written_concat, held?_assign, lastWritten?_concat, ih]

/-- The gate scopes stand in the order of the first writes to them. -/
theorem keys_scopes_written (ws : List Write) : (written ws).scopes.keys = gatesWritten ws := by
  induction ws using List.reverseRecOn with
  | nil => rfl
  | append_singleton ws w ih =>
      rw [written_concat, gatesWritten_concat, ← ih]
      by_cases hglobal : w.scope = globalScope
      · rw [hglobal, assign_globalScope, if_pos (.inl rfl)]
      · rw [scopes_assign _ hglobal, OrderedMap.keys_insert]
        simp [hglobal]

/-! ### Environments that no lookup tells apart -/

/-- Two environments hold the same at every place and list the same gates in the same order.
The order of the names inside their scopes may differ. -/
structure Alike (a b : Environment) : Prop where
  gates : a.scopes.keys = b.scopes.keys
  held : ∀ scope name, a.held? scope name = b.held? scope name

variable {a b : Environment}

/-- The gate scopes are given by the gates, in order, and the scope of each. -/
theorem entries_scopes (env : Environment) :
    env.scopes.entries = env.scopes.keys.map fun gate => (gate, env.scope gate) := by
  have hself : env.scopes.entries = env.scopes.entries.map id := (List.map_id _).symm
  unfold OrderedMap.keys
  rw [List.map_map]
  refine hself.trans (List.map_congr_left fun p hp => ?_)
  exact Prod.ext rfl (scope_of_mem hp).symm

theorem resolveScope?_eq_find?_keys (env : Environment) (name : String) :
    env.resolveScope? name =
      (env.scopes.keys.find? fun gate => (env.scope gate).contains name).or
        (if env.globals.contains name then some globalScope else none) := by
  unfold resolveScope?
  rw [entries_scopes env, List.find?_map]
  simp only [Function.comp_def]
  cases env.scopes.keys.find? fun gate => (env.scope gate).contains name <;> rfl

theorem Alike.globals (h : Alike a b) (name : String) :
    a.globals.get? name = b.globals.get? name := by
  simpa using h.held globalScope name

theorem Alike.scope (h : Alike a b) {gate : String} (hgate : gate ∈ a.scopes.keys)
    (name : String) : (a.scope gate).get? name = (b.scope gate).get? name := by
  have hne : gate ≠ globalScope := fun heq => a.global_not_scope (heq ▸ hgate)
  rw [← held?_of_ne hne, ← held?_of_ne hne, h.held]

/-- A name is found in the same scope, since the gate scopes that bind it are the same and are
searched in the same order. -/
theorem Alike.resolveScope?_eq (h : Alike a b) (name : String) :
    a.resolveScope? name = b.resolveScope? name := by
  have hbinds : ∀ gate ∈ a.scopes.keys,
      (a.scope gate).contains name = (b.scope gate).contains name := by
    intro gate hgate
    unfold OrderedMap.contains
    rw [h.scope hgate]
  have hfind : (a.scopes.keys.find? fun gate => (a.scope gate).contains name) =
      b.scopes.keys.find? fun gate => (b.scope gate).contains name := by
    rw [← h.gates]
    exact List.find?_congr hbinds
  have hglobals : a.globals.contains name = b.globals.contains name := by
    unfold OrderedMap.contains
    rw [h.globals]
  rw [resolveScope?_eq_find?_keys, resolveScope?_eq_find?_keys, hfind, hglobals]

theorem Alike.resolve?_eq (h : Alike a b) (name : String) : a.resolve? name = b.resolve? name := by
  rw [resolve?_eq_bind_held?, resolve?_eq_bind_held?, h.resolveScope?_eq]
  simp only [h.held]

theorem Alike.testGate?_eq (h : Alike a b) (gate name : String) :
    a.testGate? gate name = b.testGate? gate name := by
  rw [testGate?_eq_held?, testGate?_eq_held?, h.held, h.held]

/-- They have as many bindings: the names of a scope may be permuted, but none is missing. -/
theorem Alike.variableCount_eq (h : Alike a b) : a.variableCount = b.variableCount := by
  have hglobals : a.globals.size = b.globals.size := OrderedMap.size_eq_of_get?_eq h.globals
  have hscopes : ∀ gate ∈ a.scopes.keys, (a.scope gate).size = (b.scope gate).size :=
    fun gate hgate => OrderedMap.size_eq_of_get?_eq (h.scope hgate)
  unfold variableCount
  rw [entries_scopes a, entries_scopes b, ← h.gates, List.foldl_map, List.foldl_map, hglobals]
  exact List.foldl_ext _ _ _ fun n gate hgate => by rw [hscopes gate hgate]

theorem Alike.eval_eq (h : Alike a b) (e : Expr) : e.eval a = e.eval b :=
  Expr.eval_congr fun n _ => h.resolve?_eq n.text

theorem Alike.analyze_eq (h : Alike a b) (e : Expr) (gate : Option String) :
    e.analyze (some a) gate = e.analyze (some b) gate := by
  unfold Expr.analyze
  simp only [h.resolveScope?_eq]

theorem alike_written {ws vs : List Write}
    (hlast : ∀ scope name, lastWritten? ws scope name = lastWritten? vs scope name)
    (hgates : gatesWritten ws = gatesWritten vs) : Alike (written ws) (written vs) where
  gates := by rw [keys_scopes_written, keys_scopes_written, hgates]
  held scope name := by rw [held?_written, held?_written, hlast]

/-- **Only the last writes and the order of the gates matter.**  If two sequences of assignments
write the same degree last to every place, or none, and write to the gates for the first time in
the same order, then no lookup, evaluation, analysis or count tells the environments apart. -/
theorem last_writes_decide {ws vs : List Write}
    (hlast : ∀ scope name, lastWritten? ws scope name = lastWritten? vs scope name)
    (hgates : gatesWritten ws = gatesWritten vs) :
    let a := written ws
    let b := written vs
    (∀ name, a.resolve? name = b.resolve? name) ∧
      (∀ name, a.resolveScope? name = b.resolveScope? name) ∧
      (∀ gate name, a.testGate? gate name = b.testGate? gate name) ∧
      (∀ e : Expr, e.eval a = e.eval b) ∧
      (∀ (e : Expr) (gate : Option String), e.analyze (some a) gate = e.analyze (some b) gate) ∧
      a.variableCount = b.variableCount := by
  intro a b
  have h : Alike a b := alike_written hlast hgates
  exact ⟨h.resolve?_eq, h.resolveScope?_eq, h.testGate?_eq, h.eval_eq, h.analyze_eq,
    h.variableCount_eq⟩

/-- Six assignments to two gates and the global scope, two of them overwritten, and the four
that are left in another order. -/
theorem last_writes_decide_overwritten :
    let ws : List Write := [⟨"x", 0.1, "b"⟩, ⟨"x", 0.2, "a"⟩, ⟨"y", 0.3, globalScope⟩,
      ⟨"y", 0.4, "b"⟩, ⟨"x", 0.5, "b"⟩, ⟨"y", 0.6, globalScope⟩]
    let vs : List Write := [⟨"y", 0.6, globalScope⟩, ⟨"y", 0.4, "b"⟩, ⟨"x", 0.2, "a"⟩,
      ⟨"x", 0.5, "b"⟩]
    gatesWritten ws = ["b", "a"] ∧ (written ws).resolve? "x" = some 0.5 ∧
      (∀ name, (written ws).resolve? name = (written vs).resolve? name) ∧
      (written ws).variableCount = (written vs).variableCount := by
  intro ws vs
  have hlast : ∀ scope name, lastWritten? ws scope name = lastWritten? vs scope name :=
    lastWritten?_eq_of_written (by decide)
  obtain ⟨hresolve, -, -, -, -, hcount⟩ := last_writes_decide hlast (by decide)
  exact ⟨by decide, by decide, hresolve, hcount⟩

/-- With the gates in another order the same last writes are read differently. -/
example :
    let ws : List Write := [⟨"x", 0.1, "a"⟩, ⟨"x", 0.2, "b"⟩]
    (written ws).resolve? "x" = some 0.1 ∧ (written ws.reverse).resolve? "x" = some 0.2 := by
  decide

end FuzzyGates.Environment
