import FuzzyGates.Proofs.Environment.Lookup

/-!
# The order in which gate scopes were created

An environment lives through assignments and clearings, and snapshots of it are taken and
brought back.  Every gate scope was created at some moment, by the first assignment that
found the gate without one; a snapshot keeps the scopes of its time and brings them back with
their age.  The scopes of an environment stand in the order of these moments, whatever was
dropped and brought back in between.

* `Operation`, `Course.after` — a course of operations, with the age of every gate scope.
* `Dated.InOrder` — the scopes stand in the order of their creation.
* `inOrder_perform`, `inOrder_after` — an operation keeps this order, so it always holds.
* **`lookups_agree`** — the three ways of looking up a name agree, and a name is found in the
  oldest gate scope that binds it.
-/

namespace FuzzyGates.Environment

/-- What can be done with an environment. -/
inductive Operation
  | assign (name : String) (value : Degree) (scope : String)
  | clear
  | snapshot
  /-- Bring back the bindings of one of the snapshots taken so far. -/
  | restore (index : Nat)

/-- An environment with the moments at which its gate scopes were created. -/
structure Dated where
  env : Environment
  created : String → Nat

/-- What became of an environment: how many operations there were, its bindings, and the
snapshots taken of it. -/
structure Course where
  now : Nat
  current : Dated
  snapshots : List Dated

namespace Dated

/-- Bind a name.  The scope is created now if the gate has none. -/
def assign (d : Dated) (now : Nat) (name : String) (value : Degree) (scope : String) : Dated where
  env := d.env.assign name value scope
  created gate := if gate = scope ∧ d.env.hasScope scope = false then now else d.created gate

/-- The gate scopes stand in the order of their creation, which is past. -/
structure InOrder (d : Dated) (now : Nat) : Prop where
  ordered : d.env.scopes.keys.Pairwise fun earlier later => d.created earlier < d.created later
  past : ∀ gate ∈ d.env.scopes.keys, d.created gate < now

end Dated

namespace Course

/-- The environment without bindings, of which there are no snapshots. -/
def start : Course := ⟨0, ⟨∅, fun _ => 0⟩, []⟩

/-- Perform an operation.  A snapshot that was not taken cannot be brought back. -/
def perform (c : Course) (o : Operation) : Course :=
  match o with
  | .assign name value scope =>
      { c with now := c.now + 1, current := c.current.assign c.now name value scope }
  | .clear => { c with now := c.now + 1, current := { c.current with env := ∅ } }
  | .snapshot => { c with now := c.now + 1, snapshots := c.snapshots ++ [c.current] }
  | .restore i => { c with now := c.now + 1, current := c.snapshots[i]?.getD c.current }

/-- The course of a new environment after some operations. -/
def after (operations : List Operation) : Course := operations.foldl perform start

/-- The environment and its snapshots have their gate scopes in order. -/
def InOrder (c : Course) : Prop :=
  c.current.InOrder c.now ∧ ∀ d ∈ c.snapshots, d.InOrder c.now

end Course

/-! ### The order is kept -/

theorem Dated.InOrder.later {d : Dated} {now : Nat} (h : d.InOrder now) : d.InOrder (now + 1) :=
  ⟨h.ordered, fun gate hgate => Nat.lt_succ_of_lt (h.past gate hgate)⟩

theorem Dated.inOrder_empty (created : String → Nat) (now : Nat) :
    (⟨∅, created⟩ : Dated).InOrder now :=
  ⟨List.Pairwise.nil, fun _ hgate => absurd hgate List.not_mem_nil⟩

theorem hasScope_eq_false_iff {env : Environment} {gate : String} :
    env.hasScope gate = false ↔ gate ∉ env.scopes.keys := by
  rw [← Bool.not_eq_true, ← OrderedMap.contains_iff]
  rfl

/-- An assignment keeps the scopes where they are, or creates that of its gate behind them. -/
theorem keys_scopes_assign (env : Environment) (name : String) (x : Degree) (scope : String) :
    (env.assign name x scope).scopes.keys = env.scopes.keys ∨
      env.hasScope scope = false ∧
        (env.assign name x scope).scopes.keys = env.scopes.keys ++ [scope] := by
  by_cases hglobal : scope = globalScope
  · rw [hglobal, assign_globalScope]
    exact .inl rfl
  · rw [scopes_assign env hglobal, OrderedMap.keys_insert]
    by_cases hmem : scope ∈ env.scopes.keys
    · exact .inl (if_pos hmem)
    · exact .inr ⟨hasScope_eq_false_iff.mpr hmem, if_neg hmem⟩

/-- An assignment dates no scope anew; if it creates one, that is younger than all others. -/
theorem Dated.InOrder.assign {d : Dated} {now : Nat} (h : d.InOrder now) (name : String)
    (x : Degree) (scope : String) : (d.assign now name x scope).InOrder (now + 1) := by
  have hcreated : ∀ gate ∈ d.env.scopes.keys,
      (d.assign now name x scope).created gate = d.created gate := by
    intro gate hgate
    refine if_neg fun hnew => hasScope_eq_false_iff.mp hnew.2 ?_
    exact hnew.1 ▸ hgate
  have hkept : d.env.scopes.keys.Pairwise fun earlier later =>
      (d.assign now name x scope).created earlier < (d.assign now name x scope).created later := by
    refine h.ordered.imp_of_mem fun hearlier hlater hlt => ?_
    rw [hcreated _ hearlier, hcreated _ hlater]
    exact hlt
  have hpast : ∀ gate ∈ d.env.scopes.keys, (d.assign now name x scope).created gate < now := by
    intro gate hgate
    rw [hcreated gate hgate]
    exact h.past gate hgate
  rcases keys_scopes_assign d.env name x scope with hkeys | ⟨habsent, hkeys⟩
  · exact ⟨hkeys ▸ hkept, hkeys ▸ fun gate hgate => Nat.lt_succ_of_lt (hpast gate hgate)⟩
  · have hnew : (d.assign now name x scope).created scope = now := if_pos ⟨rfl, habsent⟩
    refine ⟨?_, ?_⟩
    · show (d.env.assign name x scope).scopes.keys.Pairwise _
      rw [hkeys, List.pairwise_append]
      refine ⟨hkept, List.pairwise_singleton _ _, fun gate hgate g hg => ?_⟩
      rw [List.mem_singleton.mp hg, hnew]
      exact hpast gate hgate
    · intro gate hgate
      rcases List.mem_append.mp (hkeys ▸ hgate) with hold | hadded
      · exact Nat.lt_succ_of_lt (hpast gate hold)
      · rw [List.mem_singleton.mp hadded, hnew]
        exact Nat.lt_succ_self now

/-- **Every operation keeps the gate scopes in the order of their creation**, also a return to
a snapshot: what is brought back was in order when it was put aside. -/
theorem Course.inOrder_perform {c : Course} (h : c.InOrder) (o : Operation) :
    (c.perform o).InOrder := by
  have hsnapshots : ∀ d ∈ c.snapshots, d.InOrder (c.now + 1) := fun d hd => (h.2 d hd).later
  cases o with
  | assign name x scope => exact ⟨h.1.assign name x scope, hsnapshots⟩
  | clear => exact ⟨Dated.inOrder_empty _ _, hsnapshots⟩
  | snapshot =>
      refine ⟨h.1.later, fun d hd => ?_⟩
      rcases List.mem_append.mp hd with hold | hnew
      · exact hsnapshots d hold
      · rw [List.mem_singleton.mp hnew]
        exact h.1.later
  | restore i =>
      refine ⟨?_, hsnapshots⟩
      show (c.snapshots[i]?.getD c.current).InOrder (c.now + 1)
      cases hi : c.snapshots[i]? with
      | none => exact h.1.later
      | some d => exact hsnapshots d (List.mem_of_getElem? hi)

theorem Course.inOrder_after (operations : List Operation) : (after operations).InOrder := by
  have hrun : ∀ c : Course, c.InOrder → (operations.foldl perform c).InOrder := by
    induction operations with
    | nil => exact fun _ h => h
    | cons o rest ih => exact fun c h => ih (c.perform o) (Course.inOrder_perform h o)
  exact hrun start ⟨Dated.inOrder_empty _ _, fun _ hd => absurd hd List.not_mem_nil⟩

/-! ### The oldest scope that binds a name -/

/-- In order, the first gate scope that binds a name is older than all others that do. -/
theorem FirstBinder.oldest {d : Dated} {now : Nat} (hd : d.InOrder now) {name gate : String}
    {x : Degree} (h : d.env.FirstBinder name gate x) {other : String}
    (hother : d.env.Binds other name) (hne : other ≠ gate) :
    d.created gate < d.created other := by
  obtain ⟨before, b, after, hentries, hbefore, -⟩ := h.split
  obtain ⟨b', hmem, hname⟩ := binds_iff.mp hother
  have hordered := hd.ordered
  unfold OrderedMap.keys at hordered
  rw [hentries, List.map_append, List.map_cons, List.pairwise_append, List.pairwise_cons]
    at hordered
  -- the other scope binds the name, so it does not stand before the first that does
  have hafter : (other, b') ∈ after := by
    rw [hentries, List.mem_append, List.mem_cons] at hmem
    rcases hmem with hearlier | hsame | hlater
    · rw [hbefore _ hearlier] at hname
      cases hname
    · exact absurd (congrArg Prod.fst hsame) hne
    · exact hlater
  exact hordered.2.1.1 other (List.mem_map_of_mem hafter)

/-- **The three lookups agree.**  After any course of operations a name is found in no scope
exactly if it does not resolve, and exactly if no gate sees it.  If it is found in a scope, it
resolves to what that scope sees under it; and the scope is the oldest gate scope that binds the
name, or the global one if no gate scope does. -/
theorem lookups_agree (operations : List Operation) (name : String) :
    let course := Course.after operations
    let env := course.current.env
    let created := course.current.created
    (env.resolveScope? name = none ↔ env.resolve? name = none) ∧
      (env.resolve? name = none ↔ ∀ gate, env.testGate? gate name = none) ∧
      ∀ scope, env.resolveScope? name = some scope →
        (∃ x, env.resolve? name = some x ∧ env.testGate? scope name = some x) ∧
          ((env.Binds scope name ∧
              ∀ other, env.Binds other name → other ≠ scope → created scope < created other) ∨
            (scope = globalScope ∧ ∀ gate, ¬ env.Binds gate name)) := by
  intro course env created
  refine ⟨resolveScope?_eq_none_iff, resolve?_eq_none_iff_testGate?, fun scope hscope => ?_⟩
  refine ⟨exists_resolve?_eq_testGate? hscope, ?_⟩
  have horder : course.current.InOrder course.now := (Course.inOrder_after operations).1
  rcases resolveScope?_eq_some_iff.mp hscope with ⟨x, hfirst⟩ | ⟨hglobal, hunscoped, -⟩
  · exact .inl ⟨hfirst.binds, fun _ hother hne => hfirst.oldest horder hother hne⟩
  · exact .inr ⟨hglobal, hunscoped⟩

/-- A scope that was dropped and created again is the younger one, until a snapshot brings the
old ones back. -/
example :
    let dropped : List Operation := [.assign "x" 0.1 "a", .assign "x" 0.2 "b", .snapshot, .clear,
      .assign "x" 0.3 "b", .assign "x" 0.4 "a"]
    let found (operations : List Operation) :=
      (Course.after operations).current.env.resolveScope? "x"
    found dropped = some "b" ∧ found (dropped ++ [.restore 0]) = some "a" := by
  decide

end FuzzyGates.Environment
