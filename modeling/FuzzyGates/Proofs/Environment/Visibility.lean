import FuzzyGates.Proofs.Environment.Writes

/-!
# Where an assignment shows

An assignment writes to one place, and the two ways of looking up a name react to it differently.
A gate that is asked sees its own scope and the global bindings behind it.  An evaluation searches
all gate scopes in the order of their creation, so what is assigned in a gate shows only if no
scope that is searched earlier binds the name.

* `testGate?_assign_self`, `testGate?_assign_global`, `testGate?_assign_of_ne` — what gates see
  after an assignment.
* `searchedBefore` — the gate scopes that a search meets before it comes to a place.
* `resolve?_assign_self`, `Binds.hides`, `resolve?_assign_of_ne` — how names resolve after an
  assignment.
* `Dated.Precedes`, `mem_searchedBefore_iff` — the scopes searched before a place are those that
  were created before its own.
* **`assign_changes_reads`** — which reads an assignment changes, and which it leaves alone.
-/

namespace FuzzyGates.Environment

variable {env : Environment} {name key scope gate : String} {x y : Degree}

/-! ### What a gate sees -/

theorem binds_iff_held? (h : gate ≠ globalScope) :
    env.Binds gate name ↔ (env.held? gate name).isSome = true := by
  rw [held?_of_ne h]
  exact Iff.rfl

theorem held?_eq_none_of_not_binds (h : ¬ env.Binds gate name) (hgate : gate ≠ globalScope) :
    env.held? gate name = none :=
  Option.not_isSome_iff_eq_none.mp fun hheld => h ((binds_iff_held? hgate).mpr hheld)

theorem testGate?_assign_self (env : Environment) (name : String) (x : Degree) (scope : String) :
    (env.assign name x scope).testGate? scope name = some x := by
  rw [testGate?_eq_held?, held?_assign, if_pos ⟨rfl, rfl⟩]
  rfl

/-- A gate that does not bind a name sees what is assigned to it in the global scope. -/
theorem testGate?_assign_global (h : ¬ env.Binds gate name) (x : Degree) :
    (env.assign name x globalScope).testGate? gate name = some x := by
  by_cases hgate : gate = globalScope
  · rw [hgate]
    exact testGate?_assign_self env name x globalScope
  · rw [testGate?_eq_held?, held?_assign, if_neg fun hplace => hgate hplace.1.symm,
      held?_eq_none_of_not_binds h hgate, held?_assign, if_pos ⟨rfl, rfl⟩]
    rfl

/-- A gate sees nothing of an assignment elsewhere, if it is not to the global scope or if the
gate binds the name itself. -/
theorem testGate?_assign_of_ne (hplace : ¬ (gate = scope ∧ key = name))
    (hhidden : ¬ (scope = globalScope ∧ key = name ∧ ¬ env.Binds gate name)) (x : Degree) :
    (env.assign name x scope).testGate? gate key = env.testGate? gate key := by
  have hown : (env.assign name x scope).held? gate key = env.held? gate key := by
    rw [held?_assign, if_neg fun h => hplace ⟨h.1.symm, h.2.symm⟩]
  rw [testGate?_eq_held?, testGate?_eq_held?, hown, held?_assign]
  split
  · rename_i hglobal
    -- the gate binds the name, so the global degree does not count
    have hbinds : env.Binds gate key := by
      by_contra hno
      exact hhidden ⟨hglobal.1, hglobal.2.symm, hglobal.2 ▸ hno⟩
    obtain ⟨y, hy⟩ := Option.isSome_iff_exists.mp ((binds_iff_held? hbinds.ne_global).mp hbinds)
    rw [hy]
    rfl
  · rfl

/-! ### How a name resolves -/

/-- A name resolves to what the first gate scope holds that holds anything under it, or else to
the global degree. -/
theorem resolve?_eq_findSome?_keys (env : Environment) (name : String) :
    env.resolve? name =
      (env.scopes.keys.findSome? fun gate => env.held? gate name).or
        (env.held? globalScope name) := by
  have hscopes : (env.scopes.entries.findSome? fun p => p.2.get? name) =
      env.scopes.keys.findSome? fun gate => env.held? gate name := by
    rw [entries_scopes env, List.findSome?_map]
    refine Expr.findSome?_congr fun gate hgate => ?_
    have hne : gate ≠ globalScope := fun heq => env.global_not_scope (heq ▸ hgate)
    exact (held?_of_ne hne name).symm
  unfold resolve?
  rw [hscopes, held?_globalScope]

/-- The gate scopes that a search meets before it comes to a place: those in front of its scope,
or all of them if it is the global place or a gate without a scope. -/
def searchedBefore (env : Environment) (scope : String) : List String :=
  env.scopes.keys.takeWhile fun gate => gate ≠ scope

theorem searchedBefore_of_not_mem (h : scope ∉ env.scopes.keys) :
    env.searchedBefore scope = env.scopes.keys := by
  refine List.takeWhile_eq_self_iff.mpr fun gate hgate => decide_eq_true ?_
  rintro rfl
  exact h hgate

/-- What is found before a place is what the name resolves to. -/
theorem resolve?_of_searchedBefore
    (h : ((env.searchedBefore scope).findSome? fun gate => env.held? gate name) = some y) :
    env.resolve? name = some y := by
  have hkeys : env.searchedBefore scope ++ (env.scopes.keys.dropWhile fun gate => gate ≠ scope) =
      env.scopes.keys := List.takeWhile_append_dropWhile
  rw [resolve?_eq_findSome?_keys, ← hkeys, List.findSome?_append, h]
  rfl

/-- A search of a list that would end at one member ends there, unless it ends earlier. -/
theorem findSome?_eq_takeWhile {α β : Type} [DecidableEq α] {f g : α → Option β} {a : α} {b : β}
    (hself : f a = some b) (hother : ∀ c, c ≠ a → f c = g c) {l : List α} (ha : a ∈ l) :
    l.findSome? f = ((l.takeWhile fun c => c ≠ a).findSome? g).or (some b) := by
  induction l with
  | nil => cases ha
  | cons c rest ih =>
      rw [List.findSome?_cons, List.takeWhile_cons]
      by_cases hc : c = a
      · simp [hc, hself]
      · have hrest := ih ((List.mem_cons.mp ha).resolve_left fun heq => hc heq.symm)
        rw [if_pos (decide_eq_true hc), List.findSome?_cons, hother c hc]
        cases g c with
        | some d => rfl
        | none => exact hrest

/-- The scope of an assignment stands behind the same scopes as before. -/
theorem searchedBefore_assign (env : Environment) (name : String) (x : Degree) (scope : String) :
    (env.assign name x scope).searchedBefore scope = env.searchedBefore scope := by
  rcases keys_scopes_assign env name x scope with hkeys | ⟨habsent, hkeys⟩
  · exact congrArg (List.takeWhile _) hkeys
  · -- a scope that is created stands behind all others
    have habsent := hasScope_eq_false_iff.mp habsent
    rw [searchedBefore_of_not_mem habsent]
    unfold searchedBefore
    rw [hkeys, List.takeWhile_append_of_pos]
    · simp
    · intro gate hgate
      refine decide_eq_true ?_
      rintro rfl
      exact habsent hgate

/-- The assigned name resolves to the new degree, unless a scope that is searched earlier binds
it. -/
theorem resolve?_assign_self (env : Environment) (name : String) (x : Degree) (scope : String) :
    (env.assign name x scope).resolve? name =
      ((env.searchedBefore scope).findSome? fun gate => env.held? gate name).or (some x) := by
  have hself : (env.assign name x scope).held? scope name = some x := by simp [held?_assign]
  have hother : ∀ gate, gate ≠ scope →
      (env.assign name x scope).held? gate name = env.held? gate name := by
    intro gate hgate
    rw [held?_assign, if_neg fun h => hgate h.1.symm]
  rw [resolve?_eq_findSome?_keys, ← searchedBefore_assign env name x scope]
  by_cases hglobal : scope = globalScope
  · -- all gate scopes stay as they are, and they all stand in front of the new degree
    have habsent : scope ∉ (env.assign name x scope).scopes.keys :=
      hglobal ▸ (env.assign name x scope).global_not_scope
    have hgates := Expr.findSome?_congr fun gate hgate =>
      hother gate (ne_of_mem_of_not_mem hgate habsent)
    rw [searchedBefore_of_not_mem habsent, hgates, ← hglobal, hself]
  · have hmem : scope ∈ (env.assign name x scope).scopes.keys := by
      rw [scopes_assign env hglobal, ← OrderedMap.get?_isSome_iff, OrderedMap.get?_insert_self]
      rfl
    rw [findSome?_eq_takeWhile (f := fun gate => (env.assign name x scope).held? gate name)
      hself hother hmem, Option.or_assoc, Option.some_or]
    rfl

theorem Binds.mem_keys (h : env.Binds gate name) : gate ∈ env.scopes.keys := by
  obtain ⟨b, hb, -⟩ := binds_iff.mp h
  exact List.mem_map_of_mem hb

/-- A scope that binds the name and is searched before a place hides what is assigned there. -/
theorem Binds.hides (h : env.Binds gate name) (hgate : gate ∈ env.searchedBefore scope)
    (x : Degree) : (env.assign name x scope).resolve? name = env.resolve? name := by
  have hfound : ((env.searchedBefore scope).findSome?
      fun gate => env.held? gate name).isSome = true := by
    rw [List.findSome?_isSome_iff]
    exact ⟨gate, hgate, (binds_iff_held? h.ne_global).mp h⟩
  obtain ⟨y, hy⟩ := Option.isSome_iff_exists.mp hfound
  rw [resolve?_assign_self, hy, resolve?_of_searchedBefore hy]
  rfl

/-- Other names resolve as before: a scope that is created for an assignment holds nothing else. -/
theorem resolve?_assign_of_ne (env : Environment) {name key : String} (h : key ≠ name)
    (x : Degree) (scope : String) :
    (env.assign name x scope).resolve? key = env.resolve? key := by
  have hheld : ∀ gate, (env.assign name x scope).held? gate key = env.held? gate key := by
    intro gate
    rw [held?_assign, if_neg fun hplace => h hplace.2.symm]
  rw [resolve?_eq_findSome?_keys, resolve?_eq_findSome?_keys]
  simp only [hheld]
  rcases keys_scopes_assign env name x scope with hkeys | ⟨habsent, hkeys⟩
  · rw [hkeys]
  · have hgate : scope ≠ globalScope := by
      rintro rfl
      exact (env.assign name x globalScope).global_not_scope (by simp [hkeys])
    have hnone : env.held? scope key = none := by
      rw [held?_of_ne hgate]
      unfold Environment.scope
      rw [OrderedMap.get?_eq_none_iff.mpr (hasScope_eq_false_iff.mp habsent)]
      rfl
    rw [hkeys, List.findSome?_append]
    simp [hnone]

/-- No name resolves differently after an assignment in the global scope to a name that a gate
scope binds. -/
theorem resolve?_assign_global_of_binds (h : env.Binds gate name) (x : Degree) (key : String) :
    (env.assign name x globalScope).resolve? key = env.resolve? key := by
  by_cases hkey : key = name
  · rw [hkey]
    exact h.hides ((searchedBefore_of_not_mem env.global_not_scope).symm ▸ h.mem_keys) x
  · exact resolve?_assign_of_ne env hkey x globalScope

/-! ### The order of creation -/

/-- The scope of the gate was created before that of a place.  Every gate scope counts as created
before a place that has none: the global one, or a gate to which nothing was assigned. -/
def Dated.Precedes (d : Dated) (gate scope : String) : Prop :=
  d.env.hasScope scope = true → d.created gate < d.created scope

/-- The scopes that are searched before a place are those created before it. -/
theorem Dated.InOrder.mem_searchedBefore_iff {d : Dated} {now : Nat} (h : d.InOrder now)
    {gate scope : String} : gate ∈ d.env.searchedBefore scope ↔
      gate ∈ d.env.scopes.keys ∧ d.Precedes gate scope := by
  by_cases hmem : scope ∈ d.env.scopes.keys
  · have hscope : d.env.hasScope scope = true := (OrderedMap.contains_iff _ _).mpr hmem
    obtain ⟨before, behind, hkeys⟩ := List.append_of_mem hmem
    have hordered := h.ordered
    have hnodup : d.env.scopes.keys.Nodup := d.env.scopes.nodup_keys
    rw [hkeys, List.pairwise_append, List.pairwise_cons] at hordered
    rw [hkeys, List.nodup_append] at hnodup
    have hbefore : d.env.searchedBefore scope = before := by
      unfold searchedBefore
      rw [hkeys, List.takeWhile_append_of_pos]
      · simp
      · exact fun g hg => decide_eq_true (hnodup.2.2 g hg scope List.mem_cons_self)
    rw [hbefore]
    constructor
    · intro hgate
      exact ⟨hkeys ▸ List.mem_append_left _ hgate,
        fun _ => hordered.2.2 gate hgate scope List.mem_cons_self⟩
    · rintro ⟨hgate, hprecedes⟩
      have hlt := hprecedes hscope
      -- neither the scope itself nor one behind it is older than the scope
      rw [hkeys, List.mem_append, List.mem_cons] at hgate
      rcases hgate with hfront | rfl | hlater
      · exact hfront
      · exact absurd hlt (Nat.lt_irrefl _)
      · exact absurd hlt (Nat.lt_asymm (hordered.2.1.1 gate hlater))
  · have hscope := hasScope_eq_false_iff.mpr hmem
    rw [searchedBefore_of_not_mem hmem]
    refine ⟨fun hgate => ⟨hgate, fun htrue => ?_⟩, And.left⟩
    rw [hscope] at htrue
    cases htrue

/-- An evaluation reads the new degree of the assigned name unless a scope that was created before
that of the assignment binds the name; then it reads what it read before. -/
theorem Dated.InOrder.resolve?_assign_self {d : Dated} {now : Nat} (h : d.InOrder now)
    (name : String) (x : Degree) (scope : String) :
    ((∃ gate, d.env.Binds gate name ∧ d.Precedes gate scope) →
        (d.env.assign name x scope).resolve? name = d.env.resolve? name) ∧
      ((¬ ∃ gate, d.env.Binds gate name ∧ d.Precedes gate scope) →
        (d.env.assign name x scope).resolve? name = some x) := by
  constructor
  · rintro ⟨gate, hbinds, hprecedes⟩
    exact hbinds.hides (h.mem_searchedBefore_iff.mpr ⟨hbinds.mem_keys, hprecedes⟩) x
  · intro hnone
    rw [Environment.resolve?_assign_self, List.findSome?_eq_none_iff.mpr, Option.none_or]
    intro gate hgate
    obtain ⟨hmem, hprecedes⟩ := h.mem_searchedBefore_iff.mp hgate
    have hne : gate ≠ globalScope := fun heq => d.env.global_not_scope (heq ▸ hmem)
    exact held?_eq_none_of_not_binds (fun hbinds => hnone ⟨gate, hbinds, hprecedes⟩) hne

/-- **Which reads an assignment changes.**  After any course of operations, an assignment is seen
by the gate that it is made in; if it is made in the global scope, by every gate that does not bind
the name itself; and no gate sees anything else change.  No other name resolves differently.  The
assigned name resolves to the new degree, unless a gate scope that was created before that of the
assignment binds it; then it resolves as before. -/
theorem assign_changes_reads (operations : List Operation) (name : String) (x : Degree)
    (scope : String) :
    let before := (Course.after operations).current
    let env := before.env
    let after := env.assign name x scope
    after.testGate? scope name = some x ∧
      (scope = globalScope → ∀ gate, ¬ env.Binds gate name → after.testGate? gate name = some x) ∧
      (∀ gate key, ¬ (gate = scope ∧ key = name) →
        ¬ (scope = globalScope ∧ key = name ∧ ¬ env.Binds gate name) →
        after.testGate? gate key = env.testGate? gate key) ∧
      (∀ key, key ≠ name → after.resolve? key = env.resolve? key) ∧
      ((∃ gate, env.Binds gate name ∧ before.Precedes gate scope) →
        after.resolve? name = env.resolve? name) ∧
      ((¬ ∃ gate, env.Binds gate name ∧ before.Precedes gate scope) →
        after.resolve? name = some x) := by
  intro before env after
  have horder : before.InOrder (Course.after operations).now := (Course.inOrder_after operations).1
  obtain ⟨hhidden, hshown⟩ := horder.resolve?_assign_self name x scope
  refine ⟨testGate?_assign_self env name x scope, ?_, ?_, ?_, hhidden, hshown⟩
  · rintro rfl gate hgate
    exact testGate?_assign_global hgate x
  · intro gate key hplace hglobal
    exact testGate?_assign_of_ne hplace hglobal x
  · intro key hkey
    exact resolve?_assign_of_ne env hkey x scope

/-- What is assigned in a gate need not be what expressions read: here an older gate binds the
name too. -/
example :
    let env := ((∅ : Environment).assign "x" 0.1 "a").assign "y" 0.2 "b"
    let after := env.assign "x" 0.3 "b"
    after.testGate? "b" "x" = some 0.3 ∧ after.resolve? "x" = some 0.1 := by
  decide

end FuzzyGates.Environment
