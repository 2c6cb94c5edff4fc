import FuzzyGates.Proofs.Environment.Visibility

/-!
# An evaluation depends on its own names only

Of an environment an expression reads how its own variables resolve, and nothing else.  What
else is bound, and where, has no influence on the result, and neither has an assignment that
these variables do not see.

* `AgreeOn` — two environments resolve some names alike.
* `agreeOn_assign_of_not_mem`, `agreeOn_assign_global` — assignments that some names do not see.
* `exists_eval_eq_ok_iff_resolves` — which expressions have a degree in an environment.
* `eval_eq_ok_or_unbound` — without bare nodes, a degree or a variable that does not resolve.
* **`eval_reads_own_names`** — environments that agree on the variables of an expression give it
  the same degree, or name the same unbound variable.
-/

namespace FuzzyGates

namespace Environment

/-- Two environments resolve the names of a list alike, or neither resolves them. -/
def AgreeOn (names : List Name) (a b : Environment) : Prop :=
  ∀ n ∈ names, a.resolve? n.text = b.resolve? n.text

instance (names : List Name) (a b : Environment) : Decidable (AgreeOn names a b) :=
  inferInstanceAs (Decidable (∀ n ∈ names, _))

variable {names : List Name} {env : Environment} {name : String}

/-- Names do not see an assignment to another name, in whatever scope it is made. -/
theorem agreeOn_assign_of_not_mem (h : name ∉ names.map Name.text) (x : Degree) (scope : String) :
    AgreeOn names (env.assign name x scope) env := by
  intro n hn
  refine resolve?_assign_of_ne env ?_ x scope
  rintro rfl
  exact h (List.mem_map_of_mem hn)

/-- No name sees an assignment in the global scope that the scope of a gate hides. -/
theorem agreeOn_assign_global {gate : String} (h : env.Binds gate name) (x : Degree) :
    AgreeOn names (env.assign name x globalScope) env :=
  fun n _ => resolve?_assign_global_of_binds h x n.text

end Environment

namespace Expr

open Environment (AgreeOn)

/-- An expression has a degree exactly if it holds no bare node and all its variables resolve. -/
theorem exists_eval_eq_ok_iff_resolves (env : Environment) (e : Expr) :
    (∃ x, e.eval env = .ok x) ↔
      e.Concrete ∧ ∀ n ∈ e.names, (env.resolve? n.text).isSome = true := by
  have hnames : e.Concrete → (e.firstFault env = none ↔
      ∀ n ∈ e.names, (env.resolve? n.text).isSome = true) := by
    intro hconcrete
    rw [firstFault_eq_findSome?_names env hconcrete, ← findSome?_eraseDups,
      List.findSome?_eq_none_iff]
    refine forall₂_congr fun n _ => ?_
    cases hn : env.resolve? n.text <;> simp [unboundFault, hn]
  rw [exists_eval_eq_ok_iff]
  constructor
  · intro hnone
    have hconcrete : e.Concrete := by
      intro n hn
      have hfault := List.findSome?_eq_none_iff.mp hnone n hn
      rw [fault?_eq_none_iff, Bad, ← isBare_iff, not_or] at hfault
      simpa using hfault.2
    exact ⟨hconcrete, (hnames hconcrete).mp hnone⟩
  · rintro ⟨hconcrete, hresolve⟩
    exact (hnames hconcrete).mpr hresolve

/-- An expression without bare nodes has a degree, or one of its variables does not resolve. -/
theorem eval_eq_ok_or_unbound {e : Expr} (h : e.Concrete) (env : Environment) :
    (∃ x, e.eval env = .ok x) ∨ ∃ n ∈ e.names, e.eval env = .error (.unbound n.text) := by
  cases hfault : e.firstFault env with
  | none => exact .inl ((exists_eval_eq_ok_iff env e).mpr hfault)
  | some err =>
      right
      have hfirst := hfault
      rw [firstFault_eq_findSome?_names env h, ← findSome?_eraseDups] at hfirst
      obtain ⟨n, hn, hunbound⟩ := List.exists_of_findSome?_eq_some hfirst
      have herr : err = .unbound n.text := by
        unfold unboundFault at hunbound
        split at hunbound
        · cases hunbound
        · exact (Option.some.inj hunbound).symm
      exact ⟨n, hn, (eval_eq_error_iff env e _).mpr (herr ▸ hfault)⟩

/-- **An evaluation depends on its own names only.**  If two environments agree on the variables of
an expression, both give it the same degree, or both fail at the same variable, whatever else they
bind.  So the result stays the same after an assignment to a name that is no variable of the
expression, in any scope, and after one in the global scope to a name that some gate scope
binds. -/
theorem eval_reads_own_names (e : Expr) (h : e.Concrete) :
    (∀ a b : Environment, AgreeOn e.names a b →
      (∃ x, e.eval a = .ok x ∧ e.eval b = .ok x) ∨
        ∃ n ∈ e.names, e.eval a = .error (.unbound n.text) ∧
          e.eval b = .error (.unbound n.text)) ∧
      (∀ (env : Environment) (name : String) (x : Degree) (scope : String),
        name ∉ e.names.map Name.text → e.eval (env.assign name x scope) = e.eval env) ∧
      (∀ (env : Environment) (name : String) (x : Degree), (∃ gate, env.Binds gate name) →
        e.eval (env.assign name x globalScope) = e.eval env) := by
  refine ⟨fun a b hagree => ?_, fun env name x scope hname => ?_, fun env name x hshadowed => ?_⟩
  · have hsame : e.eval a = e.eval b := eval_congr hagree
    rw [← hsame]
    rcases eval_eq_ok_or_unbound h a with ⟨x, hx⟩ | ⟨n, hn, herr⟩
    · exact .inl ⟨x, hx, hx⟩
    · exact .inr ⟨n, hn, herr, herr⟩
  · exact eval_congr (Environment.agreeOn_assign_of_not_mem hname x scope)
  · obtain ⟨gate, hgate⟩ := hshadowed
    exact eval_congr (Environment.agreeOn_assign_global hgate x)

/-- Two environments without a scope in common agree on the variables of an expression: one
resolves to the same degree, the other to none.  Assignments to another name, and to a global one
that a gate hides, leave the result as it is. -/
theorem eval_reads_own_names_elsewhere :
    let e := join .or (alphaCut (var ⟨"x", by decide⟩) 0.25) (complement (var ⟨"y", by decide⟩))
    let a := ((∅ : Environment).assign "x" 0.5 "a").assign "z" 0.1 "a"
    let b := ((∅ : Environment).assign "x" 0.5 globalScope).assign "w" 0.2 "b"
    e.Concrete ∧ AgreeOn e.names a b ∧
      (∃ n ∈ e.names, e.eval a = .error (.unbound n.text) ∧ e.eval b = .error (.unbound n.text)) ∧
      e.eval (a.assign "w" 0.3 "c") = e.eval a ∧
      e.eval (a.assign "x" 0.3 globalScope) = e.eval a := by
  intro e a b
  have hconcrete : e.Concrete := by decide
  have hagree : AgreeOn e.names a b := by decide
  obtain ⟨hboth, hother, hhidden⟩ := eval_reads_own_names e hconcrete
  refine ⟨hconcrete, hagree, ?_, hother a "w" 0.3 "c" (by decide), hhidden a "x" 0.3 ⟨"a", rfl⟩⟩
  have hunbound : e.eval a = .error (.unbound "y") := rfl
  rcases hboth a b hagree with ⟨x, hx, -⟩ | hfails
  · rw [hunbound] at hx
    cases hx
  · exact hfails

end Expr

end FuzzyGates
