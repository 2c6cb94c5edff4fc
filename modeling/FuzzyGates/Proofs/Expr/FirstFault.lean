import Mathlib.Data.List.Basic
import FuzzyGates.Expr.Analysis
import FuzzyGates.Expr.Eval

/-!
# The first fault of an expression

An evaluation and an analysis go through an expression on their own ways: the
evaluation recurses into the operands, the analysis looks at the list of names
that the walk collects.  This module proves that both stop at the same node.

* `Expr.Bad` — a node that no evaluation gets past: a variable without a binding,
  or a node whose tag stands for no operator, no literal and no variable.
* `firstFault_eq` — the first fault along the walk is the error of the evaluation,
  and there is none exactly if the evaluation has a degree.
* `head?_unresolved` — the first unresolved name of an analysis is the first name
  along the walk that has no binding.
* **`eval_fails_at_first_bad_node`** — evaluation fails exactly if the walk meets a
  bad node, with the error of the first one, and the analysis agrees with it.
-/

namespace FuzzyGates.Expr

/-- A node that no evaluation gets past. -/
def Bad (env : Environment) (n : Expr) : Prop :=
  (∃ x, n = var x ∧ env.resolve? x.text = none) ∨
    (n.tag ≠ "value" ∧ n.tag ≠ "var" ∧ Operator.ofTag? n.tag = none)

/-- The error that names a node as the culprit. -/
def blame : Expr → EvalError
  | var x => .unbound x.text
  | n => .inoperable n

/-- The bare nodes are those whose tag means nothing. -/
theorem isBare_iff (n : Expr) :
    n.isBare = true ↔ n.tag ≠ "value" ∧ n.tag ≠ "var" ∧ Operator.ofTag? n.tag = none := by
  cases n with
  | value x => simp [isBare, tag]
  | var x => simp [isBare, tag]
  | join c l r => simpa [isBare, tag] using fun _ _ => by cases c <;> decide
  | complement e => simpa [isBare, tag] using by decide
  | alphaCut e t => simpa [isBare, tag] using by decide
  | bareUnary e => simpa [isBare, tag] using by decide
  | bareBinary l r => simpa [isBare, tag] using by decide

theorem bad_var_iff (env : Environment) (x : Name) :
    (var x).Bad env ↔ env.resolve? x.text = none := by
  simp [Bad, tag]

theorem bad_iff_isBare (env : Environment) {n : Expr} (h : n.name? = none) :
    n.Bad env ↔ n.isBare = true := by
  rw [isBare_iff]
  constructor
  · rintro (⟨x, rfl, -⟩ | hbare)
    · simp [name?] at h
    · exact hbare
  · exact Or.inr

/-- A node that is no variable adds a fault if it is bare, and is blamed itself. -/
theorem fault?_of_name?_eq_none (env : Environment) {n : Expr} (h : n.name? = none) :
    n.fault? env = if n.isBare then some n.blame else none := by
  cases n with
  | var x => simp [name?] at h
  | value _ | join _ _ _ | complement _ | alphaCut _ _ | bareUnary _ | bareBinary _ _ => rfl

/-- A node adds a fault exactly if it is bad, and the fault blames that node. -/
theorem fault?_eq_some_iff (env : Environment) (n : Expr) (err : EvalError) :
    n.fault? env = some err ↔ n.Bad env ∧ err = n.blame := by
  cases hn : n.name? with
  | none =>
      rw [fault?_of_name?_eq_none env hn, bad_iff_isBare env hn]
      cases n.isBare <;> simp [eq_comm]
  | some x =>
      obtain rfl : n = var x := by cases n <;> simp_all [name?]
      rw [bad_var_iff]
      cases h : env.resolve? x.text <;> simp [fault?, blame, h, eq_comm]

theorem fault?_eq_none_iff (env : Environment) (n : Expr) : n.fault? env = none ↔ ¬ n.Bad env := by
  rw [Option.eq_none_iff_forall_ne_some]
  constructor
  · intro h hbad
    exact h n.blame ((fault?_eq_some_iff env n _).mpr ⟨hbad, rfl⟩)
  · intro h err herr
    exact h ((fault?_eq_some_iff env n err).mp herr).1

/-- The first fault along the walk. -/
def firstFault (env : Environment) (e : Expr) : Option EvalError :=
  e.walk.findSome? (fault? env)

@[simp] theorem firstFault_join (env : Environment) (c : Connective) (l r : Expr) :
    (join c l r).firstFault env = (l.firstFault env).or (r.firstFault env) := by
  simp [firstFault, walk, fault?, isBare, List.findSome?_append]

@[simp] theorem firstFault_complement (env : Environment) (e : Expr) :
    (complement e).firstFault env = e.firstFault env := by
  simp [firstFault, walk, fault?, isBare]

@[simp] theorem firstFault_alphaCut (env : Environment) (e : Expr) (t : Degree) :
    (alphaCut e t).firstFault env = e.firstFault env := by
  simp [firstFault, walk, fault?, isBare]

/-- What an evaluation that ended with a result or an error has to blame. -/
def errorOf : Except EvalError Degree → Option EvalError
  | .ok _ => none
  | .error err => some err

/-- **The evaluation fails with the first fault along the walk**, and has a degree if there is
none.  A bare node is met before its operands on both ways, which is what makes the two orders
agree below it. -/
theorem firstFault_eq (env : Environment) (e : Expr) : e.firstFault env = errorOf (e.eval env) := by
  induction e with
  | value x => rfl
  | var n =>
      cases h : env.resolve? n.text <;> simp [firstFault, walk, fault?, eval, errorOf, h]
  | join c l r ihl ihr =>
      rw [firstFault_join, ihl, ihr]
      cases hl : l.eval env with
      | error err => simp [eval, hl, errorOf, bind, Except.bind]
      | ok a =>
          cases hr : r.eval env <;>
            simp [eval, hl, hr, errorOf, bind, Except.bind, pure, Except.pure]
  | complement e ih =>
      rw [firstFault_complement, ih]
      cases h : e.eval env <;> simp [eval, h, errorOf, bind, Except.bind, pure, Except.pure]
  | alphaCut e t ih =>
      rw [firstFault_alphaCut, ih]
      cases h : e.eval env <;> simp [eval, h, errorOf, bind, Except.bind, pure, Except.pure]
  | bareUnary e ih => simp [firstFault, walk, fault?, isBare, eval, errorOf]
  | bareBinary l r ihl ihr => simp [firstFault, walk, fault?, isBare, eval, errorOf]

theorem eval_eq_error_iff (env : Environment) (e : Expr) (err : EvalError) :
    e.eval env = .error err ↔ e.firstFault env = some err := by
  rw [firstFault_eq]
  cases e.eval env <;> simp [errorOf]

theorem exists_eval_eq_ok_iff (env : Environment) (e : Expr) :
    (∃ x, e.eval env = .ok x) ↔ e.firstFault env = none := by
  rw [firstFault_eq]
  cases e.eval env <;> simp [errorOf]

/-- The fault of a variable, by name. -/
def unboundFault (env : Environment) (x : Name) : Option EvalError :=
  if (env.resolve? x.text).isSome then none else some (.unbound x.text)

theorem findSome?_congr {α β : Type} {f g : α → Option β} {l : List α} (h : ∀ a ∈ l, f a = g a) :
    l.findSome? f = l.findSome? g := by
  rw [← List.head?_filterMap, ← List.head?_filterMap, List.filterMap_congr h]

/-- Without bare nodes only the names along the walk can be at fault. -/
theorem firstFault_eq_findSome?_names (env : Environment) {e : Expr} (h : e.Concrete) :
    e.firstFault env = (e.walk.filterMap name?).findSome? (unboundFault env) := by
  rw [firstFault, ← List.head?_filterMap, ← List.head?_filterMap, List.filterMap_filterMap]
  congr 1
  apply List.filterMap_congr
  intro n hn
  cases hname : n.name? with
  | none => simp [fault?_of_name?_eq_none env hname, h n hn]
  | some x =>
      obtain rfl : n = var x := by cases n <;> simp_all [name?]
      rfl

/-- Dropping later repetitions does not change what is found first. -/
theorem findSome?_eraseDups {α β : Type} [DecidableEq α] (f : α → Option β) (l : List α) :
    l.eraseDups.findSome? f = l.findSome? f := by
  induction hn : l.length using Nat.strongRecOn generalizing l with
  | ind n ih =>
      cases l with
      | nil => rfl
      | cons a rest =>
          rw [List.eraseDups_cons, List.findSome?_cons, List.findSome?_cons]
          cases ha : f a with
          | some b => rfl
          | none =>
              have hlen : (rest.filter fun b => !b == a).length < n := by
                have := List.length_filter_le (fun b => !b == a) rest
                simp at hn
                omega
              show (rest.filter fun b => !b == a).eraseDups.findSome? f = rest.findSome? f
              rw [ih _ hlen _ rfl, ← List.head?_filterMap, ← List.head?_filterMap,
                List.filterMap_filter]
              -- the elements that are left out are copies of `a`, for which nothing is found
              congr 1
              apply List.filterMap_congr
              intro b _
              by_cases hb : b = a <;> simp [hb, ha]

/-- The first unresolved name of an analysis is the first one along the walk without a binding. -/
theorem head?_unresolved (env : Environment) (gate : Option String) (e : Expr) :
    (e.analyze (some env) gate).unresolved.head? =
      (e.walk.filterMap name?).findSome? fun x =>
        if (env.resolve? x.text).isSome then none else some x.text := by
  rw [← findSome?_eraseDups]
  simp only [analyze, names, List.map_map, List.filterMap_map, List.head?_filterMap]
  apply findSome?_congr
  intro x _
  have hsome := env.isSome_resolveScope? x.text
  cases hs : env.resolveScope? x.text <;> cases hr : env.resolve? x.text <;> simp_all

/-- The two searches for a name without a binding find the same one. -/
theorem firstFault_eq_map_head?_unresolved (env : Environment) (gate : Option String) {e : Expr}
    (h : e.Concrete) :
    e.firstFault env = (e.analyze (some env) gate).unresolved.head?.map .unbound := by
  rw [firstFault_eq_findSome?_names env h, head?_unresolved, List.map_findSome?]
  apply findSome?_congr
  intro x _
  cases hr : env.resolve? x.text <;> simp [unboundFault, hr]

theorem analyze_evaluable_iff (env : Environment) (gate : Option String) (e : Expr) :
    (e.analyze (some env) gate).evaluable = true ↔
      (e.analyze (some env) gate).unresolved.head? = none := by
  rw [Analysis.evaluable, List.isEmpty_iff, List.head?_eq_none_iff]

/-- **Evaluation fails exactly if the walk meets a bad node**, and then with the error that blames
the first one.  Of a tree without bare nodes an analysis says beforehand whether the evaluation
will succeed, and the first name that it lists as unresolved is the one that the error gives. -/
theorem eval_fails_at_first_bad_node (env : Environment) (e : Expr) :
    ((∃ err, e.eval env = .error err) ↔ ∃ n ∈ e.walk, n.Bad env) ∧
      (∀ before n after, e.walk = before ++ n :: after → (∀ m ∈ before, ¬ m.Bad env) →
        n.Bad env → e.eval env = .error n.blame) ∧
      (e.Concrete → ∀ gate,
        ((e.analyze (some env) gate).evaluable = true ↔ ∃ x, e.eval env = .ok x) ∧
          ∀ err, e.eval env = .error err →
            ∃ name, (e.analyze (some env) gate).unresolved.head? = some name ∧
              err = .unbound name) := by
  refine ⟨?_, ?_, ?_⟩
  · constructor
    · rintro ⟨err, herr⟩
      obtain ⟨n, hn, hfault⟩ :=
        List.exists_of_findSome?_eq_some ((eval_eq_error_iff env e err).mp herr)
      exact ⟨n, hn, ((fault?_eq_some_iff env n err).mp hfault).1⟩
    · rintro ⟨n, hn, hbad⟩
      by_contra hno
      have hnone : e.firstFault env = none := by
        rw [Option.eq_none_iff_forall_ne_some]
        exact fun err h => hno ⟨err, (eval_eq_error_iff env e err).mpr h⟩
      exact (fault?_eq_none_iff env n).mp (List.findSome?_eq_none_iff.mp hnone n hn) hbad
  · intro before n after hwalk hbefore hbad
    rw [eval_eq_error_iff, firstFault, List.findSome?_eq_some_iff]
    exact ⟨before, n, after, hwalk, (fault?_eq_some_iff env n _).mpr ⟨hbad, rfl⟩,
      fun m hm => (fault?_eq_none_iff env m).mpr (hbefore m hm)⟩
  · intro hconcrete gate
    have hfault := firstFault_eq_map_head?_unresolved env gate hconcrete
    constructor
    · rw [analyze_evaluable_iff, exists_eval_eq_ok_iff, hfault, Option.map_eq_none_iff]
    · intro err herr
      rw [eval_eq_error_iff, hfault, Option.map_eq_some_iff] at herr
      obtain ⟨name, hname, rfl⟩ := herr
      exact ⟨name, hname, rfl⟩

end FuzzyGates.Expr
