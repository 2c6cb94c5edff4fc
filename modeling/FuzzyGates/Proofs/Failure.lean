import FuzzyGates.Failure
import Mathlib.Data.List.Forall2

/-!
# What may fail, step by step

A result may be missing, and an operation on a state may fail too but leaves a state in any
case.  What follows a failure is not done.

* `bind_eq_ok_iff`, `bind_eq_error_iff` — how two results in a row end.
* `bind_return_eq_ok_iff`, `bind_return_eq_error_iff`, `map_eq_ok_iff`, `mapM_eq_ok_iff` — how
  what is made of a result ends, or of every item of a list.
* `run_bind`, `run_tryCatch` — how two operations in a row run, and an operation with a way out.
-/

namespace FuzzyGates

section Results

variable {ε α β : Type} {x : Except ε α} {f : α → Except ε β}

theorem bind_eq_ok_iff {b : β} : x >>= f = .ok b ↔ ∃ a, x = .ok a ∧ f a = .ok b := by
  cases x <;> simp [bind, Except.bind]

theorem bind_eq_error_iff {err : ε} :
    x >>= f = .error err ↔ x = .error err ∨ ∃ a, x = .ok a ∧ f a = .error err := by
  cases x <;> simp [bind, Except.bind]

/-- A result that is only wrapped up is missing for no other reason. -/
theorem bind_return_eq_error_iff {g : α → β} {err : ε} :
    (do return g (← x)) = .error err ↔ x = .error err := by
  cases x <;> simp [bind, Except.bind, pure, Except.pure]

theorem bind_return_eq_ok_iff {g : α → β} {b : β} :
    (do return g (← x)) = .ok b ↔ ∃ a, x = .ok a ∧ g a = b := by
  cases x <;> simp [bind, Except.bind, pure, Except.pure]

theorem map_eq_ok_iff {g : α → β} {b : β} : x.map g = .ok b ↔ ∃ a, x = .ok a ∧ g a = b := by
  cases x <;> simp [Except.map]

/-- A traversal has a result if every item has one. -/
theorem mapM_eq_ok_iff {l : List α} {bs : List β} :
    l.mapM f = .ok bs ↔ List.Forall₂ (fun a b => f a = .ok b) l bs := by
  induction l generalizing bs with
  | nil => simp [pure, Except.pure, eq_comm]
  | cons a rest ih =>
      rw [List.mapM_cons, List.forall₂_cons_left_iff, bind_eq_ok_iff]
      refine exists_congr fun b => ?_
      rw [bind_eq_ok_iff]
      constructor
      · rintro ⟨hb, bs', hrest, heq⟩
        cases heq
        exact ⟨bs', hb, ih.mp hrest, rfl⟩
      · rintro ⟨bs', hb, hrest, rfl⟩
        exact ⟨hb, bs', ih.mpr hrest, rfl⟩

end Results

section Runs

variable {σ α β : Type}

/-- What follows an operation is run only if the operation has a result. -/
theorem run_bind (x : ExceptT Failure (StateM σ) α) (f : α → ExceptT Failure (StateM σ) β)
    (s : σ) :
    (x >>= f).run s = match x.run s with
      | (.ok a, after) => (f a).run after
      | (.error e, after) => (.error e, after) := by
  show (ExceptT.bind x f).run s = _
  unfold ExceptT.bind
  simp only [ExceptT.run, ExceptT.mk, bind, StateT.bind]
  rcases x s with ⟨_ | _, after⟩ <;> rfl

theorem run_tryCatch (x : ExceptT Failure (StateM σ) α)
    (h : Failure → ExceptT Failure (StateM σ) α) (s : σ) :
    (tryCatch x h).run s = match x.run s with
      | (.ok a, after) => (.ok a, after)
      | (.error e, after) => (h e).run after := by
  show (ExceptT.tryCatch x h).run s = _
  unfold ExceptT.tryCatch
  simp only [ExceptT.run, ExceptT.mk, bind, StateT.bind]
  rcases x s with ⟨_ | _, after⟩ <;> rfl

end Runs

end FuzzyGates
