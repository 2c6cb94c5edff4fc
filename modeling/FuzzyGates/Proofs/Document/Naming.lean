import FuzzyGates.Session.Assignment

/-!
# Arguments that name variables and scopes

A variable is named by a variable node or by a text, a scope by a gate or by a text.  A text that
names something is not empty, and nothing else names anything.

* `Scope.ofDocument_eq_global_iff`, `Scope.ofDocument_eq_error_iff` — how a scope is read off.
* `NamesScope`, `exists_scope_iff` — the arguments that name a scope.
* `NamesVariable`, `exists_targetName_iff` — the arguments that name a variable.
-/

namespace FuzzyGates

/-- Only the name of the global scope stands for the global scope. -/
theorem Scope.ofDocument_eq_global_iff (d : Document) :
    Scope.ofDocument d = .ok .global ↔ d = .ofText globalScope := by
  unfold Scope.ofDocument
  split
  · simp [Document.ofText]
  · next s =>
      unfold Scope.ofName?
      by_cases hempty : s = ""
      · subst hempty
        simp [Document.ofText, globalScope]
      · have hne : globalScope ≠ "" := by decide
        by_cases hglobal : s = globalScope <;> simp [Document.ofText, hempty, hglobal, hne]
  · next hgate htext => simpa [Document.ofText] using htext globalScope

/-- Neither a gate nor a text with a character in it: nothing else fails to stand for a scope. -/
theorem Scope.ofDocument_eq_error_iff (d : Document) (e : Failure) :
    Scope.ofDocument d = .error e ↔
      (∀ g, d ≠ .atom (.gate g)) ∧ (∀ s, d = .ofText s → s = "") ∧
        e = .wrongKind (.gateLike d) := by
  unfold Scope.ofDocument
  split
  · simp [Document.ofText]
  · next s =>
      unfold Scope.ofName?
      by_cases hempty : s = ""
      · subst hempty
        simp [Document.ofText, eq_comm]
      · have hne : globalScope ≠ "" := by decide
        by_cases hglobal : s = globalScope <;> simp [Document.ofText, hempty, hglobal, hne]
  · next hgate htext =>
      simp only [Except.error.injEq]
      constructor
      · intro he
        exact ⟨hgate, fun s hs => absurd hs (htext s), he.symm⟩
      · rintro ⟨-, -, he⟩
        exact he.symm

namespace Document

/-- An argument that is a gate or a text with a character in it. -/
def NamesScope (d : Document) : Prop :=
  (∃ g, d = .atom (.gate g)) ∨ ∃ text, text ≠ "" ∧ d = .ofText text

/-- An argument that is a variable or a text with a character in it. -/
def NamesVariable (d : Document) : Prop :=
  (∃ n, d = .ofExpr (.var n)) ∨ ∃ text, text ≠ "" ∧ d = .ofText text

theorem exists_scope_iff (d : Document) :
    (∃ scope, Scope.ofDocument d = .ok scope) ↔ d.NamesScope := by
  cases hscope : Scope.ofDocument d with
  | error e =>
      obtain ⟨hgate, htext, -⟩ := (Scope.ofDocument_eq_error_iff d e).mp hscope
      have hno : ¬ d.NamesScope := by
        rintro (⟨g, hg⟩ | ⟨text, hne, hd⟩)
        · exact hgate g hg
        · exact hne (htext text hd)
      simp [hno]
  | ok scope =>
      refine iff_of_true ⟨scope, rfl⟩ (Classical.byContradiction fun hno => ?_)
      have herror := (Scope.ofDocument_eq_error_iff d _).mpr ⟨fun g hg => hno (.inl ⟨g, hg⟩),
        fun text hd => Decidable.byContradiction fun hne => hno (.inr ⟨text, hne, hd⟩), rfl⟩
      rw [hscope] at herror
      cases herror

theorem exists_targetName_iff (d : Document) :
    (∃ n, Session.targetName d = .ok n) ↔ d.NamesVariable := by
  unfold Session.targetName NamesVariable
  split
  · next n => simp [ofExpr]
  · next text =>
      by_cases htext : text = ""
      · simp [Name.ofText?, ofText, ofExpr, htext]
      · simp [Name.ofText?, ofText, htext]
  · next hvar htext => simpa [ofExpr, ofText] using ⟨hvar, fun text _ => htext text⟩

end Document

end FuzzyGates
