import FuzzyGates.Document.Gate
import FuzzyGates.Expr.Build
import FuzzyGates.Log.Event

/-!
# Sessions

A session owns an environment, the expressions bound to gates, and the stack of
gate blocks it is inside of.  Operations run in a `Context`, a session together
with the journal it writes to.  A failing operation keeps what it has done
before it failed.
-/

namespace FuzzyGates

/-- The expression bound to each gate, in the order of first binding. -/
abbrev Registry := OrderedMap Gate Expr

/-- Bindings, gate expressions and the gates that are being worked in, outermost first. -/
structure Session where
  env : Environment
  registry : Registry
  stack : List Gate
  deriving DecidableEq

namespace Session

/-- The session in which nothing has been done. -/
def fresh : Session := ⟨∅, ∅, []⟩

instance : Inhabited Session := ⟨fresh⟩

/-- The scope that assignments go to unless they name one: that of the innermost gate block. -/
def ambient (s : Session) : Scope :=
  match s.stack.getLast? with
  | some g => .gate g
  | none => .global

theorem ambient_eq_global_iff (s : Session) : s.ambient = .global ↔ s.stack = [] := by
  unfold ambient
  cases h : s.stack.getLast? with
  | none => simpa using h
  | some g =>
      have hne : s.stack ≠ [] := by
        intro e
        simp [e] at h
      simp [hne]

/-- The number of gate blocks. -/
def depth (s : Session) : Nat := s.stack.length

/-- The expression bound to a gate; the global scope has none. -/
def expressionOf? (s : Session) : Scope → Option Expr
  | .gate g => s.registry.get? g
  | .global => none

end Session

/-- A session and the journal it writes to. -/
structure Context where
  session : Session
  journal : Log.Journal

/-- Operations on a session: they may fail, and keep their effects when they do. -/
abbrev SessionM := ExceptT Failure (StateM Context)

namespace SessionM

/-- Read something off the session. -/
def reading (f : Session → α) : SessionM α := do return f (← get).session

/-- Change the session. -/
def changing (f : Session → Session) : SessionM Unit :=
  modify fun ctx => { ctx with session := f ctx.session }

/-- Record an event. -/
def note (e : Log.Event) : SessionM Unit :=
  modify fun ctx => { ctx with journal := ctx.journal.note e }

/-- Give up. -/
def fail (e : Failure) : SessionM α := throw e

end SessionM

end FuzzyGates
