import FuzzyGates.Config.Load
import FuzzyGates.Expr.Analysis

/-!
# Programs

A program is a list of steps on named sessions.  A step is one task, or a
block with a body of further steps.  Whether the failure of a step leaves the
block around it is up to the step.
-/

namespace FuzzyGates.Program

/-- What a program hands to an action: a document, or the failure met in building it. -/
abbrev Argument := Except Failure Document

/-- What can be done with one session. -/
inductive Action
  | assignValue (target expr gate : Argument)
  | assignExpression (gate expr : Argument)
  | assign (target expr : Argument)
  | evaluate (expr : Argument)
  | testGate (gate target : Argument)
  | tryTestGate (gate target : Argument)
  | evaluateGate (gate : Argument)
  | tryEvaluateGate (gate : Argument)
  /-- Give up, leaving the surrounding block. -/
  | abort (message : String)
  | reset
  | exported
  | reload
  | load (data : Argument)
  | analyze (expr : Argument) (gate : Option String)
  /-- Bind a name in the environment directly. -/
  | assignIn (name : String) (value : Except Failure Degree) (scope : String)
  | testIn (gate name : String)
  | resolve (name : String)
  | resolveScope (name : String)
  | hasScope (gate : String)
  | showScope (gate : String)
  | showBindings
  | describeBindings
  | clearBindings
  /-- Bind an expression in the registry directly. -/
  | register (gate expr : Argument)
  | registered (gate : Argument)
  | isRegistered (gate : Argument)
  | registrySize
  | registryLogic
  | clearRegistry

instance : Inhabited Action := ⟨.reset⟩

/-- What a step can do besides opening a block: act on its session, or deal with a snapshot of
its bindings that other steps find under the name of a slot. -/
inductive Task
  | act (action : Action)
  | snapshot (slot : String)
  | showSnapshot (slot : String)
  | restore (slot : String)

/-- What a task answers. -/
inductive Reply
  | done
  | degree (x : Degree)
  | degree? (x : Option Degree)
  | attempt (a : Attempt)
  | count (n : Nat)
  | flag (b : Bool)
  | text (s : String)
  | text? (s : Option String)
  | bindings (b : Bindings)
  | environment (env : Environment)
  | exported (e : Export)
  | logic (forms : List (Gate × Document))
  | analysis (a : Analysis)
  | reloaded (copy : Session) (same : Bool)

/-- A block to work in. -/
inductive Block
  | gate (g : Argument)
  | anonymous

/-- A step on a named session. -/
inductive Step
  | task (session : String) (raises : Bool) (task : Task)
  | block (session : String) (raises : Bool) (block : Block) (body : List Step)

instance : Inhabited Step := ⟨.task "" false (.act .reset)⟩

/-- A block that has been entered. -/
inductive Entry
  | gate (g : Gate)
  | anonymous
  deriving DecidableEq

/-- What one step did: its outcome, what was logged since the row before was complete, and the
session afterwards.  A block that was entered also has the rows of its body. -/
inductive Row
  | task (outcome : Except Failure Reply) (records : List Log.Event) (session : Session)
  | block (entry : Entry) (body : List Row) (outcome : Except Failure Reply)
      (records : List Log.Event) (session : Session)

end FuzzyGates.Program
