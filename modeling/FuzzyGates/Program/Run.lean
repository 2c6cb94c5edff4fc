import FuzzyGates.Environment.Text
import FuzzyGates.Program.Basic

/-!
# Running programs

A program runs in a world of sessions and snapshots, all under names, with one
journal for all.  The body of a block ends at the first step whose failure
leaves it; the block then fails in turn, after it has been left like any other.
-/

namespace FuzzyGates.Program

/-- Named sessions, named snapshots and the journal. -/
structure World where
  sessions : OrderedMap String Session
  snapshots : OrderedMap String Environment
  journal : Log.Journal

namespace World

/-- The world in which nothing has been done, with a logger of the given level. -/
def start (level : Int) : World := ⟨∅, ∅, .start ⟨.number level, []⟩⟩

/-- The session of a name, fresh on first use. -/
def session (w : World) (name : String) : Session := (w.sessions.get? name).getD .fresh

/-- One session with the journal. -/
def context (w : World) (name : String) : Context := ⟨w.session name, w.journal⟩

/-- Put a session and the journal back. -/
def withContext (w : World) (name : String) (ctx : Context) : World :=
  { w with sessions := w.sessions.insert name ctx.session, journal := ctx.journal }

/-- Change one session and the journal. -/
def update (w : World) (name : String) (f : Context → Context) : World :=
  w.withContext name (f (w.context name))

/-- The world with an emptied journal. -/
def flush (w : World) : World := { w with journal := { w.journal with records := [] } }

end World

/-- Operations on a world. -/
abbrev ProgramM := ExceptT Failure (StateM World)

/-- Run an operation on one session. -/
def onSession (name : String) (act : SessionM α) : ProgramM α :=
  ExceptT.mk fun w =>
    let (result, ctx) := act.run (w.context name)
    (result, w.withContext name ctx)

/-- Run an operation that answers nothing. -/
def silently (act : SessionM α) : SessionM Reply := do
  discard act
  return .done

/-- The effect and the answer of an action. -/
def Action.perform : Action → SessionM Reply
  | assignValue target expr gate => do
      return .degree (← Session.assignValue (← target) (← expr) (← gate))
  | assignExpression gate expr => do
      silently (Session.assignExpression (← gate) (← expr))
  | assign target expr => do
      return .degree? (← Session.assign (← target) (← expr))
  | evaluate expr => do return .degree (← Session.evaluate (← expr))
  | testGate gate target => do return .degree (← Session.testGate (← gate) (← target))
  | tryTestGate gate target => do
      let g ← gate
      let t ← target
      return .attempt (← Session.attempt (Session.testGate g t))
  | evaluateGate gate => do return .degree (← Session.evaluateGate (← gate))
  | tryEvaluateGate gate => do
      let g ← gate
      return .attempt (← Session.attempt (Session.evaluateGate g))
  | abort message => throw (.aborted message)
  | reset => silently Session.reset
  | exported => do
      let s ← SessionM.reading id
      let e ← (s.exported.mapError Failure.format : Except Failure Export)
      return .exported e
  | reload => do
      let (copy, same) ← Session.reloaded
      return .reloaded copy same
  | load data => do
      let config ← Config.ofDocument (← data)
      silently (Session.load config)
  | analyze expr gate => do
      let e ← Expr.ofDocument (← expr)
      let env ← SessionM.reading Session.env
      return .analysis (e.analyze (some env) gate)
  | assignIn name value scope => do silently (Session.assignIn name (← value) scope)
  | testIn gate name => do
      match (← SessionM.reading Session.env).testGate? gate name with
      | some x => return .degree x
      | none => throw (.unbound (.ofText name) (some gate))
  | resolve name => do
      match (← SessionM.reading Session.env).resolve? name with
      | some x => return .degree x
      | none => throw (.unbound (.ofText name) none)
  | resolveScope name => do
      return .text? ((← SessionM.reading Session.env).resolveScope? name)
  | hasScope gate => do return .flag ((← SessionM.reading Session.env).hasScope gate)
  | showScope gate => do return .bindings ((← SessionM.reading Session.env).scope gate)
  | showBindings => do return .environment (← SessionM.reading Session.env)
  | describeBindings => do return .text (← SessionM.reading Session.env).text
  | clearBindings => silently (SessionM.changing fun s => { s with env := ∅ })
  | register gate expr => do silently (Session.register (← gate) (← expr))
  | registered gate => do
      let scope ← Scope.ofDocument (← gate)
      return .text? ((← SessionM.reading fun s => s.expressionOf? scope).map Expr.infixText)
  | isRegistered gate => do
      let key ← match (← gate) with
        | .atom a => pure a
        | d => throw (.wrongKind (.key d))
      let s ← SessionM.reading id
      let named : Option Gate := match key with
        | .gate g => some g
        | .text name => Gate.ofName? name
        | _ => none
      return .flag (named.any s.registry.contains)
  | registrySize => do return .count (← SessionM.reading Session.registry).size
  | registryLogic => do
      let s ← SessionM.reading id
      return .logic (← (s.registryLogic.mapError Failure.format : Except Failure _))
  | clearRegistry => silently (SessionM.changing fun s => { s with registry := ∅ })

/-- The snapshot of a name. -/
def snapshotOf (slot : String) : ProgramM Environment := do
  match (← get).snapshots.get? slot with
  | some env => return env
  | none => throw (.noSnapshot slot)

/-- The effect and the answer of a task. -/
def Task.perform (session : String) : Task → ProgramM Reply
  | act a => onSession session a.perform
  | snapshot slot => do
      let env := ((← get).session session).env
      modify fun w => { w with snapshots := w.snapshots.insert slot env }
      return .count env.variableCount
  | showSnapshot slot => do return .environment (← snapshotOf slot)
  | restore slot => do
      let env ← snapshotOf slot
      modify fun w => w.update session (Context.restore env)
      return .done

/-- The failure that leaves the block around a step. -/
def leaving (raises : Bool) : Except Failure α → Option Failure
  | .ok _ => none
  | .error e => if raises then some e else none

/-- Whether the failure of a task always leaves the block around it. -/
def Task.alwaysRaises : Task → Bool
  | act (.abort _) => true
  | _ => false

/-- The block that an argument opens, unless it is refused. -/
def Block.entry : Block → Except Failure Entry
  | gate g => do
      let scope ← Scope.ofDocument (← g)
      return .gate (← scope.toGate)
  | anonymous => return .anonymous

/-- Enter a block. -/
def Entry.enter : Entry → Context → Context
  | gate g => Context.enterGate g
  | anonymous => Context.enterAnonymous

/-- Leave a block that was entered from a session. -/
def Entry.leave (before : Session) : Entry → Context → Context
  | gate g => Context.leaveGate before.depth g
  | anonymous => Context.leaveAnonymous before.env

mutual

/-- Run a step: its row, the failure that leaves the block around it, and the world afterwards. -/
def Step.run : Step → World → Row × Option Failure × World
  | .task name raises task, w =>
      let (outcome, w) := (task.perform name).run w
      (.task outcome w.journal.records (w.session name),
        leaving (raises || task.alwaysRaises) outcome, w.flush)
  | .block name raises block body, w =>
      match block.entry with
      | .error e =>
          (.task (.error e) w.journal.records (w.session name),
            leaving raises (.error e : Except Failure Unit), w.flush)
      | .ok entry =>
          let before := w.session name
          let (rows, failure, w) := runAll body (w.update name entry.enter)
          let w := w.update name (entry.leave before)
          let outcome : Except Failure Reply := match failure with
            | some e => .error e
            | none => .ok (.count rows.length)
          (.block entry rows outcome w.journal.records (w.session name),
            leaving raises outcome, w.flush)

/-- Run steps until one of them fails in a way that leaves the block around them. -/
def runAll : List Step → World → List Row × Option Failure × World
  | [], w => ([], none, w)
  | step :: rest, w =>
      match step.run w with
      | (row, some e, w) => ([row], some e, w)
      | (row, none, w) =>
          let (rows, failure, w) := runAll rest w
          (row :: rows, failure, w)

end

end FuzzyGates.Program
