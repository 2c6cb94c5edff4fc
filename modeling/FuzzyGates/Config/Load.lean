import FuzzyGates.Config.Schema
import FuzzyGates.Session.Assignment
import FuzzyGates.Session.Block
import FuzzyGates.Session.Export

/-!
# Loading configurations

Loading assigns the contents of a configuration one after the other, as a
program would: the globals, then each gate from inside its own block.  Logging
is configured first if the configuration asks for it.
-/

namespace FuzzyGates

namespace Session

open SessionM

/-- Configure the logger. -/
def configureLogging (level format : String) : SessionM Unit :=
  ExceptT.mk fun ctx =>
    let (result, logger) := Log.configure (.ofText level) (.ofText format) ctx.journal.logger
    (result, { ctx with journal := { ctx.journal with logger := logger } })

/-- Apply the options for logging; an empty format is none. -/
def applyLogging (o : LoggingOptions) : SessionM Unit := do
  if o.enabled then
    let format := match o.format with
      | some f => if f = "" then Log.defaultFormat else f
      | none => Log.defaultFormat
    configureLogging o.level.text format

/-- Assign the degrees of a configuration. -/
def loadDegrees (degrees : OrderedMap String Number) (scope : Document) : SessionM Unit :=
  degrees.entries.forM fun p => do
    discard (assignValue (.ofText p.1) (.atom p.2.toAtom) scope)

/-- Load the contents of a gate. -/
def loadGate (g : Gate) (c : GateConfig) : SessionM Unit :=
  withGate g do
    loadDegrees c.degrees (.atom .null)
    match c.expression with
    | some e => assignExpression (.ofText g.name) (.ofExpr e)
    | none => return ()

/-- Load a configuration. -/
def load (c : Config) : SessionM Unit := do
  applyLogging c.logging
  loadDegrees c.globals (.ofText globalScope)
  c.gates.entries.forM fun p => loadGate p.1 p.2
  note (.loaded c.globals.size c.gates.size)

/-- A new session with the contents of a configuration, writing to the same journal. -/
def ofConfig (c : Config) (journal : Log.Journal) : Except Failure Session × Log.Journal :=
  let (result, ctx) := (load c).run ⟨fresh, journal⟩
  (result.map fun _ => ctx.session, ctx.journal)

/-- Export the session and make a new one from the export. -/
def reloaded : SessionM (Session × Bool) := do
  let before ← ((← reading id).exported.mapError Failure.format : Except Failure Export)
  let config ← Config.ofDocument before.toDocument
  let copy ← ExceptT.mk fun ctx =>
    let (result, journal) := ofConfig config ctx.journal
    (result, { ctx with journal := journal })
  let after ← (copy.exported.mapError Failure.format : Except Failure Export)
  return (copy, after = before)

end Session

end FuzzyGates
