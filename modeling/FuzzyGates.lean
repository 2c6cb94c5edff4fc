import FuzzyGates.Config.Yaml
import FuzzyGates.Program.Run
import FuzzyGates.FuzzySet.Gates
import FuzzyGates.Proofs.Expr.FirstFault
import FuzzyGates.Proofs.Session.Changes
import FuzzyGates.Proofs.Session.Records
import FuzzyGates.Proofs.Program.Worlds
import FuzzyGates.Proofs.Program.Journal
import FuzzyGates.Proofs.Program.Loading
import FuzzyGates.Proofs.Program.Rollback
import FuzzyGates.Proofs.Program.Moments
import FuzzyGates.Proofs.Program.LexicalStack
import FuzzyGates.Proofs.Session.ScopeRecords
import FuzzyGates.Proofs.Program.Bracketing
import FuzzyGates.Proofs.Logic.RoundTrip
import FuzzyGates.Proofs.OrderedMap
import FuzzyGates.Proofs.Session.Regular
import FuzzyGates.Proofs.Config.Exports
import FuzzyGates.Proofs.Session.Evaluation
import FuzzyGates.Proofs.Session.Replay
import FuzzyGates.Proofs.Session.Reload
import FuzzyGates.Proofs.Logic.Grammar
import FuzzyGates.Proofs.Environment.Creation
import FuzzyGates.Proofs.Expr.CrossGate
import FuzzyGates.Proofs.Config.Assignments
import FuzzyGates.Proofs.Session.Loading
import FuzzyGates.Proofs.Config.Building
import FuzzyGates.Proofs.Session.WellFormed
import FuzzyGates.Proofs.Program.Succession
import FuzzyGates.Proofs.Session.Registry
import FuzzyGates.Proofs.Program.RegistryHistory
import FuzzyGates.Proofs.Failure
import FuzzyGates.Proofs.Environment.Writes
import FuzzyGates.Proofs.Degree.Value
import FuzzyGates.Proofs.Degree.Rounding
import FuzzyGates.Proofs.Degree.Arithmetic
import FuzzyGates.Proofs.Degree.Storing
import FuzzyGates.Proofs.Degree.UnitInterval
import FuzzyGates.Proofs.Expr.UnitInterval
import FuzzyGates.Proofs.Session.UnitInterval
import FuzzyGates.Proofs.Program.UnitInterval
import FuzzyGates.Proofs.FuzzySet.Chains
import FuzzyGates.Proofs.Logic.BreakOff
import FuzzyGates.Proofs.Environment.Visibility
import FuzzyGates.Proofs.Expr.OwnNames
import FuzzyGates.Proofs.Document.Naming
import FuzzyGates.Proofs.Session.Atomicity
import FuzzyGates.Proofs.OrderedMap.Overlay
import FuzzyGates.Proofs.Session.Warnings
import FuzzyGates.Proofs.Session.Overlay
import FuzzyGates.Proofs.Degree.Identity
import FuzzyGates.Proofs.Degree.Duality
import FuzzyGates.Proofs.Degree.Monotone
import FuzzyGates.Proofs.Expr.Duality
import FuzzyGates.Proofs.Expr.Polarity
import FuzzyGates.Proofs.Logic.BareNodes
import FuzzyGates.Proofs.Logic.FirstOffence
import FuzzyGates.Proofs.Logic.Position
import FuzzyGates.Proofs.Logic.Wording
import FuzzyGates.Proofs.Degree.Equality
import FuzzyGates.Proofs.Expr.Equality
import FuzzyGates.Proofs.Expr.Cuts
import FuzzyGates.Proofs.Expr.Exchange
import FuzzyGates.Proofs.Logic.TextKeys
import FuzzyGates.Proofs.Config.Schema
import FuzzyGates.Proofs.FuzzySet.Cuts
import FuzzyGates.Proofs.FuzzySet.Equality
import FuzzyGates.Proofs.Log.Configuring
import FuzzyGates.Proofs.Session.Logging
import FuzzyGates.Proofs.Session.LoggingRequests
