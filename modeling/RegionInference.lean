import RegionInference.Analyzer
import RegionInference.Binary64.Basic
import RegionInference.Binary64.Printer
import RegionInference.Binary64.Reader
import RegionInference.Body.Basic
import RegionInference.Body.Draft
import RegionInference.Body.Printer
import RegionInference.Body.Typing
import RegionInference.Bound
import RegionInference.Command.Arguments
import RegionInference.Command.Folder
import RegionInference.Command.Path
import RegionInference.Command.Run
import RegionInference.Constraint.Basic
import RegionInference.Constraint.Generate
import RegionInference.Constraint.Set
import RegionInference.Dataflow.Backward
import RegionInference.Dataflow.Lattice
import RegionInference.Dataflow.Postorder
import RegionInference.Fault.Basic
import RegionInference.Fault.Diagnostic
import RegionInference.Grammar.Meaning
import RegionInference.Grammar.Parser
import RegionInference.Grammar.Rules
import RegionInference.Grammar.Token
import RegionInference.Grammar.Trace
import RegionInference.Grammar.Tree
import RegionInference.Graph.Basic
import RegionInference.Graph.Block
import RegionInference.Graph.Dominance
import RegionInference.Graph.Dot
import RegionInference.Graph.Draft
import RegionInference.Graph.Reach
import RegionInference.Graph.Search
import RegionInference.Json.Basic
import RegionInference.Json.Printer
import RegionInference.Json.Reader
import RegionInference.Lifetime
import RegionInference.Liveness
import RegionInference.Loan.Conflict
import RegionInference.Loan.Derive
import RegionInference.Loan.Fact
import RegionInference.Loan.Narrative
import RegionInference.Loan.Printer
import RegionInference.Log
import RegionInference.NameMap
import RegionInference.NameSet
import RegionInference.Place.Basic
import RegionInference.Place.Text
import RegionInference.Point
import RegionInference.PointSet
import RegionInference.Region
import RegionInference.Report.Basic
import RegionInference.Report.Printer
import RegionInference.Settings
import RegionInference.Solve.Basic
import RegionInference.Solve.Supply
import RegionInference.Statement
import RegionInference.Text.Blank
import RegionInference.Text.Case
import RegionInference.Text.Cursor
import RegionInference.Text.Digit
import RegionInference.Text.Half
import RegionInference.Text.Ident
import RegionInference.Text.Lower
import RegionInference.Text.Printable
import RegionInference.Text.Quoted
import RegionInference.Text.Word
import RegionInference.Ty.Basic
import RegionInference.Ty.Drop
import RegionInference.Ty.Printer
import RegionInference.Ty.Relate
import RegionInference.Variance
import RegionInference.Worklist
import RegionInference.Main
import RegionInference.Proofs.Dataflow
import RegionInference.Proofs.Reach
import RegionInference.Proofs.Levels
import RegionInference.Proofs.Flow
import RegionInference.Proofs.PathLiveness
import RegionInference.Proofs.ConstraintSet
import RegionInference.Proofs.Solving
import RegionInference.Proofs.UseSites
import RegionInference.Proofs.LeastSolution
import RegionInference.Proofs.Violations
import RegionInference.Proofs.Analysis
import RegionInference.Proofs.Subtyping
import RegionInference.Proofs.BorrowSoundness
import RegionInference.Proofs.Justification
import RegionInference.Proofs.ConflictRules
import RegionInference.Proofs.LaterUse
import RegionInference.Proofs.Demands
import RegionInference.Proofs.DropPermissiveness
import RegionInference.Proofs.LeastFacts
import RegionInference.Proofs.Limits
import RegionInference.Proofs.Totality
import RegionInference.Proofs.Renumbering
import RegionInference.Proofs.BlockOrder
import RegionInference.Proofs.Growth
import RegionInference.Proofs.Strictness
import RegionInference.Proofs.WarmStart
import RegionInference.Proofs.RoundLimit
import RegionInference.Proofs.Tuning
import RegionInference.Proofs.History
import RegionInference.Proofs.Implied
import RegionInference.Proofs.Relating
import RegionInference.Proofs.RoundCount
import RegionInference.Proofs.BoundedReach
import RegionInference.Proofs.RelatingLaws
import RegionInference.Proofs.NearestUse
import RegionInference.Proofs.AssignmentGrammar
import RegionInference.Proofs.Narratives
import RegionInference.Proofs.PlaceRoundTrip
import RegionInference.Proofs.DropLifetimes
import RegionInference.Proofs.Dominators
import RegionInference.Proofs.EdgeKinds
import RegionInference.Proofs.TypeGrammar
import RegionInference.Proofs.StructGrammar
import RegionInference.Proofs.TypeRoundTrip
import RegionInference.Proofs.Additions
import RegionInference.Proofs.EnoughIterations
import RegionInference.Proofs.IterationLimit
import RegionInference.Proofs.Numbering
import RegionInference.Proofs.Sessions
import RegionInference.Proofs.Construction
import RegionInference.Proofs.FirstOccurrences
