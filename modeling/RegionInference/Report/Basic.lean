import RegionInference.Constraint.Generate
import RegionInference.Loan.Conflict
import RegionInference.Loan.Derive
import RegionInference.Log
import RegionInference.Settings

/-!
# Analysis reports

An analysis of a body goes through its phases in order: liveness, constraints, solving, and, if
asked for, conflicts. The report says what came out.
-/

namespace RegionInference

/-- What an analysis of a body came to. -/
structure Report where
  /-- The name of the function. -/
  function : String
  /-- Its graph. -/
  graph : Graph
  /-- The regions, in the order of the lifetimes. -/
  regions : NameMap PointSet
  /-- The conflicts. -/
  conflicts : List Conflict
  /-- The constraints that fixed regions fail. -/
  violations : List Violation
  /-- How many constraints there are. -/
  constraints : Nat
  /-- How many rounds solving took. -/
  rounds : Nat
  /-- Whether solving came to its end. -/
  converged : Bool
  /-- The phases that were gone through. -/
  phases : List String

/-- Whether nothing is to be complained about. -/
def Report.ok (report : Report) : Bool :=
  report.conflicts.isEmpty && report.violations.isEmpty

namespace Body

/-- The conflicts of a body, given its constraints and regions. -/
def conflicts (body : Body) (constraints : ConstraintSet) (regions : NameMap PointSet) :
    Except Fault (List Conflict) := do
  let facts ← body.facts
  ({ body, regions, facts, constraints } : Detector).detect

/-- Analyses a body. -/
def analyze (body : Body) (settings : Settings := {}) : Except Fault Report := do
  let liveness ← Liveness.run body settings.order settings.maxIterations
  let constraints ← ConstraintSet.ofBody body liveness
  let problem : Problem := { constraints, declared := body.declared, options := settings.solve }
  let solution ← problem.solve
  let conflicts ←
    if settings.detectConflicts then body.conflicts constraints solution.regions else pure []
  return {
    function := body.name, graph := body.graph, regions := solution.regions, conflicts
    violations := solution.violations, constraints := constraints.size, rounds := solution.rounds
    converged := solution.converged
    phases := ["liveness", "constraints", "solve"] ++
      if settings.detectConflicts then ["conflicts"] else [] }

end Body

/-! ### Several bodies -/

namespace Report

/-- What is logged about an analysis: a warning if solving was stopped, and, if asked for, the
numbers. The warning shows the limit without its fraction, so it cannot be written if the limit is
infinite. -/
def log (report : Report) (settings : Settings) : List LogLine :=
  let stopped := match report.converged, settings.solve.maxRounds with
    | false, some bound =>
      [⟨.warning, "regionck.region_solver", bound.whole?.map fun limit =>
        s!"region solver stopped after {report.rounds} rounds (limit {limit}); " ++
          "regions are a partial solution"⟩]
    | _, _ => []
  let numbers :=
    if settings.verbose then
      [⟨.info, "regionck.engine", some <|
        s!"{report.function}: {report.graph.size} points, {report.constraints} constraints, " ++
          s!"{report.rounds} rounds, {report.conflicts.length} conflict(s)"⟩]
    else []
  stopped ++ numbers

/-- Analyses bodies until one cannot be analysed; the log has what came before that. -/
def analyzeEach (settings : Settings) : List Body → List LogLine × Except Fault (List Report)
  | [] => ([], .ok [])
  | body :: bodies =>
    match body.analyze settings with
    | .error fault => ([], .error fault)
    | .ok report =>
      let (lines, reports) := analyzeEach settings bodies
      (report.log settings ++ lines, reports.map (report :: ·))

/-- Analyses bodies, in their order. -/
def analyzeAll (settings : Settings) (bodies : List Body) :
    List LogLine × Except Fault (List Report) :=
  match settings.workers with
  | .incomparable => ([], .error .incomparableLimit)
  | _ => analyzeEach settings bodies

end Report

end RegionInference
