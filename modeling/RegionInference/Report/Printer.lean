import RegionInference.Loan.Printer
import RegionInference.Report.Basic

/-!
# The printed forms of reports

A report is shown as a JSON value, for programs, or as a summary, for people.
-/

namespace RegionInference

/-- Regions as an object of arrays of points. -/
def Json.regions (g : Graph) (regions : NameMap PointSet) : Except Fault Json := do
  let listed ← regions.mapM g.pointsOf
  return .obj (listed.map Json.points).entries

/-- A violation as an object. -/
def Violation.toJson (violation : Violation) (g : Graph) : Except Fault Json := do
  let points ← g.pointsOf violation.extra
  return .obj [
    ("lifetime", .str violation.lifetime),
    ("points", .points points),
    ("constraint", .str violation.constraint.text)]

/-- A solution as an object; sets of points are also shown as numbers. -/
def Solution.toJson (solution : Solution) (g : Graph) : Except Fault Json := do
  let bits (set : PointSet) : Json := .str set.text
  let regions ← Json.regions g solution.regions
  let violations ← solution.violations.mapM (·.toJson g)
  return .obj [
    ("regions", regions),
    ("order", .strs solution.regions.keys),
    ("bits", .obj (solution.regions.map bits).entries),
    ("violations", .arr violations),
    ("rounds", .nat solution.rounds),
    ("applications", .nat solution.applications),
    ("converged", .bool solution.converged),
    ("history", .arr (solution.history.map fun growth =>
      .arr [.str growth.lifetime, bits growth.before, bits growth.after]))]

namespace Report

/-- The members of a report as an object. -/
def members (report : Report) : Except Fault (List (String × Json)) := do
  let regions ← Json.regions report.graph report.regions
  let violations ← report.violations.mapM (·.toJson report.graph)
  return [
    ("function", .str report.function),
    ("ok", .bool report.ok),
    ("regions", regions),
    ("conflicts", .arr (report.conflicts.map Conflict.toJson)),
    ("placeholder_violations", .arr violations),
    ("stats", .obj [
      ("points", .nat report.graph.size),
      ("constraints", .nat report.constraints),
      ("solver_rounds", .nat report.rounds),
      ("converged", .bool report.converged)])]

/-- The narratives of the conflicts. -/
def narratives (report : Report) : Except Fault (List Narrative) :=
  report.conflicts.mapM (·.narrate report.graph report.regions)

/-- A line of one character. -/
def rule (c : Char) : String :=
  String.ofList (List.replicate 60 c)

/-- A conflict in one line. -/
def conflictLine (conflict : Conflict) : String :=
  let use := conflict.use.elim "-" Point.text
  let access := conflict.access.elim conflict.cause.text AccessKind.text
  s!"  {conflict.loan.kind.text} borrow of {conflict.loan.path.text} at " ++
    s!"{conflict.loan.point.text}, {access} at {conflict.point.text}, used at {use}"

/-- The summary of a report; `time` is the text of the seconds it took. -/
def summary (report : Report) (time : String) : String :=
  let head := [
    rule '=', s!"  REGION CHECK: {report.function}", rule '=',
    s!"  Points             : {report.graph.size}",
    s!"  Lifetimes          : {report.regions.entries.length}",
    s!"  Constraints        : {report.constraints}",
    s!"  Solver rounds      : {report.rounds}",
    s!"  Conflicts          : {report.conflicts.length}",
    s!"  Placeholder errors : {report.violations.length}",
    s!"  Total time         : {time}s", rule '=']
  let conflicts :=
    if report.conflicts.isEmpty then []
    else ["", "  CONFLICTS:", rule '-'] ++ report.conflicts.map conflictLine ++ [rule '-']
  "\n".intercalate (head ++ conflicts)

end Report

end RegionInference
