import RegionInference.Binary64.Reader
import RegionInference.Dataflow.Backward
import RegionInference.Json.Basic
import RegionInference.NameMap
import RegionInference.Solve.Basic
import RegionInference.Text.Half
import RegionInference.Text.Lower

/-!
# Settings

How an analysis is run. Settings come as named values, each of which may be left out. Names and the
processing order are checked when settings are read; the other values are taken as they are, and
count as true or false, or as a bound, where they are needed.
-/

namespace RegionInference

/-- How an analysis is run. -/
structure Settings where
  /-- The order in which liveness processes the blocks. -/
  order : Order := .postorder
  /-- A bound on the iterations of liveness. -/
  maxIterations : Bound := .count defaultIterationLimit
  /-- How regions are solved. -/
  solve : SolveOptions := {}
  /-- Whether conflicts are looked for. -/
  detectConflicts : Bool := true
  /-- How many functions may be analysed at a time. -/
  workers : Bound := .count 1
  /-- Whether each analysis is logged. -/
  verbose : Bool := false

namespace Settings

/-- The settings by name, with the values they have when nothing is given. -/
def defaults : NameMap Json :=
  ⟨[("worklist_strategy", .str Order.postorder.text),
    ("max_liveness_iterations", .int defaultIterationLimit), ("max_solver_rounds", .null),
    ("raise_on_round_limit", .bool true), ("strict_placeholders", .bool false),
    ("check_monotonicity", .bool false), ("detect_conflicts", .bool true), ("workers", .int 1),
    ("verbose", .bool false)]⟩

/-- Checks that all names are those of settings. -/
def checkNames (names : List String) : Except Fault Unit :=
  match (NameSet.ofList (names.filter (· ∉ defaults.keys))).toList with
  | [] => .ok ()
  | unknown => .error (.unknownSettings unknown)

/-- A value for the processing order: a text has to name one, in small or capital letters. -/
def checkOrder : Json → Except Fault Json
  | .str text =>
    match Order.ofText? (String.ofList (Text.lower text.toList)) with
    | some order => .ok (.str order.text)
    | none => .error (.unknownOrder text)
  | other => .ok other

/-- Fills in what named values leave out. -/
def fill (given : NameMap Json) : Except Fault (NameMap Json) := do
  checkNames given.keys
  let values ← defaults.entries.mapM fun (name, usual) => do
    match given.get? name with
    | none => return (name, usual)
    | some value =>
      if name == "worklist_strategy" then return (name, ← checkOrder value)
      else return (name, value)
  return ⟨values⟩

/-- All settings by name. A text counts as the list of its codes, and a list as names without
values, which can stand only if it is empty. -/
def values (data : Json) : Except Fault (NameMap Json) := do
  let unpaired (names : List String) : Except Fault (NameMap Json) := do
    checkNames names
    match names with
    | [] => fill {}
    | first :: _ => throw (.unpairedSetting (Text.codeCount first.toList))
  match data with
  | .obj members => fill (.ofList members)
  | .str text => unpaired ((Text.codes text.toList).map fun code => String.ofList (Text.keep code))
  | .arr items =>
    unpaired (← items.mapM fun
      | .str name => pure name
      | _ => throw .unreadableSettings)
  | _ => throw .unreadableSettings

/-- The bound that a value stands for. -/
def boundOf : Json → Bound
  | .int limit => .count limit
  | .bool value => .truth value
  | .real literal => .real (.ofLiteral literal)
  | _ => .incomparable

/-- The settings of named values. -/
def ofValues (values : NameMap Json) : Settings :=
  let value (name : String) : Json := (values.get? name).getD .null
  { order := match value "worklist_strategy" with
      | .str text => (Order.ofText? text).getD .postorder
      | _ => .fifo
    maxIterations := boundOf (value "max_liveness_iterations")
    solve := {
      maxRounds := match value "max_solver_rounds" with
        | .null => none
        | limit => some (boundOf limit)
      raiseAtLimit := (value "raise_on_round_limit").truthy
      strict := (value "strict_placeholders").truthy
      checkGrowth := (value "check_monotonicity").truthy }
    detectConflicts := (value "detect_conflicts").truthy
    workers := boundOf (value "workers")
    verbose := (value "verbose").truthy }

/-- Reads settings. -/
def ofJson (data : Json) : Except Fault Settings :=
  (values data).map ofValues

end Settings

end RegionInference
