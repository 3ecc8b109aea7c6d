import RegionInference.Command.Arguments
import RegionInference.Command.Folder
import RegionInference.Grammar.Meaning
import RegionInference.Graph.Dot
import RegionInference.Json.Printer
import RegionInference.Json.Reader
import RegionInference.Report.Printer

/-!
# Running a command

What a command line comes to, given what stands in the files: the exit status and the texts on
standard output and standard error. The status is zero if there is nothing to complain about, one
if there are conflicts or the input cannot be analysed, and two if the program is called wrongly or
breaks off.
-/

namespace RegionInference.Command

open Text

/-- What a command finds around it. -/
structure Surroundings where
  /-- What is found under a path. -/
  file : String → FileState
  /-- The text on standard input. -/
  input : String := ""
  /-- Whether standard output shows colours. -/
  colouredOutput : Bool := false
  /-- Whether standard error shows colours. -/
  colouredErrors : Bool := false

/-! ### Trouble -/

/-- Why a command cannot do its work. -/
inductive Trouble where
  /-- A fault of the analysis, or of what it is given. -/
  | fault (cause : Fault)
  /-- A report that cannot be shown, or a conflict of it that cannot be explained. -/
  | unexplained (cause : Fault)
  /-- The input is not there. -/
  | noInput (path : String)
  /-- A file that is needed is not there. -/
  | noFile (path : String)
  /-- A folder stands where a file is needed. -/
  | folder (path : String)
  /-- A file stands where a path needs a folder. -/
  | blocked (path : String)
  /-- A path, or a name in it, is too long. -/
  | tooLong (path : String)
  /-- A path cannot be written as bytes. -/
  | unwritable (halves : Unwritable)
  /-- A path has a character that no path can have. -/
  | badPath
  /-- A text is not JSON. -/
  | badJson (error : JsonError) (text : String)
  /-- No function has the chosen name, or a function without a name is chosen. -/
  | noFunction (name : Option String)
  /-- There is not exactly one function. -/
  | notOneFunction

namespace Trouble

/-- What is said about trouble, if it is of a kind that users run into. -/
def message? : Trouble → Option String
  | .fault cause => (cause.diagnostic?.map Diagnostic.text).or cause.textMessage?
  | .unexplained _ => none
  | .noInput path => some s!"body file not found: {path}"
  | .noFile path => some s!"[Errno 2] No such file or directory: {quote path}"
  | .folder path => some s!"[Errno 21] Is a directory: {quote path}"
  | .blocked path => some s!"[Errno 20] Not a directory: {quote path}"
  | .tooLong path => some s!"[Errno 36] File name too long: {quote path}"
  | .unwritable halves => some halves.message
  | .badPath => some "embedded null byte"
  | .badJson ⟨.tooDeep, _⟩ _ => none
  | .badJson error text => some (error.message text)
  | .noFunction name => some ("no function named " ++ name.elim "[]" quote)
  | .notOneFunction => some "several functions in input; pick one with --function"

/-- Where in the input the trouble is. -/
def position? : Trouble → Option (String × String)
  | .fault cause => cause.diagnostic?.bind Diagnostic.position
  | _ => none

end Trouble

/-- A text in a colour, or bold, if colours are shown. -/
def paint (coloured : Bool) (code text : String) : String :=
  if coloured then s!"\x1b[{code}m{text}\x1b[0m" else text

/-! ### Input -/

namespace Surroundings

/-- The text of a file; `missing` is the trouble if there is none. -/
def read (around : Surroundings) (path : String) (missing : Trouble) : Except Trouble String :=
  match Unwritable.find? isByteHalf path with
  | some halves => .error (.unwritable halves)
  | none =>
    if path.toList.contains '\x00' then .error .badPath
    else
      match around.file path with
      | .text contents => .ok (String.ofList (unifyLineEnds contents.toList))
      | .absent => .error missing
      | .folder => .error (.folder path)
      | .blocked => .error (.blocked path)
      | .tooLong => .error (.tooLong path)

end Surroundings

namespace Call

/-- The paths that a call may read. -/
def paths (call : Call) : List String :=
  [call.input, call.options.config.getD ""].filter fun path => path != "" && path != "-"

/-- The settings of a call: those of the file, and over them those of the options. -/
def settings (call : Call) (around : Surroundings) : Except Trouble Settings := do
  let path := call.options.config.getD ""
  let data ←
    if path.isEmpty then pure (Json.obj [])
    else
      let text ← around.read path (.noFile path)
      (Json.read text).mapError (.badJson · text)
  let settings ← (Settings.ofJson data).mapError .fault
  let workers := match call.options.workers with
    | some n => if n = 0 then settings.workers else .count n
    | none => settings.workers
  return { settings with workers, verbose := settings.verbose || call.options.verbose }

/-- The bodies of the input, or the chosen ones among them. -/
def bodies (call : Call) (around : Surroundings) : Except Trouble (List Body) := do
  let text ←
    if call.input == "-" then pure around.input else around.read call.input (.noInput call.input)
  let bodies ← (Body.allOfText text).mapError .fault
  match call.options.function with
  | none => return bodies
  | some name =>
    match bodies.filter (some ·.name == name) with
    | [] => throw (.noFunction name)
    | chosen => return chosen

/-! ### Commands -/

/-- What a command that did its work comes to. -/
structure Product where
  /-- The exit status. -/
  status : Nat
  /-- The text on standard output; times are shown by the given text. -/
  output : String → String

/-- The outcome of a command, with what is logged on the way to it. -/
abbrev Logged (α : Type) := List LogLine × Except Trouble α

/-- Analyses the bodies of a call; `adjust` changes the settings. -/
def reports (call : Call) (around : Surroundings) (adjust : Settings → Settings) :
    Logged (List Report) :=
  let given := do
    let settings ← call.settings around
    return (adjust settings, ← call.bodies around)
  match given with
  | .error trouble => ([], .error trouble)
  | .ok (settings, bodies) =>
    let (log, reports) := Report.analyzeAll settings bodies
    (log, reports.mapError .fault)

/-- A report with narratives. -/
def explained (report : Report) : Except Fault Json := do
  let members ← report.members
  let narratives ← report.narratives
  return .obj (members ++ [("narratives", .arr (narratives.map Narrative.toJson))])

/-- What is shown of a report. -/
def shown (call : Call) (around : Surroundings) (time : String) (report : Report) : String :=
  if report.ok && !call.options.verbose then
    let ok := paint around.colouredOutput "32" "ok"
    let name := paint around.colouredOutput "1" report.function
    s!"{ok} {name}\n"
  else report.summary time ++ "\n"

/-- What is shown of checked bodies. -/
def checkOutput (call : Call) (around : Surroundings) (reports : List Report) :
    Except Fault (String → String) := do
  if call.options.json then
    let text := (Json.arr (← reports.mapM explained)).indented ++ "\n"
    return fun _ => text
  else return fun time => String.join (reports.map (call.shown around time))

/-- Reports conflicts. -/
def check (call : Call) (around : Surroundings) : Logged Product :=
  let (log, reports) := call.reports around id
  let product := do
    let reports ← reports
    let output ← (call.checkOutput around reports).mapError .unexplained
    return { status := if reports.all Report.ok then 0 else 1, output }
  (log, product)

/-- The regions of a report, under the name of its function. -/
def listed (report : Report) : Except Fault (String × Json) :=
  (Json.regions report.graph report.regions).map (report.function, ·)

/-- Shows the solved regions. -/
def regions (call : Call) (around : Surroundings) : Logged Product :=
  let (log, reports) := call.reports around ({ · with detectConflicts := false })
  let product := do
    let reports ← reports
    let regions ← (reports.mapM listed).mapError .unexplained
    let text := (Json.obj (NameMap.ofList regions).entries).indented ++ "\n"
    return { status := 0, output := fun _ => text }
  (log, product)

/-- Draws the graph of the one function, marked with its regions. -/
def dot (call : Call) (around : Surroundings) : Logged Product :=
  let analysed : Except Trouble (Settings × Report) := do
    match ← call.bodies around with
    | [body] =>
      let settings ← call.settings around
      return (settings, ← (body.analyze settings).mapError .fault)
    | _ => throw .notOneFunction
  match analysed with
  | .error trouble => ([], .error trouble)
  | .ok (settings, report) =>
    let product := do
      let regions ← (report.regions.mapM report.graph.pointsOf).mapError .unexplained
      let text := report.graph.dot report.function regions.entries ++ "\n"
      return { status := 0, output := fun _ => text }
    (report.log settings, product)

/-- Carries out a call. -/
def perform (call : Call) : Surroundings → Logged Product :=
  match call.task with
  | .check => call.check
  | .regions => call.regions
  | .dot => call.dot

end Call

/-! ### Command lines -/

/-- How a command line came to its end. -/
inductive Ending where
  /-- It was carried out. -/
  | done
  /-- It asked how to call the program, or called it wrongly. -/
  | usage
  /-- It broke off. -/
  | broken
deriving DecidableEq

/-- What a command line comes to. -/
structure Outcome where
  /-- The exit status. -/
  status : Nat
  /-- The text on standard output; times are shown by the given text. -/
  output : String → String := fun _ => ""
  /-- The text on standard error. -/
  errors : String := ""
  /-- How it came to its end. -/
  ending : Ending := .done

/-- How to call the program. -/
def usage : String := "\n".intercalate [
  "usage: regionck [-h] [--version] <command> ...",
  "",
  "commands:",
  "  check [options] INPUT    infer regions and report conflicts",
  "  regions [options] INPUT  print the solved regions as JSON",
  "  dot [options] INPUT      print the graph of one function, marked with its regions",
  "",
  "options:",
  "  --function NAME  only the named function",
  "  --config FILE    settings, as JSON",
  "  -v, --verbose    more output",
  "  --json           (check) reports as JSON",
  "  --workers N      (check) analyse N functions at a time",
  "",
  "INPUT is a file, or - for standard input.",
  ""]

/-- What comes of a line that is not read to its end. -/
def Stop.outcome : Stop → Outcome
  | .help => { status := 0, output := fun _ => usage, ending := .usage }
  | .version => { status := 0, output := fun _ => "regionck 0.1.0\n", ending := .usage }
  | .misuse => { status := 2, errors := usage, ending := .usage }

/-- The log on standard error: all lines if more output is asked for, and warnings in any case. -/
def Call.logText (call : Call) (log : List LogLine) : String :=
  let shown := log.filter fun line => call.options.verbose || line.level == .warning
  String.join (shown.filterMap fun line => line.text?.map (· ++ "\n"))

/-- The error line for trouble that has a message. -/
def Call.errorLine (call : Call) (around : Surroundings) (trouble : Trouble) (message : String) :
    String :=
  let place := match trouble.position? with
    | some (line, column) => s!"{call.input}:{line}:{column}: "
    | none => s!"{call.input}: "
  let word := paint around.colouredErrors "31" "error:"
  s!"{place}{word} {message}\n"

/-- What a call comes to. -/
def Call.outcome (call : Call) (around : Surroundings) : Outcome :=
  let (log, product) := call.perform around
  match product with
  | .ok product =>
    { status := product.status, output := product.output, errors := call.logText log }
  | .error trouble =>
    match trouble.message? with
    | some message =>
      { status := 1, errors := call.logText log ++ call.errorLine around trouble message }
    | none =>
      { status := 2, errors := call.logText log ++ "\nInternal error\n", ending := .broken }

/-- Runs a command line. -/
def run (args : List String) (around : Surroundings) : Outcome :=
  match parse args with
  | .error stop => stop.outcome
  | .ok none => { status := 0, output := fun _ => usage }
  | .ok (some call) => call.outcome around

end RegionInference.Command
