import RegionInference.Command.Run

/-!
# The program

Reads the files that a command line names, runs it, and writes what it comes to.
-/

open RegionInference RegionInference.Command RegionInference.Text

/-- What is found under a path on this machine. -/
def findFile (path : String) : IO FileState := do
  try
    return .text (keepText (← IO.FS.readFile (showText path)))
  catch
    | .inappropriateType none .. => return .folder
    | .inappropriateType .. => return .blocked
    | .invalidArgument _ 36 _ => return .tooLong
    | _ => return .absent

/-- A number of milliseconds as seconds with three places. -/
def secondsText (milliseconds : Nat) : String :=
  let places := toString (milliseconds % 1000)
  let zeros := String.ofList (List.replicate (3 - places.length) '0')
  let whole := milliseconds / 1000
  s!"{whole}.{zeros}{places}"

/-- The program: it finds the files that the arguments name, runs the command, and prints what comes
out. -/
def main (args : List String) : IO UInt32 := do
  let start ← IO.monoMsNow
  let args := args.map keepText
  let call := (parse args).toOption.join
  let paths := call.elim [] Call.paths
  let found ← paths.mapM fun path => return (path, ← findFile path)
  let input ← if call.any (·.input == "-") then (← IO.getStdin).readToEnd else pure ""
  let plain := (← IO.getEnv "NO_COLOR").isSome
  let output ← IO.getStdout
  let errors ← IO.getStderr
  let outcome := run args {
    file := fun path => (found.lookup path).getD .absent
    input := keepText input
    colouredOutput := !plain && (← output.isTty)
    colouredErrors := !plain && (← errors.isTty) }
  errors.putStr (showText outcome.errors)
  output.putStr (showText (outcome.output (secondsText ((← IO.monoMsNow) - start))))
  return outcome.status.toUInt32
