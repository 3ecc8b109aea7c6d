/-!
# Log lines
-/

namespace RegionInference

/-- How urgent a log line is. -/
inductive Level where
  /-- For those who want to know. -/
  | info
  /-- For everyone. -/
  | warning
deriving DecidableEq

/-- The name of a level. -/
def Level.text : Level → String
  | .info => "INFO"
  | .warning => "WARNING"

/-- A line of the log. -/
structure LogLine where
  /-- How urgent it is. -/
  level : Level
  /-- Who writes it. -/
  source : String
  /-- What it says, if that can be written. -/
  message : Option String

/-- The printed form of a log line, if what it says can be written. -/
def LogLine.text? (line : LogLine) : Option String :=
  line.message.map fun message => s!"{line.level.text} {line.source}: {message}"

end RegionInference
