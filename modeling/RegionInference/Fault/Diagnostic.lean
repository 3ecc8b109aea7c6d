/-!
# Diagnostics

A diagnostic is what is shown of a coded fault: its kind, a stable code, a message and named
details. A diagnostic about a text also has a position in it.
-/

namespace RegionInference

/-- The stable codes. -/
inductive Code where
  /-- Two blocks of one name. -/
  | duplicateBlock
  /-- A jump to a block that does not exist. -/
  | unknownBlock
  /-- No block to enter. -/
  | missingEntry
  /-- A block with no terminator, or with more than one. -/
  | missingTerminator
  /-- A point outside the graph. -/
  | unknownPoint
  /-- A lifetime nobody declared. -/
  | unknownLifetime
  /-- A variable nobody declared. -/
  | unknownVariable
  /-- A variable declared twice. -/
  | duplicateVariable
  /-- Two types of different shape. -/
  | typeMismatch
  /-- A lifetime declared twice. -/
  | duplicateLifetime
  /-- A constraint added too late. -/
  | frozenConstraintSet
  /-- A fixed region that would have to grow. -/
  | placeholderViolation
  /-- A limit that was reached. -/
  | solverLimit
  /-- A region that lost a point. -/
  | monotonicityBroken
  /-- A text outside the grammar. -/
  | parseError
  /-- A declaration that cannot stand. -/
  | invalidDeclaration
  /-- Anything else. -/
  | internalError
deriving DecidableEq

namespace Code

/-- All codes, in the order of their numbers. -/
def all : List Code :=
  [.duplicateBlock, .unknownBlock, .missingEntry, .missingTerminator, .unknownPoint,
    .unknownLifetime, .unknownVariable, .duplicateVariable, .typeMismatch, .duplicateLifetime,
    .frozenConstraintSet, .placeholderViolation, .solverLimit, .monotonicityBroken, .parseError,
    .invalidDeclaration, .internalError]

/-- The name a code is listed under. -/
def name : Code → String
  | .duplicateBlock => "DUPLICATE_BLOCK"
  | .unknownBlock => "UNKNOWN_BLOCK"
  | .missingEntry => "MISSING_ENTRY"
  | .missingTerminator => "MISSING_TERMINATOR"
  | .unknownPoint => "UNKNOWN_POINT"
  | .unknownLifetime => "UNKNOWN_LIFETIME"
  | .unknownVariable => "UNKNOWN_VARIABLE"
  | .duplicateVariable => "DUPLICATE_VARIABLE"
  | .typeMismatch => "TYPE_MISMATCH"
  | .duplicateLifetime => "DUPLICATE_LIFETIME"
  | .frozenConstraintSet => "FROZEN_CONSTRAINT_SET"
  | .placeholderViolation => "PLACEHOLDER_VIOLATION"
  | .solverLimit => "SOLVER_LIMIT"
  | .monotonicityBroken => "MONOTONICITY_BROKEN"
  | .parseError => "PARSE_ERROR"
  | .invalidDeclaration => "INVALID_DECLARATION"
  | .internalError => "INTERNAL_ERROR"

/-- The printed form of a code. -/
def text : Code → String
  | .duplicateBlock => "RCK-0001"
  | .unknownBlock => "RCK-0002"
  | .missingEntry => "RCK-0003"
  | .missingTerminator => "RCK-0004"
  | .unknownPoint => "RCK-0005"
  | .unknownLifetime => "RCK-1000"
  | .unknownVariable => "RCK-1001"
  | .duplicateVariable => "RCK-1002"
  | .typeMismatch => "RCK-1003"
  | .duplicateLifetime => "RCK-1004"
  | .frozenConstraintSet => "RCK-2000"
  | .placeholderViolation => "RCK-2001"
  | .solverLimit => "RCK-2002"
  | .monotonicityBroken => "RCK-2003"
  | .parseError => "RCK-3000"
  | .invalidDeclaration => "RCK-3001"
  | .internalError => "RCK-9000"

/-- The code with the printed form. -/
def ofText? (text : String) : Option Code :=
  all.find? (·.text == text)

end Code

/-- What a diagnostic is about. -/
inductive DiagnosticKind where
  /-- Nothing more is known. -/
  | general
  /-- The input breaks a rule that its producer promised to keep. -/
  | invariant
  /-- The graph is not well formed. -/
  | malformedGraph
  /-- A point is not part of the graph. -/
  | unknownPoint
  /-- A lifetime was never declared. -/
  | unknownLifetime
  /-- A variable was never declared. -/
  | unknownVariable
  /-- Two types do not have the same shape. -/
  | typeMismatch
  /-- A constraint came after the set was frozen. -/
  | frozenConstraintSet
  /-- A fixed region would have to grow. -/
  | placeholderViolation
  /-- A limit was reached before the end. -/
  | limitReached
  /-- A text could not be read. -/
  | unreadableText
deriving DecidableEq

/-- The code of a diagnostic that is given none. -/
def DiagnosticKind.defaultCode : DiagnosticKind → Code
  | .general => .internalError
  | .invariant => .internalError
  | .malformedGraph => .unknownBlock
  | .unknownPoint => .unknownPoint
  | .unknownLifetime => .unknownLifetime
  | .unknownVariable => .unknownVariable
  | .typeMismatch => .typeMismatch
  | .frozenConstraintSet => .frozenConstraintSet
  | .placeholderViolation => .placeholderViolation
  | .limitReached => .solverLimit
  | .unreadableText => .parseError

/-- What is shown of a coded fault. -/
structure Diagnostic where
  /-- What it is about. -/
  kind : DiagnosticKind
  /-- The message. -/
  message : String
  /-- The code. -/
  code : Code := kind.defaultCode
  /-- Named details. -/
  details : List (String × String) := []
  /-- The texts of line and column, if there is a position in a text. -/
  position : Option (String × String) := none

namespace Diagnostic

/-- The one-line text: code, position if there is one, message. -/
def text (d : Diagnostic) : String :=
  match d.position with
  | none => s!"[{d.code.text}] {d.message}"
  | some (line, column) => s!"[{d.code.text}] {line}:{column}: {d.message}"

/-- A message, or the usual one if it is empty. -/
def messageOr (message usual : String) : String :=
  if message.isEmpty then usual else message

/-- A point that is not part of the graph. -/
def unknownPoint (point : String) (message : String := "") : Diagnostic where
  kind := .unknownPoint
  message := messageOr message s!"point {point} is not part of this graph"
  details := [("point", point)]

/-- A lifetime that was never declared. -/
def unknownLifetime (lifetime : String) (message : String := "") : Diagnostic where
  kind := .unknownLifetime
  message := messageOr message s!"unknown lifetime variable '{lifetime}"
  details := [("lifetime", lifetime)]

/-- A variable that was never declared. -/
def unknownVariable (name : String) (message : String := "") : Diagnostic where
  kind := .unknownVariable
  message := messageOr message s!"unknown variable '{name}'"
  details := [("variable", name)]

/-- Two types that cannot be related. -/
def typeMismatch (sub sup : String) (message : String := "") : Diagnostic where
  kind := .typeMismatch
  message := messageOr message s!"cannot relate {sub} with {sup}"
  details := [("sub", sub), ("sup", sup)]

/-- A limit that was reached in a phase. -/
def limitReached (rounds limit : String) (phase : String := "region solving") : Diagnostic where
  kind := .limitReached
  message := s!"{phase} stopped after {rounds} rounds (limit {limit})"
  details := [("rounds", rounds), ("limit", limit), ("phase", phase)]

/-- A fixed region that would have to grow by some points. -/
def placeholderViolation (lifetime : String) (extra : Nat) : Diagnostic where
  kind := .placeholderViolation
  message := s!"placeholder lifetime '{lifetime} would need {extra} extra point(s)"
  details := [("lifetime", lifetime)]

/-- A text that could not be read at a position, given by the texts of line and column; `known`
tells whether there is a position to show. -/
def unreadableAt (message line column : String) (known : Bool) (code : Code := .parseError) :
    Diagnostic where
  kind := .unreadableText
  message := message
  code := code
  details := [("line", line), ("column", column)]
  position := if known then some (line, column) else none

/-- A text that could not be read at a position; line zero stands for no position. -/
def unreadableText (message : String) (line column : Int := 0) (code : Code := .parseError) :
    Diagnostic :=
  unreadableAt message (toString line) (toString column) (line ≠ 0) code

end Diagnostic

end RegionInference
