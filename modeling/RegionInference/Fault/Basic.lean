import RegionInference.Bound
import RegionInference.Constraint.Basic
import RegionInference.Fault.Diagnostic
import RegionInference.Place.Text
import RegionInference.Point
import RegionInference.Ty.Basic

/-!
# Faults

Every way in which an operation can fail, as a cause. Most causes have a diagnostic with a code;
the others are a text that could not be read, which has a message only, or a look-up of something
that is not there.
-/

namespace RegionInference

open Text

/-- The phases of an analysis that can run into a limit. -/
inductive Phase where
  /-- The liveness fixpoint. -/
  | liveness
  /-- The growth of regions. -/
  | solving

/-- The name of a phase. -/
def Phase.text : Phase → String
  | .liveness => "liveness"
  | .solving => "region solving"

/-- A position in a text: line and column, both from one. -/
structure Position where
  /-- The line. -/
  line : Nat
  /-- The column. -/
  column : Nat

/-- A declaration in a text that cannot stand. -/
inductive DeclarationError where
  /-- Arguments are given to a type that was not declared. -/
  | unknownGeneric (name : String)
  /-- The number of arguments is not that of the declaration. -/
  | arity (name : String)
  /-- The type was declared before. -/
  | duplicateType (name : String)
  /-- The function has no blocks. -/
  | noBlocks (name : String)

/-- The message for a declaration that cannot stand. -/
def DeclarationError.message : DeclarationError → String
  | .unknownGeneric name => s!"unknown generic type {quote name}"
  | .arity name => s!"wrong number of generic arguments for {name}"
  | .duplicateType name => s!"struct {quote name} declared twice"
  | .noBlocks name => s!"function {quote name} has no blocks"

/-- Why an operation failed. -/
inductive Fault where
  /-- A text is not a place. -/
  | badPlace (error : PlaceError)
  /-- A text is not a point. -/
  | badPoint (error : PointError)
  /-- A text names no variance. -/
  | badVariance (error : VarianceError)
  /-- A text names no processing order. -/
  | badOrder (text : String)
  /-- A text names no origin of constraints. -/
  | badOrigin (text : String)
  /-- A graph has no blocks. -/
  | noBlocks
  /-- Two blocks have one name. -/
  | duplicateBlock (block : String)
  /-- The entry is not a block of the graph. -/
  | unknownEntry (block : String)
  /-- A block jumps to a block that is not there. -/
  | unknownTarget (block target : String)
  /-- A block that has its terminator is asked to go on. -/
  | alreadyTerminated (block : String)
  /-- A block has no terminator. -/
  | unterminated (block : String)
  /-- A point is not part of the graph. -/
  | unknownPoint (point : Point)
  /-- A number is not that of a point. -/
  | indexOutOfRange (index : Int)
  /-- A set or a table of points is read at a number that no point has. -/
  | strayIndex (index : Int)
  /-- A set of points is asked about a number below zero. -/
  | negativeIndex
  /-- A block is looked up that is not there. -/
  | missingBlock (block : String)
  /-- Two types do not fit, or an instance its declaration. -/
  | badType (error : TypeError)
  /-- A variable is declared twice. -/
  | duplicateVariable (name : String)
  /-- A lifetime is declared twice. -/
  | duplicateLifetime (name : String)
  /-- A variable was never declared. -/
  | unknownVariable (name : String)
  /-- The element at a point names a variable that was never declared. -/
  | unknownVariableAt (name : String) (point : Point)
  /-- A lifetime was never declared. -/
  | unknownLifetime (name : String)
  /-- A fact, shown as text, is about a point that is not part of the graph. -/
  | unknownFactPoint (fact : String) (point : Point)
  /-- A constraint is added to a frozen set. -/
  | frozen
  /-- A fixed region would have to grow. -/
  | placeholderViolation (violation : Violation)
  /-- A region lost a point when it was to grow. -/
  | regionShrank (lifetime : String)
  /-- A limit was reached. -/
  | limitReached (phase : Phase) (rounds : Nat) (limit : Bound)
  /-- A limit is no number, so nothing can be compared with it. -/
  | incomparableLimit
  /-- A region is looked up that is not there. -/
  | missingRegion (lifetime : String)
  /-- A text leaves the grammar where a rule was tried. -/
  | unexpectedText (rule : String) (position : Position)
  /-- A place in a text follows the grammar and cannot be read. -/
  | unreadablePlace (error : PlaceError) (position : Position)
  /-- A point in a text follows the grammar and cannot be read. -/
  | unreadablePoint (error : PointError)
  /-- A declaration in a text cannot stand. -/
  | declaration (error : DeclarationError) (position : Position)
  /-- A text does not hold exactly one function. -/
  | functionCount (found : Nat)
  /-- Settings have names that are not known. -/
  | unknownSettings (names : List String)
  /-- A setting names no processing order. -/
  | unknownOrder (text : String)
  /-- Settings are a list of names without values; the first name has that many characters. -/
  | unpairedSetting (length : Nat)
  /-- Settings are neither named values nor a list of names. -/
  | unreadableSettings

namespace Fault

/-- A coded diagnostic at a position of a text. -/
def atPosition (message : String) (position : Position) (code : Code) : Diagnostic :=
  .unreadableText message position.line position.column code

/-- The diagnostic of a fault that has a code. -/
def diagnostic? : Fault → Option Diagnostic
  | .noBlocks => some {
      kind := .malformedGraph, code := .missingEntry, message := "graph has no blocks" }
  | .duplicateBlock block => some {
      kind := .malformedGraph, code := .duplicateBlock
      message := s!"duplicate block {quote block}", details := [("block", block)] }
  | .unknownEntry block => some {
      kind := .malformedGraph, code := .missingEntry
      message := s!"entry block {quote block} does not exist", details := [("block", block)] }
  | .unknownTarget block target => some {
      kind := .malformedGraph, code := .unknownBlock
      message := s!"block {quote block} jumps to unknown block {quote target}"
      details := [("block", block), ("target", target)] }
  | .alreadyTerminated block => some {
      kind := .malformedGraph, code := .missingTerminator
      message := s!"block {quote block} is already terminated" }
  | .unterminated block => some {
      kind := .malformedGraph, code := .missingTerminator
      message := s!"block {quote block} has no terminator", details := [("block", block)] }
  | .unknownPoint point => some (.unknownPoint point.text)
  | .indexOutOfRange index =>
    some (.unknownPoint (toString index) s!"point index {index} out of range")
  | .badType (.mismatch sub sup) => some (.typeMismatch sub.text sup.text)
  | .badType (.arity name) =>
    some (.typeMismatch name name s!"wrong number of generic arguments for {name}")
  | .duplicateVariable name => some {
      kind := .invariant, code := .duplicateVariable
      message := s!"variable {quote name} declared twice", details := [("variable", name)] }
  | .duplicateLifetime name => some {
      kind := .invariant, code := .duplicateLifetime
      message := s!"lifetime '{name} declared twice", details := [("lifetime", name)] }
  | .unknownVariable name => some (.unknownVariable name)
  | .unknownVariableAt name point =>
    some (.unknownVariable name s!"unknown variable '{name}' at {point.text}")
  | .unknownLifetime name => some (.unknownLifetime name)
  | .unknownFactPoint fact point =>
    some (.unknownPoint point.text s!"fact {fact} names an unknown point")
  | .frozen => some { kind := .frozenConstraintSet, message := "constraint set is frozen" }
  | .placeholderViolation violation =>
    some (.placeholderViolation violation.lifetime violation.extra.size)
  | .regionShrank lifetime => some {
      kind := .invariant, code := .monotonicityBroken
      message := s!"region '{lifetime} shrank", details := [("lifetime", lifetime)] }
  | .limitReached phase rounds limit =>
    some (.limitReached (toString rounds) limit.text phase.text)
  | .unexpectedText rule position =>
    some (atPosition s!"unexpected text while parsing {rule}" position .parseError)
  | .unreadablePlace error position => some (atPosition error.message position .parseError)
  | .declaration error position => some (atPosition error.message position .invalidDeclaration)
  | .functionCount found =>
    some (.unreadableText s!"expected exactly one function, found {found}" 0 0 .invalidDeclaration)
  | .badPlace _ | .badPoint _ | .badVariance _ | .badOrder _ | .badOrigin _ | .strayIndex _
  | .negativeIndex | .missingBlock _ | .incomparableLimit | .missingRegion _ | .unreadablePoint _
  | .unknownSettings _ | .unknownOrder _ | .unpairedSetting _ | .unreadableSettings => none

/-- The message of a fault in a text that has a message and no code. -/
def textMessage? : Fault → Option String
  | .badPlace error => some error.message
  | .badPoint error => some error.message
  | .badVariance error => some error.message
  | .badOrder text => some s!"{quote text} is not a valid WorklistStrategy"
  | .badOrigin text => some s!"{quote text} is not a valid ConstraintOrigin"
  | .negativeIndex => some "negative shift count"
  | .unknownSettings names => some ("unknown configuration key(s): " ++ ", ".intercalate names)
  | .unknownOrder text => some s!"unknown worklist strategy {quote text}"
  | .unpairedSetting length =>
    some s!"dictionary update sequence element #0 has length {length}; 2 is required"
  | _ => none

end Fault

/-- Reads a place and gives the fault of a text that is none. -/
def Place.parse (text : String) : Except Fault Place :=
  (Place.ofText text).mapError .badPlace

/-- Reads a point and gives the fault of a text that is none. -/
def Point.parse (text : String) : Except Fault Point :=
  (Point.ofText text).mapError .badPoint

/-- Reads an origin and gives the fault of a text that is none. -/
def Origin.parse (text : String) : Except Fault Origin :=
  match Origin.ofText? text with
  | some origin => .ok origin
  | none => .error (.badOrigin text)

/-- Reads a variance and gives the fault of a text that is none. -/
def Variance.parse (text : String) : Except Fault Variance :=
  (Variance.ofText text).mapError .badVariance

end RegionInference
