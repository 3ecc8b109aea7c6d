import RegionInference.Text.Blank
import RegionInference.Text.Digit
import RegionInference.Text.Quoted

/-!
# Points

A point is the address of one statement, or of the terminator, of a block: the name of the block
and a position in it. It is written `block/position`; a text without a slash may use a full stop
in its place.
-/

namespace RegionInference

open Text

/-- The address of a statement or terminator. -/
structure Point where
  /-- The name of the block. -/
  block : String
  /-- The position in the block, from zero. A point need not belong to any graph, so any integer
  may stand here. -/
  index : Int
deriving DecidableEq

/-- Why a text is not the text of a point. -/
inductive PointError where
  /-- There is no block, or no position made of digits. -/
  | notAPoint (text : String)
  /-- The position holds a digit that is not a decimal one. -/
  | notDecimal (digits : String)
  /-- The position has more digits than are read. -/
  | tooLong (digits : Nat)

/-- How many characters of a quoted numeral a message shows at most. -/
def maxShownNumeral : Nat := 200

/-- The message for a text that is not a point. -/
def PointError.message : PointError → String
  | .notAPoint text => s!"not a point: {quote text}"
  | .notDecimal digits =>
    let shown := String.ofList ((quote digits).toList.take maxShownNumeral)
    s!"invalid literal for int() with base 10: {shown}"
  | .tooLong digits =>
    s!"Exceeds the limit ({maxNumeralDigits} digits) for integer string conversion: " ++
      s!"value has {digits} digits; use sys.set_int_max_str_digits() to increase the limit"

namespace Point

/-- The text of a point. -/
def text (point : Point) : String :=
  s!"{point.block}/{point.index}"

/-- The position that a text of digits stands for. The decimal digits in front are counted before
the first other one is looked at, so a text with both faults is too long. -/
def readIndex (digits : List Char) : Except PointError Nat :=
  let length := (digits.takeWhile fun c => (decimalValue? c).isSome).length
  if maxNumeralDigits < length then .error (.tooLong length)
  else
    match decimalNumber? 0 digits with
    | none => .error (.notDecimal (String.ofList digits))
    | some n => .ok n

/-- Splits a text at the last occurrence of a character. -/
def splitLast? (mark : Char) (cs : List Char) : Option (List Char × List Char) :=
  let tail := (cs.reverse.takeWhile (· != mark)).reverse
  match cs.reverse.dropWhile (· != mark) with
  | [] => none
  | _ :: front => some (front.reverse, tail)

/-- The point that a text stands for. -/
def ofText (text : String) : Except PointError Point :=
  let mark := if text.toList.contains '/' then '/' else '.'
  match splitLast? mark (trim text.toList) with
  | none => .error (.notAPoint text)
  | some (block, digits) =>
    if block.isEmpty || digits.isEmpty || !digits.all isDigit then .error (.notAPoint text)
    else (readIndex digits).map fun n => ⟨String.ofList block, n⟩

/-- Points in order: by the name of the block, then by position. -/
def before (a b : Point) : Bool :=
  if a.block = b.block then a.index ≤ b.index else a.block < b.block

end Point

end RegionInference
