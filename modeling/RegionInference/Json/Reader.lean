import RegionInference.Json.Basic
import RegionInference.Text.Cursor
import RegionInference.Text.Digit

/-!
# Reading JSON

Reads a JSON text and says, with line and column, where a text stops being one. Besides the
numbers of the format, the names of the values that are not finite are read.
-/

namespace RegionInference

open Text

/-- What is wrong with a JSON text. -/
inductive JsonProblem where
  /-- No value starts here. -/
  | value
  /-- No member name starts here. -/
  | propertyName
  /-- No colon follows the member name. -/
  | colon
  /-- Neither a comma nor the closing bracket follows. -/
  | comma
  /-- The text that starts here has no end. -/
  | unterminated
  /-- A control character stands in a text. -/
  | control
  /-- A backslash in a text is followed by no known letter. -/
  | escape
  /-- An escape of a UTF-16 unit lacks hexadecimal digits. -/
  | unit
  /-- Something follows the value. -/
  | extra
  /-- The text starts with a byte order mark. -/
  | byteOrderMark
  /-- A number has more digits than are read. -/
  | numeral (digits : Nat)
  /-- Too many brackets are open. -/
  | tooDeep

/-- What is wrong with a JSON text, and where. -/
structure JsonError where
  /-- What is wrong. -/
  problem : JsonProblem
  /-- The position. -/
  pos : Nat

/-- The message for a problem, without its position. -/
def JsonProblem.message : JsonProblem → String
  | .value => "Expecting value"
  | .propertyName => "Expecting property name enclosed in double quotes"
  | .colon => "Expecting ':' delimiter"
  | .comma => "Expecting ',' delimiter"
  | .unterminated => "Unterminated string starting at"
  | .control => "Invalid control character at"
  | .escape => "Invalid \\escape"
  | .unit => "Invalid \\uXXXX escape"
  | .extra => "Extra data"
  | .byteOrderMark => "Unexpected UTF-8 BOM (decode using utf-8-sig)"
  | .numeral digits =>
    s!"Exceeds the limit ({maxNumeralDigits} digits) for integer string conversion: " ++
      s!"value has {digits} digits; use sys.set_int_max_str_digits() to increase the limit"
  | .tooDeep => "Too many open brackets"

/-- The message for an error in a text. -/
def JsonError.message (error : JsonError) (text : String) : String :=
  match error.problem with
  | .numeral digits => (JsonProblem.numeral digits).message
  | problem =>
    let line := lineOf text.toList error.pos
    let column := columnOf text.toList error.pos
    let behind := codeCount (text.toList.take error.pos)
    s!"{problem.message}: line {line} column {column} (char {behind})"

namespace Json

/-- The blanks between the parts of a JSON text. -/
def isBlank (c : Char) : Bool :=
  c == ' ' || c == '\t' || c == '\n' || c == '\r'

/-- The cursor after blanks. -/
def skipBlanks (cursor : Cursor) : Cursor :=
  cursor.skipWhile isBlank

/-! ### Texts -/

/-- The value of a hexadecimal digit. -/
def hexValue? (c : Char) : Option Nat :=
  if '0' ≤ c ∧ c ≤ '9' then some (c.toNat - '0'.toNat)
  else if 'a' ≤ c ∧ c ≤ 'f' then some (c.toNat - 'a'.toNat + 10)
  else if 'A' ≤ c ∧ c ≤ 'F' then some (c.toNat - 'A'.toNat + 10)
  else none

/-- The value of four hexadecimal digits. -/
def unitValue? (a b c d : Char) : Option Nat := do
  return ((← hexValue? a) * 16 + (← hexValue? b)) * 256 + (← hexValue? c) * 16 + (← hexValue? d)

/-- The character that a letter after a backslash stands for. -/
def simpleEscape? : Char → Option Char
  | '"' => some '"'
  | '\\' => some '\\'
  | '/' => some '/'
  | 'b' => some (Char.ofNat 0x8)
  | 'f' => some (Char.ofNat 0xC)
  | 'n' => some '\n'
  | 'r' => some '\r'
  | 't' => some '\t'
  | _ => none

/-- Keeps a code behind the characters so far, which are given last one first. -/
def push (code : Nat) (acc : List Char) : List Char :=
  (keep code).reverse ++ acc

/-- Reads the rest of a text that began at `start`, up to its closing quote; `acc` holds the
characters so far, last one first. -/
def readText (start pos : Nat) (acc : List Char) : List Char → Except JsonError (String × Cursor)
  | [] => .error ⟨.unterminated, start⟩
  | '"' :: rest => .ok (String.ofList acc.reverse, ⟨pos + 1, rest⟩)
  | '\\' :: 'u' :: a :: b :: c :: d :: '\\' :: 'u' :: a' :: b' :: c' :: d' :: last :: rest =>
    match unitValue? a b c d with
    | none => .error ⟨.unit, pos + 1⟩
    | some high =>
      if 0xD800 ≤ high ∧ high ≤ 0xDBFF then
        match unitValue? a' b' c' d' with
        | none => .error ⟨.unit, pos + 7⟩
        | some low =>
          if 0xDC00 ≤ low ∧ low ≤ 0xDFFF then
            readText start (pos + 12)
              (Char.ofNat (0x10000 + (high - 0xD800) * 0x400 + (low - 0xDC00)) :: acc)
              (last :: rest)
          else
            readText start (pos + 6) (push high acc)
              ('\\' :: 'u' :: a' :: b' :: c' :: d' :: last :: rest)
      else
        readText start (pos + 6) (push high acc)
          ('\\' :: 'u' :: a' :: b' :: c' :: d' :: last :: rest)
  | '\\' :: 'u' :: a :: b :: c :: d :: last :: rest =>
    match unitValue? a b c d with
    | none => .error ⟨.unit, pos + 1⟩
    | some n => readText start (pos + 6) (push n acc) (last :: rest)
  | '\\' :: 'u' :: _ => .error ⟨.unit, pos + 1⟩
  | ['\\'] => .error ⟨.unterminated, start⟩
  | '\\' :: c :: rest =>
    match simpleEscape? c with
    | some c => readText start (pos + 2) (c :: acc) rest
    | none => .error ⟨.escape, pos⟩
  | c :: rest =>
    if c.toNat < 0x20 then .error ⟨.control, pos⟩ else readText start (pos + 1) (c :: acc) rest

/-! ### Numbers -/

/-- The digits in front of a list. -/
def digits (cs : List Char) : List Char :=
  cs.takeWhile Char.isDigit

/-- The whole part of a number: a zero, or digits that do not start with zero. -/
def wholePart? : List Char → Option (List Char)
  | '0' :: _ => some ['0']
  | cs => if (digits cs).isEmpty then none else some (digits cs)

/-- The fraction in front of a list, with its point; it needs a digit. -/
def fraction : List Char → List Char
  | '.' :: cs => if (digits cs).isEmpty then [] else '.' :: digits cs
  | _ => []

/-- The exponent in front of a list, with its letter and sign; it needs a digit. -/
def exponent : List Char → List Char
  | e :: cs =>
    if e = 'e' ∨ e = 'E' then
      let sign := match cs with
        | '+' :: _ => ['+']
        | '-' :: _ => ['-']
        | _ => []
      let figures := digits (cs.drop sign.length)
      if figures.isEmpty then [] else e :: sign ++ figures
    else []
  | [] => []

/-- Reads a number. -/
def readNumber (cursor : Cursor) : Except JsonError (Json × Cursor) :=
  let sign := match cursor.rest with
    | '-' :: _ => ['-']
    | _ => []
  let cs := cursor.rest.drop sign.length
  match wholePart? cs with
  | none => .error ⟨.value, cursor.pos⟩
  | some whole =>
    let frac := fraction (cs.drop whole.length)
    let exp := exponent (cs.drop (whole.length + frac.length))
    let literal := sign ++ whole ++ frac ++ exp
    let next := cursor.skip literal.length
    if frac.isEmpty && exp.isEmpty then
      if whole.length ≤ maxNumeralDigits then
        let n : Int := (decimalNumber? 0 whole).getD 0
        .ok (.int (if sign.isEmpty then n else -n), next)
      else .error ⟨.numeral whole.length, cursor.pos⟩
    else .ok (.real (String.ofList literal), next)

/-! ### Values -/

/-- How many brackets may be open at a time. -/
def maxDepth : Nat := 985

/-- The values that are written as words. -/
def words : List (List Char × Json) :=
  [("null".toList, .null), ("true".toList, .bool true), ("false".toList, .bool false),
    ("NaN".toList, .real "NaN"), ("Infinity".toList, .real "Infinity"),
    ("-Infinity".toList, .real "-Infinity")]

/-- Reads a word or a number. -/
def readScalar (cursor : Cursor) : Except JsonError (Json × Cursor) :=
  match words.find? fun (word, _) => word.isPrefixOf cursor.rest with
  | some (word, value) => .ok (value, cursor.skip word.length)
  | none => readNumber cursor

mutual

/-- Reads a value in which at most `depth` brackets may be open. Fuel bounds the number of nested
calls. -/
def readValue (fuel depth : Nat) (cursor : Cursor) : Except JsonError (Json × Cursor) :=
  match fuel with
  | 0 => .error ⟨.value, cursor.pos⟩
  | fuel + 1 =>
    match cursor.rest with
    | '"' :: rest =>
      (readText cursor.pos (cursor.pos + 1) [] rest).map fun (text, next) => (.str text, next)
    | '[' :: _ =>
      let inner := skipBlanks (cursor.skip 1)
      if depth = 0 then .error ⟨.tooDeep, cursor.pos⟩
      else if inner.rest.head? = some ']' then .ok (.arr [], inner.skip 1)
      else readItems fuel (depth - 1) [] inner
    | '\x7b' :: _ =>
      let inner := skipBlanks (cursor.skip 1)
      if depth = 0 then .error ⟨.tooDeep, cursor.pos⟩
      else if inner.rest.head? = some '\x7d' then .ok (.obj [], inner.skip 1)
      else readMembers fuel (depth - 1) [] inner
    | _ => readScalar cursor

/-- Reads the items of an array from one on, up to the closing bracket; `acc` holds the items so
far, last one first. -/
def readItems (fuel depth : Nat) (acc : List Json) (cursor : Cursor) :
    Except JsonError (Json × Cursor) :=
  match fuel with
  | 0 => .error ⟨.value, cursor.pos⟩
  | fuel + 1 => do
    let (item, next) ← readValue fuel depth cursor
    let next := skipBlanks next
    match next.rest with
    | ']' :: _ => return (.arr (item :: acc).reverse, next.skip 1)
    | ',' :: _ => readItems fuel depth (item :: acc) (skipBlanks (next.skip 1))
    | _ => throw ⟨.comma, next.pos⟩

/-- Reads the members of an object from one on, up to the closing bracket; `acc` holds the members
so far, last one first. -/
def readMembers (fuel depth : Nat) (acc : List (String × Json)) (cursor : Cursor) :
    Except JsonError (Json × Cursor) :=
  match fuel with
  | 0 => .error ⟨.value, cursor.pos⟩
  | fuel + 1 =>
    match cursor.rest with
    | '"' :: rest => do
      let (name, next) ← readText cursor.pos (cursor.pos + 1) [] rest
      let next := skipBlanks next
      match next.rest with
      | ':' :: _ =>
        let (value, next) ← readValue fuel depth (skipBlanks (next.skip 1))
        let next := skipBlanks next
        match next.rest with
        | '\x7d' :: _ => return (.obj ((name, value) :: acc).reverse, next.skip 1)
        | ',' :: _ => readMembers fuel depth ((name, value) :: acc) (skipBlanks (next.skip 1))
        | _ => throw ⟨.comma, next.pos⟩
      | _ => throw ⟨.colon, next.pos⟩
    | _ => .error ⟨.propertyName, cursor.pos⟩

end

/-- Reads a text that holds one value and blanks around it. -/
def read (text : String) : Except JsonError Json :=
  let cursor := Cursor.ofText text
  if cursor.rest.head? = some (Char.ofNat 0xFEFF) then .error ⟨.byteOrderMark, 0⟩
  else do
    let (value, next) ← readValue (2 * cursor.rest.length + 2) maxDepth (skipBlanks cursor)
    let next := skipBlanks next
    if next.atEnd then return value else throw ⟨.extra, next.pos⟩

end Json

end RegionInference
