import RegionInference.Json.Basic
import RegionInference.Text.Quoted

/-!
# Writing JSON

Two layouts: on one line without blanks, and indented by two blanks a level. Characters outside
printable ASCII are written as escapes of their UTF-16 units.
-/

namespace RegionInference.Json

open Text

/-- A UTF-16 unit as an escape. -/
def unitEscape (n : Nat) : List Char :=
  '\\' :: 'u' :: hexDigits 4 n

/-- A character as it stands in a JSON text. -/
def escape (c : Char) : List Char :=
  if c = '"' then ['\\', '"']
  else if c = '\\' then ['\\', '\\']
  else if c = '\n' then ['\\', 'n']
  else if c = '\r' then ['\\', 'r']
  else if c = '\t' then ['\\', 't']
  else if c.toNat = 0x8 then ['\\', 'b']
  else if c.toNat = 0xC then ['\\', 'f']
  else if 0x20 ≤ c.toNat ∧ c.toNat ≤ 0x7E then [c]
  else if c.toNat < 0x10000 then unitEscape c.toNat
  else
    let n := c.toNat - 0x10000
    unitEscape (0xD800 + n / 0x400) ++ unitEscape (0xDC00 + n % 0x400)

/-- A code as it stands in a JSON text: a half of a pair is written as the unit that it is. -/
def escapeCode (code : Nat) : List Char :=
  if isHalf code then unitEscape code else escape (Char.ofNat code)

/-- A text in JSON. -/
def quoted (s : String) : String :=
  "\"" ++ String.ofList ((codes s.toList).flatMap escapeCode) ++ "\""

/-! ### On one line -/

mutual

/-- The value on one line. -/
def compact : Json → String
  | .null => "null"
  | .bool value => if value then "true" else "false"
  | .int value => toString value
  | .real literal => literal
  | .str value => quoted value
  | .arr items => "[" ++ ",".intercalate (compactItems items) ++ "]"
  | .obj members => "\x7b" ++ ",".intercalate (compactMembers members) ++ "\x7d"

/-- The items of an array, each on one line. -/
def compactItems : List Json → List String
  | [] => []
  | item :: items => item.compact :: compactItems items

/-- The members of an object, each on one line. -/
def compactMembers : List (String × Json) → List String
  | [] => []
  | (name, value) :: members =>
    (quoted name ++ ":" ++ value.compact) :: compactMembers members

end

/-! ### Indented -/

/-- Lines of items between brackets, at a depth. -/
def bracketed (opening closing : String) (depth : Nat) (items : List String) : String :=
  if items.isEmpty then opening ++ closing
  else
    let margin (n : Nat) := "\n" ++ String.ofList (List.replicate (2 * n) ' ')
    opening ++ margin (depth + 1) ++ ("," ++ margin (depth + 1)).intercalate items ++
      margin depth ++ closing

mutual

/-- The value indented, its first line at a depth. -/
def indentedAt (depth : Nat) : Json → String
  | .null => "null"
  | .bool value => if value then "true" else "false"
  | .int value => toString value
  | .real literal => literal
  | .str value => quoted value
  | .arr items => bracketed "[" "]" depth (indentedItems (depth + 1) items)
  | .obj members => bracketed "\x7b" "\x7d" depth (indentedMembers (depth + 1) members)

/-- The items of an array, indented at a depth. -/
def indentedItems (depth : Nat) : List Json → List String
  | [] => []
  | item :: items => item.indentedAt depth :: indentedItems depth items

/-- The members of an object, indented at a depth. -/
def indentedMembers (depth : Nat) : List (String × Json) → List String
  | [] => []
  | (name, value) :: members =>
    (quoted name ++ ": " ++ value.indentedAt depth) :: indentedMembers depth members

end

/-- The value indented by two blanks a level. -/
def indented (json : Json) : String :=
  json.indentedAt 0

end RegionInference.Json
