import RegionInference.Binary64.Reader

/-!
# JSON values

Values of the JSON format. The members of an object keep the order in which they came.
-/

namespace RegionInference

/-- A JSON value. -/
inductive Json where
  /-- The null value. -/
  | null
  /-- A truth value. -/
  | bool (value : Bool)
  /-- A whole number. -/
  | int (value : Int)
  /-- Any other number, as it is written. -/
  | real (literal : String)
  /-- A text. -/
  | str (value : String)
  /-- An array. -/
  | arr (items : List Json)
  /-- An object. -/
  | obj (members : List (String × Json))
deriving Inhabited

namespace Json

/-- The member of an object with a name; of several the last counts. -/
def get? (json : Json) (name : String) : Option Json :=
  match json with
  | .obj members => (members.reverse.find? (·.1 == name)).map Prod.snd
  | _ => none

/-- An array of texts. -/
def strs (items : List String) : Json :=
  .arr (items.map .str)

/-- A natural number. -/
def nat (n : Nat) : Json :=
  .int n

/-- A value that may be absent. -/
def option (f : α → Json) : Option α → Json
  | some a => f a
  | none => .null

/-- Whether the value counts as true: neither null, nor false, nor zero, nor empty. -/
def truthy : Json → Bool
  | .null => false
  | .bool value => value
  | .int value => value != 0
  | .real literal => !(Binary64.ofLiteral literal).isZero
  | .str value => !value.isEmpty
  | .arr items => !items.isEmpty
  | .obj members => !members.isEmpty

end Json

end RegionInference
