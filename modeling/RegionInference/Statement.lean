import RegionInference.Place.Text
import RegionInference.Ty.Basic

/-!
# Statements and terminators

What stands at the points of a function. Each element answers which locals it overwrites, which it
reads, and which it drops; the text of an element is how it is written in a body.
-/

namespace RegionInference

/-- A value that a statement reads. -/
inductive Operand where
  /-- Reads a place and leaves it as it is. -/
  | copy (place : Place)
  /-- Reads a place and leaves it uninitialized. -/
  | move (place : Place)
  /-- A literal; reads nothing. -/
  | const (value : String)

/-- The right-hand side of an assignment. -/
inductive Rvalue where
  /-- The value of an operand. -/
  | use (operand : Operand)
  /-- A new reference to a place. -/
  | borrow (lifetime : String) (mutable : Bool) (place : Place)
  /-- The result of a call. The signature, where known, has its lifetimes already filled in. -/
  | call (func : String) (args : List Operand) (params : List Ty) (result : Option Ty)
  /-- A bare literal, which has no type. -/
  | const (value : String)

/-- A straight-line statement. -/
inductive Statement where
  /-- Stores a value in a place. -/
  | assign (place : Place) (rvalue : Rvalue)
  /-- Reads operands and does nothing else. -/
  | use (operands : List Operand)
  /-- Runs the destructor of a local. -/
  | drop (name : String)
  /-- Ends the storage of a local. -/
  | storageDead (name : String)
  /-- Does nothing. -/
  | nop

/-- The end of a block. -/
inductive Terminator where
  /-- Goes to one of the blocks. -/
  | goto (targets : List String)
  /-- Goes to one of the blocks, as an operand says. -/
  | switch (operand : Operand) (targets : List String)
  /-- Leaves the function. -/
  | ret

/-- What stands at a point. -/
inductive Element where
  /-- A statement. -/
  | stmt (statement : Statement)
  /-- A terminator. -/
  | term (terminator : Terminator)

/-! ### Operands -/

namespace Operand

/-- The place an operand reads. -/
def place? : Operand → Option Place
  | .copy place => some place
  | .move place => some place
  | .const _ => none

/-- The locals an operand reads. -/
def uses (operand : Operand) : List String :=
  (operand.place?.map Place.base).toList

/-- The text of an operand. -/
def text : Operand → String
  | .copy place => "copy " ++ place.text
  | .move place => "move " ++ place.text
  | .const value => value

end Operand

/-! ### Right-hand sides -/

namespace Rvalue

/-- The operands that are read. A borrow reads its place otherwise. -/
def operands : Rvalue → List Operand
  | .use operand => [operand]
  | .borrow _ _ _ => []
  | .call _ args _ _ => args
  | .const _ => []

/-- The locals that are read. -/
def uses : Rvalue → List String
  | .borrow _ _ place => [place.base]
  | rvalue => rvalue.operands.flatMap Operand.uses

/-- The text of a right-hand side. -/
def text : Rvalue → String
  | .use operand => operand.text
  | .borrow lifetime mutable place =>
    "&'" ++ lifetime ++ (if mutable then " mut " else " ") ++ place.text
  | .call func args _ _ => func ++ "(" ++ ", ".intercalate (args.map Operand.text) ++ ")"
  | .const value => value

end Rvalue

/-! ### Statements -/

namespace Statement

/-- The locals whose whole value is overwritten. -/
def defs : Statement → List String
  | .assign place _ => if place.isLocal then [place.base] else []
  | .storageDead name => [name]
  | _ => []

/-- The locals whose value is read, each once. Writing through a reference reads the reference. -/
def uses : Statement → List String
  | .assign place rvalue =>
    (rvalue.uses ++ if place.throughDeref then [place.base] else []).eraseDups
  | .use operands => (operands.flatMap Operand.uses).eraseDups
  | _ => []

/-- The locals whose destructor runs. -/
def drops : Statement → List String
  | .drop name => [name]
  | _ => []

/-- The text of a statement. -/
def text : Statement → String
  | .assign place rvalue => place.text ++ " = " ++ rvalue.text
  | .use operands => "use(" ++ ", ".intercalate (operands.map Operand.text) ++ ")"
  | .drop name => "drop(" ++ name ++ ")"
  | .storageDead name => "storage_dead(" ++ name ++ ")"
  | .nop => "nop"

end Statement

/-! ### Terminators -/

namespace Terminator

/-- The blocks that may follow, in the order given. -/
def targets : Terminator → List String
  | .goto targets => targets
  | .switch _ targets => targets
  | .ret => []

/-- The locals that are read. -/
def uses : Terminator → List String
  | .switch operand _ => operand.uses
  | _ => []

/-- Whether the terminator branches on a value. -/
def isSwitch : Terminator → Bool
  | .switch _ _ => true
  | _ => false

/-- The text of a terminator. -/
def text : Terminator → String
  | .goto targets => "goto " ++ " ".intercalate targets
  | .switch operand targets => "switch " ++ operand.text ++ " " ++ " ".intercalate targets
  | .ret => "return"

end Terminator

/-! ### Elements -/

namespace Element

/-- The locals whose whole value is overwritten. -/
def defs : Element → List String
  | .stmt statement => statement.defs
  | .term _ => []

/-- The locals whose value is read. -/
def uses : Element → List String
  | .stmt statement => statement.uses
  | .term terminator => terminator.uses

/-- The locals whose destructor runs. -/
def drops : Element → List String
  | .stmt statement => statement.drops
  | .term _ => []

/-- The text of an element. -/
def text : Element → String
  | .stmt statement => statement.text
  | .term terminator => terminator.text

/-- The locals an element names at all. -/
def names (element : Element) : List String :=
  element.uses ++ element.defs ++ element.drops ++
    match element with
    | .stmt (.assign place _) => [place.base]
    | _ => []

end Element

end RegionInference
