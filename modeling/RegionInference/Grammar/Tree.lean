import RegionInference.Statement
import RegionInference.Ty.Basic

/-!
# Trees of texts

What a text of structs and functions says, before names are looked up. Places keep the text they
were read from, and whatever can still turn out wrong keeps its position.
-/

namespace RegionInference.Grammar

/-- A stretch of a text. -/
structure Span where
  /-- Where it starts. -/
  start : Nat
  /-- The text itself. -/
  text : String

/-- A place as it is written. -/
inductive PlaceTree where
  /-- A star in front of a place. -/
  | star (span : Span) (inner : PlaceTree)
  /-- A place in parentheses, and what is projected from it. -/
  | group (span : Span) (inner : PlaceTree) (steps : List Projection)
  /-- A local, and what is projected from it. -/
  | name (span : Span) (base : String) (steps : List Projection)

/-- The stretch of text of a place. -/
def PlaceTree.span : PlaceTree → Span
  | .star span _ => span
  | .group span _ _ => span
  | .name span _ _ => span

/-- The place that a tree stands for: a star dereferences all that follows it. -/
def PlaceTree.place : PlaceTree → Place
  | .star _ inner => inner.place.deref
  | .group _ inner steps => { inner.place with projections := inner.place.projections ++ steps }
  | .name _ base steps => ⟨base, steps⟩

/-- A type as it is written. -/
inductive TypeTree where
  /-- A reference. -/
  | ref (lifetime : String) (mutable : Bool) (referent : TypeTree)
  /-- A name with lifetimes and types as arguments. -/
  | named (start : Nat) (name : String) (lifetimes : List String) (args : List TypeTree)

/-- An argument of a type. -/
inductive TypeArg where
  /-- A lifetime. -/
  | lifetime (name : String)
  /-- A type. -/
  | type (ty : TypeTree)

/-- An operand as it is written. -/
inductive OperandTree where
  /-- A place that is read. -/
  | copy (place : PlaceTree)
  /-- A place that is moved out of. -/
  | move (place : PlaceTree)
  /-- A literal. -/
  | const (value : String)

/-- The signature of a call as it is written. -/
structure SignatureTree where
  /-- The types of the parameters. -/
  params : List TypeTree
  /-- The type of the result. -/
  result : Option TypeTree

/-- A right-hand side as it is written. -/
inductive RvalueTree where
  /-- A new reference. -/
  | borrow (lifetime : String) (mutable : Bool) (place : PlaceTree)
  /-- A call. -/
  | call (func : String) (args : List OperandTree) (signature : Option SignatureTree)
  /-- An operand. -/
  | use (operand : OperandTree)

/-- A statement as it is written. -/
inductive StatementTree where
  /-- An assignment. -/
  | assign (place : PlaceTree) (rvalue : RvalueTree)
  /-- A use of operands. -/
  | use (operands : List OperandTree)
  /-- A drop. -/
  | drop (name : String)
  /-- The end of the storage of a local. -/
  | storageDead (name : String)
  /-- Nothing. -/
  | nop

/-- A terminator as it is written. -/
inductive TerminatorTree where
  /-- A jump. -/
  | goto (targets : List String)
  /-- A jump that depends on an operand. -/
  | switch (operand : OperandTree) (targets : List String)
  /-- The end of the function. -/
  | ret

/-- What stands in a function. -/
inductive FunctionItem where
  /-- A local. -/
  | declare (name : String) (ty : TypeTree)
  /-- A lifetime with a fixed region: points as they are written, or every point. -/
  | placeholder (lifetime : String) (points : Option (List String))
  /-- A demand on two lifetimes, at a point as it is written. -/
  | outlives (longer shorter point : String)
  /-- A block. -/
  | block (name : String) (statements : List StatementTree) (terminator : TerminatorTree)

/-- A parameter of a struct: its keywords, whether it is a lifetime, and its name. -/
structure ParamTree where
  /-- The keywords in front. -/
  keywords : List String
  /-- Whether it is a lifetime. -/
  isLifetime : Bool
  /-- The name. -/
  name : String

/-- A struct or a function. -/
inductive ItemTree where
  /-- A struct. -/
  | struct (start : Nat) (name : String) (params : List ParamTree) (hasDestructor : Bool)
  /-- A function. -/
  | function (start : Nat) (name : String) (items : List FunctionItem)

end RegionInference.Grammar
