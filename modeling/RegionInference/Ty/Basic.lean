import RegionInference.Variance

/-!
# Types

Types with just enough structure to know which lifetimes they mention, in which position, and
which of them a destructor may leave dangling: scalars, references, and instances of declared
generic types.
-/

namespace RegionInference

/-- A generic parameter of a declared type. -/
structure AdtParam where
  /-- The name; for a lifetime, without the mark in front. -/
  name : String
  /-- The declared variance. -/
  variance : Variance := .covariant
  /-- The destructor promises not to touch data of this parameter. -/
  mayDangle : Bool := false
deriving DecidableEq

/-- The declaration of a generic type. -/
structure AdtDecl where
  /-- The name. -/
  name : String
  /-- The lifetime parameters. -/
  lifetimeParams : List AdtParam := []
  /-- The type parameters. -/
  typeParams : List AdtParam := []
  /-- Whether dropping a value runs code. -/
  hasDestructor : Bool := false
deriving DecidableEq

/-- The interior-mutability wrapper, invariant in its contents. -/
def AdtDecl.cell : AdtDecl :=
  { name := "Cell", typeParams := [{ name := "T", variance := .invariant }] }

/-- A type. -/
inductive Ty where
  /-- A type without lifetimes. -/
  | scalar (name : String)
  /-- A reference to a value of type `referent`. -/
  | ref (lifetime : String) (mutable : Bool) (referent : Ty)
  /-- An instance of a declared type. -/
  | adt (decl : AdtDecl) (lifetimes : List String) (args : List Ty)

/-- What is wrong with a type, or with a pair of types. -/
inductive TypeError where
  /-- The two types do not have the same shape. -/
  | mismatch (sub sup : Ty)
  /-- An instance has the wrong number of arguments. -/
  | arity (name : String)

namespace Ty

/-- The instance of a declaration, if the arguments are as many as the parameters. -/
def instantiate (decl : AdtDecl) (lifetimes : List String) (args : List Ty) : Except TypeError Ty :=
  if lifetimes.length = decl.lifetimeParams.length ∧ args.length = decl.typeParams.length then
    .ok (.adt decl lifetimes args)
  else .error (.arity decl.name)

mutual

/-- Every instance inside the type has as many arguments as its declaration has parameters. -/
def WellFormed : Ty → Prop
  | .scalar _ => True
  | .ref _ _ referent => referent.WellFormed
  | .adt decl lifetimes args =>
    lifetimes.length = decl.lifetimeParams.length ∧ args.length = decl.typeParams.length ∧
      AllWellFormed args

/-- Every type of the list is well formed. -/
def AllWellFormed : List Ty → Prop
  | [] => True
  | ty :: tys => ty.WellFormed ∧ AllWellFormed tys

end

/-! ### Text -/

mutual

/-- The text of a type. -/
def text : Ty → String
  | .scalar name => name
  | .ref lifetime mutable referent =>
    "&'" ++ lifetime ++ (if mutable then " mut " else " ") ++ referent.text
  | .adt decl lifetimes args =>
    match lifetimes.map ("'" ++ ·) ++ texts args with
    | [] => decl.name
    | items => decl.name ++ "<" ++ ", ".intercalate items ++ ">"

/-- The texts of the types of a list. -/
def texts : List Ty → List String
  | [] => []
  | ty :: tys => ty.text :: texts tys

end

/-! ### Lifetimes -/

mutual

/-- The lifetimes of a type from left to right, with repetitions. -/
def lifetimeWalk : Ty → List String
  | .scalar _ => []
  | .ref lifetime _ referent => lifetime :: referent.lifetimeWalk
  | .adt _ lifetimes args => lifetimes ++ lifetimeWalks args

/-- The lifetimes of the types of a list, with repetitions. -/
def lifetimeWalks : List Ty → List String
  | [] => []
  | ty :: tys => ty.lifetimeWalk ++ lifetimeWalks tys

end

/-- The lifetimes a type mentions, each once, in the order of first mention. -/
def lifetimes (ty : Ty) : List String :=
  ty.lifetimeWalk.eraseDups

/-- Whether the type mentions the lifetime. -/
def mentions (ty : Ty) (lifetime : String) : Bool :=
  ty.lifetimes.contains lifetime

/-- The wrapper around a type. -/
def cell (contents : Ty) : Ty :=
  .adt .cell [] [contents]

end Ty

end RegionInference
