import RegionInference.Json.Basic
import RegionInference.Ty.Basic

/-!
# The printed forms of types

A type is shown as a JSON value: its text, and what it is made of.
-/

namespace RegionInference

/-- A parameter of a declaration as an array. -/
def AdtParam.toJson (param : AdtParam) : Json :=
  .arr [.str param.name, .str param.variance.symbol, .bool param.mayDangle]

/-- A declaration as an array. -/
def AdtDecl.toJson (decl : AdtDecl) : Json :=
  .arr [
    .str decl.name,
    .arr (decl.lifetimeParams.map AdtParam.toJson),
    .arr (decl.typeParams.map AdtParam.toJson),
    .bool decl.hasDestructor]

namespace Ty

mutual

/-- A type as an object. -/
def toJson : Ty → Json
  | .scalar name => .obj [("text", .str name), ("kind", .str "Scalar")]
  | .ref lifetime mutable referent =>
    .obj [
      ("text", .str (Ty.ref lifetime mutable referent).text),
      ("kind", .str "Ref"),
      ("lifetime", .str lifetime),
      ("mutable", .bool mutable),
      ("referent", referent.toJson)]
  | .adt decl lifetimes args =>
    .obj [
      ("text", .str (Ty.adt decl lifetimes args).text),
      ("kind", .str "Adt"),
      ("lifetimes", .strs lifetimes),
      ("args", .arr (toJsons args)),
      ("decl", decl.toJson)]

/-- The types of a list as objects. -/
def toJsons : List Ty → List Json
  | [] => []
  | ty :: tys => ty.toJson :: toJsons tys

end

end Ty

end RegionInference
