import RegionInference.Body.Basic

/-!
# Types of places and values

The type of a place follows its projections as far as they are modelled: a reference is
dereferenced to its referent, and indexing a generic type gives its first argument. The types of
fields are not known.
-/

namespace RegionInference

/-- The type that projections lead to. -/
def Ty.project? : Ty → List Projection → Option Ty
  | ty, [] => some ty
  | .ref _ _ referent, .deref :: steps => referent.project? steps
  | .adt _ _ (first :: _), .index :: steps => first.project? steps
  | _, _ :: _ => none

namespace Body

/-- The type of a place, if it is known. -/
def placeType (body : Body) (place : Place) : Except Fault (Option Ty) :=
  (body.var place.base).map fun found => found.ty.project? place.projections

/-- The type of an operand, if it is known. -/
def operandType (body : Body) (operand : Operand) : Except Fault (Option Ty) :=
  match operand.place? with
  | some place => body.placeType place
  | none => .ok none

/-- The type of a right-hand side, if it is known. -/
def rvalueType (body : Body) : Rvalue → Except Fault (Option Ty)
  | .use operand => body.operandType operand
  | .borrow lifetime mutable place =>
    (body.placeType place).map (·.map (.ref lifetime mutable))
  | .call _ _ _ result => .ok result
  | .const _ => .ok none

/-- The references that are dereferenced on the way to a place, innermost first: the lifetime of
each and whether it is mutable. Dereferences of other types are left out. -/
def derefs (body : Body) (place : Place) : Except Fault (List (String × Bool)) :=
  (body.var place.base).map fun found =>
    place.projections.zipIdx.reverse.filterMap fun (step, depth) =>
      match step, found.ty.project? (place.projections.take depth) with
      | .deref, some (.ref lifetime mutable _) => some (lifetime, mutable)
      | _, _ => none

/-- The lifetime of the first reference that a place dereferences. A first dereference of another
type gives none. -/
def through (body : Body) (place : Place) : Except Fault (Option String) :=
  match place.projections.findIdx? (· == .deref) with
  | none => .ok none
  | some depth =>
    (body.placeType (place.take depth)).map fun
      | some (.ref lifetime _ _) => some lifetime
      | _ => none

end Body

end RegionInference
