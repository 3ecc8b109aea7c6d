import RegionInference.Ty.Basic

/-!
# Dropping values

Which lifetimes must still be valid when a value is dropped. A reference has nothing to drop. An
instance with a destructor keeps the parameters that are not declared as dangling; its type
arguments are dropped with it, whether it has a destructor or not.
-/

namespace RegionInference.Ty

/-- The arguments whose parameters may not dangle. -/
def keptArgs (params : List AdtParam) (args : List α) : List α :=
  (params.zip args).filterMap fun (param, arg) => if param.mayDangle then none else some arg

mutual

/-- The lifetimes a drop may touch, from left to right, with repetitions. -/
def dropWalk : Ty → List String
  | .scalar _ => []
  | .ref _ _ _ => []
  | .adt decl lifetimes args =>
    (if decl.hasDestructor then
      keptArgs decl.lifetimeParams lifetimes ++
        (keptArgs decl.typeParams args).flatMap Ty.lifetimes
    else []) ++ dropWalks args

/-- The lifetimes that dropping the types of a list may touch, with repetitions. -/
def dropWalks : List Ty → List String
  | [] => []
  | ty :: tys => ty.dropWalk ++ dropWalks tys

end

/-- The lifetimes a drop may touch, each once, in the order of first occurrence. -/
def dropLifetimes (ty : Ty) : List String :=
  ty.dropWalk.eraseDups

end RegionInference.Ty
