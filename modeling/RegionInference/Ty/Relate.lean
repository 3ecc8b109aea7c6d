import RegionInference.Ty.Basic

/-!
# Relating types

What `sub` being a subtype of `sup` asks of their lifetimes: a list of pairs `(a, b)`, each of
which says that `a` outlives `b`. A reference is covariant in its lifetime, a shared one covariant
and a mutable one invariant in what it refers to, and an instance follows the variances of its
declaration.
-/

namespace RegionInference.Ty

/-- What relating lifetime `a` to lifetime `b` at a position asks for. -/
def outlivesAt (a b : String) : Variance → List (String × String)
  | .covariant => [(a, b)]
  | .contravariant => [(b, a)]
  | .invariant => [(a, b), (b, a)]
  | .bivariant => []

/-- What relating two lists of lifetime arguments asks for, parameter by parameter. -/
def relateLifetimes (variance : Variance) :
    List AdtParam → List String → List String → List (String × String)
  | param :: params, a :: as, b :: bs =>
    outlivesAt a b (variance.compose param.variance) ++ relateLifetimes variance params as bs
  | _, _, _ => []

/-- How a reference relates what it refers to. -/
def referentVariance (mutable : Bool) : Variance :=
  if mutable then .invariant else .covariant

mutual

/-- The pairs that relating two types asks for, with repetitions and trivial pairs. -/
def relatePairs (variance : Variance) : Ty → Ty → Except TypeError (List (String × String))
  | .scalar a, .scalar b =>
    if a = b then .ok [] else .error (.mismatch (.scalar a) (.scalar b))
  | .ref a mutable referent, .ref b mutable' referent' =>
    if mutable = mutable' then do
      let inner ← relatePairs (variance.compose (referentVariance mutable)) referent referent'
      return outlivesAt a b variance ++ inner
    else .error (.mismatch (.ref a mutable referent) (.ref b mutable' referent'))
  | .adt decl as args, .adt decl' bs args' =>
    if decl = decl' then do
      let inner ← relateArgs variance decl.typeParams args args'
      return relateLifetimes variance decl.lifetimeParams as bs ++ inner
    else .error (.mismatch (.adt decl as args) (.adt decl' bs args'))
  | sub, sup => .error (.mismatch sub sup)

/-- The pairs that relating two lists of type arguments asks for, parameter by parameter. -/
def relateArgs (variance : Variance) :
    List AdtParam → List Ty → List Ty → Except TypeError (List (String × String))
  | param :: params, a :: as, b :: bs => do
    let first ← relatePairs (variance.compose param.variance) a b
    let others ← relateArgs variance params as bs
    return first ++ others
  | _, _, _ => .ok []

end

/-- The outlives pairs that `sub` being related to `sup` at a variance asks for: each once, in the
order of first occurrence, without the trivial ones. -/
def relate (variance : Variance) (sub sup : Ty) : Except TypeError (List (String × String)) :=
  (relatePairs variance sub sup).map fun pairs =>
    (pairs.filter fun (a, b) => a != b).eraseDups

end RegionInference.Ty
