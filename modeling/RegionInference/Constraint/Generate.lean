import RegionInference.Body.Typing
import RegionInference.Constraint.Set
import RegionInference.Liveness
import RegionInference.Ty.Relate

/-!
# The constraints of a body

Three sources give constraints. A lifetime that is live at a point contains the point. A value that
is stored, handed to a call or handed back by one has a subtype of what is expected, from the next
point on; and a borrow through references ends before they do. What is demanded from outside holds
at its own point.
-/

namespace RegionInference

/-- The demand that a lifetime outlives another from a point on. -/
structure Demand where
  /-- The lifetime that lasts longer. -/
  longer : String
  /-- The lifetime that it outlives. -/
  shorter : String
  /-- The point. -/
  point : Point
  /-- Why it is demanded. -/
  origin : Origin

namespace Demand

/-- What it takes for a type to be a subtype of another at a point. Nothing is demanded where one
of the types is not known. -/
def subtype (sub sup : Option Ty) (point : Point) (origin : Origin)
    (variance : Variance := .covariant) : Except Fault (List Demand) :=
  match sub, sup with
  | some sub, some sup => do
    let pairs ← (Ty.relate variance sub sup).mapError .badType
    return pairs.map fun (longer, shorter) => ⟨longer, shorter, point, origin⟩
  | _, _ => .ok []

/-- The references that a borrow may not outlive: those it goes through, from the innermost out,
up to the first shared one. -/
def throughShared : List (String × Bool) → List String
  | [] => []
  | (lifetime, true) :: derefs => lifetime :: throughShared derefs
  | (lifetime, false) :: _ => [lifetime]

/-- What a borrow demands of the references that it goes through. -/
def reborrow (body : Body) (lifetime : String) (place : Place) (point : Point) :
    Except Fault (List Demand) :=
  (body.derefs place).map fun derefs =>
    (throughShared derefs).map fun longer => ⟨longer, lifetime, point, .reborrow⟩

/-- What an assignment demands at the point after it. -/
def assignment (body : Body) (place : Place) (rvalue : Rvalue) (point : Point) :
    Except Fault (List Demand) := do
  let target ← body.placeType place
  match rvalue with
  | .call _ args params result =>
    let arguments ← (args.zip params).mapM fun (arg, param) => do
      subtype (← body.operandType arg) (some param) point .callArgument
    return arguments.flatten ++ (← subtype result target point .callReturn)
  | .borrow lifetime _ borrowed =>
    let stored ← subtype (← body.rvalueType rvalue) target point .assignment
    return stored ++ (← reborrow body lifetime borrowed point)
  | _ => subtype (← body.rvalueType rvalue) target point .assignment

/-- What the element at a point demands. -/
def ofElement (body : Body) (point : Point) : Element → Except Fault (List Demand)
  | .stmt (.assign place rvalue) =>
    assignment body place rvalue { point with index := point.index + 1 }
  | _ => .ok []

/-- What is demanded from outside. -/
def ofObligation : Obligation → Except Fault (List Demand)
  | .outlives longer shorter point => .ok [⟨longer, shorter, point, .obligation⟩]
  | .subtype sub sup point variance =>
    subtype (some sub) (some sup) point .obligation variance

/-- All that a body demands, element by element and then from outside. -/
def ofBody (body : Body) : Except Fault (List Demand) := do
  let elements ← body.graph.items.mapM fun (point, element) => ofElement body point element
  let obligations ← body.obligations.mapM ofObligation
  return elements.flatten ++ obligations.flatten

end Demand

namespace ConstraintSet

/-- The constraints of the live lifetimes at the point with a number. -/
def liveHere (liveness : Liveness) (point : Point) (i : Nat) : Except Fault (List LiveAt) :=
  (liveness.lifetimesAt i).map fun lifetimes =>
    lifetimes.toList.map fun lifetime => ⟨lifetime, point, i, .liveness⟩

/-- The constraints of the live lifetimes at all points of a body. They are different from each
other, since each point has a set of live lifetimes, and those are lifetimes of the body; so they
need not be added one by one. -/
def liveOf (body : Body) (liveness : Liveness) : Except Fault (List LiveAt) :=
  (body.graph.points.zipIdx.mapM fun (point, i) => liveHere liveness point i).map List.flatten

/-- Adds what is demanded. -/
def addDemands (set : ConstraintSet) (demands : List Demand) : Except Fault ConstraintSet :=
  demands.foldlM (fun set demand =>
    (set.addOutlives demand.longer demand.shorter demand.point demand.origin).map Prod.fst) set

/-- The constraints of a body, frozen. -/
def ofBody (body : Body) (liveness : Liveness) : Except Fault ConstraintSet := do
  let set := ConstraintSet.new body.graph (body.lifetimes.map Lifetime.name)
  let live ← liveOf body liveness
  let set ← (set.appendLive live).addDemands (← Demand.ofBody body)
  return set.freeze

end ConstraintSet

end RegionInference
