import RegionInference.Constraint.Set
import RegionInference.Graph.Reach
import RegionInference.Graph.Search
import RegionInference.Liveness

/-!
# Conflicts

A loan is active at the points that can be reached from the point after the borrow without leaving
the region of its lifetime. An access to an active loan that its kind does not allow is a conflict,
and so is the end of the storage of the local whose place is on loan. A conflict names the nearest
point at which the borrowed reference, or one that it flowed into, is used.
-/

namespace RegionInference

/-- What makes a conflict. -/
inductive Cause where
  /-- An access that the loan does not allow. -/
  | invalidated
  /-- The end of the storage of the borrowed local. -/
  | useAfterScope
deriving DecidableEq

/-- The name of a cause. -/
def Cause.text : Cause → String
  | .invalidated => "invalidated"
  | .useAfterScope => "use-after-scope"

/-- An action that an active loan forbids. -/
structure Conflict where
  /-- The loan. -/
  loan : Loan
  /-- The point of the action. -/
  point : Point
  /-- The kind of the access, if the action is one. -/
  access : Option AccessKind
  /-- What makes the conflict. -/
  cause : Cause
  /-- The nearest use of the loan. -/
  use : Option Point
deriving DecidableEq

/-- Whether two conflicts are about one loan and one action. -/
def Conflict.sameKey (a b : Conflict) : Bool :=
  a.loan.point == b.loan.point && a.loan.lifetime == b.loan.lifetime &&
    a.loan.path == b.loan.path && a.point == b.point && a.cause == b.cause

/-- What conflicts are looked for with: the solved regions, the facts, the body for the use sites
and the constraints for the flow between lifetimes. -/
structure Detector where
  /-- The body. -/
  body : Body
  /-- The regions. -/
  regions : NameMap PointSet
  /-- The facts. -/
  facts : LoanFacts
  /-- The constraints. -/
  constraints : ConstraintSet

namespace Detector

/-- The graph of the body. -/
def graph (detector : Detector) : Graph :=
  detector.body.graph

/-- The points that can be reached from the points after one without leaving a set. -/
def reachAfter (g : Graph) (start : Nat) (region : PointSet) : PointSet :=
  (g.succ start).foldl (fun set next => set.union (g.reachWithin next region)) ∅

/-- The points at which a loan is active. -/
def active (detector : Detector) (loan : Loan) : Except Fault PointSet :=
  match detector.regions.get? loan.lifetime with
  | none => .error (.missingRegion loan.lifetime)
  | some region =>
    (detector.graph.index loan.point).map fun start => reachAfter detector.graph start region

/-- Whether one of some lifetimes is needed by a use at a point. -/
def usedAt (body : Body) (carriers : NameSet) (i : Nat) : Except Fault Bool :=
  match body.graph.elementAt? i with
  | none => .ok false
  | some element =>
    (Liveness.useSites body element).map fun sites =>
      sites.entries.any fun (_, needed) => needed.any (· ∈ carriers)

/-- The first of some points at which one of some lifetimes is needed. -/
def firstUse (body : Body) (carriers : NameSet) : List Nat → Except Fault (Option Nat)
  | [] => .ok none
  | i :: points => do
    if ← usedAt body carriers i then return some i else firstUse body carriers points

/-- The nearest use of one of some lifetimes on paths from a point through active points. The point
itself comes first, and of points at one distance the lowest number. -/
def nearestUse (detector : Detector) (carriers : NameSet) (start : Point) (active : PointSet) :
    Except Fault (Option Point) := do
  let i ← detector.graph.index start
  let points := (detector.graph.visits (.single i) active).map fun (visit, _) => visit.point
  let found ← firstUse detector.body carriers points
  return found.bind detector.graph.pointAt?

/-- The nearest use of a lifetime, or of one that it flows into. -/
def findUse (detector : Detector) (lifetime : String) (start : Point) (active : PointSet) :
    Except Fault (Option Point) :=
  detector.nearestUse (detector.constraints.flowsTo lifetime) start active

/-- Whether the kind of a loan forbids an access to its place. While a place is on loan for
writing, it can be accessed only through the reference itself, whose lifetime is one of the
carriers of the loan. -/
def forbids (carriers : NameSet) (loan : Loan) (access : Access) : Bool :=
  match loan.kind with
  | .shared => access.kind == .write || access.kind == .move
  | .mutable => access.through.all (· ∉ carriers)

/-- Whether an access touches the place of a loan. -/
def touches (access : Access) (loan : Loan) : Bool :=
  if access.shallow then access.path.overwriteOverlaps loan.path
  else loan.path.overlaps access.path

/-- Whether an access conflicts with a loan that is active at some points. -/
def invalidates (detector : Detector) (carriers : NameSet) (loan : Loan) (active : PointSet)
    (access : Access) : Except Fault Bool :=
  (detector.graph.index access.point).map fun i =>
    decide (i ∈ active) && touches access loan && forbids carriers loan access

/-- Whether the storage of the borrowed local ends while a loan is active and goes on being so. -/
def escapes (detector : Detector) (loan : Loan) (active : PointSet) (exit : ScopeExit) :
    Except Fault Bool :=
  if exit.name != loan.path.base then .ok false
  else
    (detector.graph.index exit.point).map fun i =>
      decide (i ∈ active) && (detector.graph.succ i).any (· ∈ active)

/-- The conflict of a loan with an action, and the nearest use. -/
def conflict (detector : Detector) (carriers : NameSet) (loan : Loan) (active : PointSet)
    (point : Point) (access : Option AccessKind) (cause : Cause) : Except Fault Conflict :=
  (detector.nearestUse carriers point active).map fun use =>
    { loan, point, access, cause, use }

/-- The conflicts of a loan with accesses, in the order of the accesses. -/
def invalidations (detector : Detector) (carriers : NameSet) (loan : Loan) (active : PointSet) :
    Except Fault (List Conflict) := do
  let accesses ← detector.facts.accesses.filterM (detector.invalidates carriers loan active)
  accesses.mapM fun access =>
    detector.conflict carriers loan active access.point (some access.kind) .invalidated

/-- The conflicts of a loan with scope exits, in the order of the exits. What is borrowed behind a
reference does not end with the local. -/
def scopeEnds (detector : Detector) (carriers : NameSet) (loan : Loan) (active : PointSet) :
    Except Fault (List Conflict) := do
  if loan.path.throughDeref then return []
  else
    let exits ← detector.facts.exits.filterM (detector.escapes loan active)
    exits.mapM fun exit =>
      detector.conflict carriers loan active exit.point none .useAfterScope

/-- The conflicts of a loan. Its carriers are its lifetime and those that it flows into. -/
def conflictsOf (detector : Detector) (loan : Loan) : Except Fault (List Conflict) := do
  let active ← detector.active loan
  if active.isEmpty then return []
  else
    let carriers := detector.constraints.flowsTo loan.lifetime
    return (← detector.invalidations carriers loan active) ++
      (← detector.scopeEnds carriers loan active)

/-- Of conflicts about one loan and one action, the first. -/
def firstOfEach : List Conflict → List Conflict
  | [] => []
  | conflict :: conflicts =>
    conflict :: (firstOfEach conflicts).filter fun other => !conflict.sameKey other

/-- The order in which conflicts are listed: by the number of the action's point, then by that of
the borrow, the name of the cause and the text of the path. -/
def listedBefore (g : Graph) (a b : Conflict) : Bool :=
  let key (c : Conflict) : Nat × Nat × String × String :=
    ((g.index? c.point).getD 0, (g.index? c.loan.point).getD 0, c.cause.text, c.loan.path.text)
  let (action, borrow, cause, path) := key a
  let (action', borrow', cause', path') := key b
  decide (action < action') || action == action' &&
    (decide (borrow < borrow') || borrow == borrow' &&
      (decide (cause < cause') || cause == cause' && decide (path ≤ path')))

/-- All conflicts, in the order in which they are listed. -/
def detect (detector : Detector) : Except Fault (List Conflict) := do
  let conflicts ← detector.facts.loans.mapM detector.conflictsOf
  return (firstOfEach conflicts.flatten).mergeSort (listedBefore detector.graph)

end Detector

end RegionInference
