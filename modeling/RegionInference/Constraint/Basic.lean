import RegionInference.Point
import RegionInference.PointSet

/-!
# Constraints on regions

A region is the set of points at which a lifetime has to last. There are two kinds of constraint on
regions: a region contains a point, or, from a point on, one region contains all that can be
reached without leaving another.
-/

namespace RegionInference

/-- Why a constraint was made. -/
inductive Origin where
  /-- A value with the lifetime may still be used. -/
  | liveness
  /-- A value was assigned. -/
  | assignment
  /-- A value was handed to a call. -/
  | callArgument
  /-- A value was handed back by a call. -/
  | callReturn
  /-- A place behind a reference was borrowed. -/
  | reborrow
  /-- It was demanded from outside. -/
  | obligation
deriving DecidableEq

namespace Origin

/-- All origins. -/
def all : List Origin :=
  [.liveness, .assignment, .callArgument, .callReturn, .reborrow, .obligation]

/-- The name of an origin. -/
def text : Origin → String
  | .liveness => "liveness"
  | .assignment => "assignment"
  | .callArgument => "call-argument"
  | .callReturn => "call-return"
  | .reborrow => "reborrow"
  | .obligation => "obligation"

/-- The origin of that name. -/
def ofText? (text : String) : Option Origin :=
  all.find? (·.text == text)

end Origin

/-- The region of a lifetime contains a point. -/
structure LiveAt where
  /-- The lifetime. -/
  lifetime : String
  /-- The point. -/
  point : Point
  /-- The number of the point. -/
  index : Nat
  /-- Why the constraint was made. -/
  origin : Origin
deriving DecidableEq

/-- From a point on, the region of `longer` contains all that can be reached without leaving the
region of `shorter`. -/
structure Outlives where
  /-- The lifetime that lasts longer. -/
  longer : String
  /-- The lifetime that it outlives. -/
  shorter : String
  /-- The point from which on it does. -/
  point : Point
  /-- The number of the point. -/
  index : Nat
  /-- Why the constraint was made. -/
  origin : Origin
deriving DecidableEq

/-- A constraint of either kind. -/
inductive Constraint where
  /-- A region contains a point. -/
  | live (constraint : LiveAt)
  /-- A region contains what another one reaches. -/
  | outlives (constraint : Outlives)
deriving DecidableEq

namespace Constraint

/-- Why the constraint was made. -/
def origin : Constraint → Origin
  | .live c => c.origin
  | .outlives c => c.origin

/-- The lifetime whose region may have to grow. -/
def target : Constraint → String
  | .live c => c.lifetime
  | .outlives c => c.longer

/-- The printed form of a constraint. -/
def text : Constraint → String
  | .live c => s!"Live('{c.lifetime}, {c.point.text})"
  | .outlives c => s!"('{c.longer}: '{c.shorter}) @ {c.point.text}"

end Constraint

/-- What two constraints share if the later one has nothing to add. -/
inductive Constraint.Key where
  /-- A lifetime and the point that its region contains. -/
  | live (lifetime : String) (point : Point)
  /-- A lifetime, one that it outlives, and the point from which on it does. -/
  | outlives (longer shorter : String) (point : Point)
deriving DecidableEq

/-- The key of a constraint that a region contains a point. -/
def LiveAt.key (c : LiveAt) : Constraint.Key :=
  .live c.lifetime c.point

/-- The key of a constraint between two regions. -/
def Outlives.key (c : Outlives) : Constraint.Key :=
  .outlives c.longer c.shorter c.point

/-- A constraint that needs more points than a fixed region has. -/
structure Violation where
  /-- The constraint. -/
  constraint : Constraint
  /-- The points it needs outside the fixed region. -/
  extra : PointSet
deriving DecidableEq

/-- The lifetime whose region is fixed. -/
def Violation.lifetime (violation : Violation) : String :=
  violation.constraint.target

end RegionInference
