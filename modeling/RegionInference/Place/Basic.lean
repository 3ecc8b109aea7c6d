/-!
# Places

A place is a storage location: a local variable and the projections that lead from it to the
location, in the order in which they are taken. `(*p).f[_]` is the local `p` followed by a
dereference, the field `f` and an index.
-/

namespace RegionInference

/-- One step from a location to a location inside or behind it. -/
inductive Projection where
  /-- To what the reference stored here points to. -/
  | deref
  /-- To the field of that name. -/
  | field (name : String)
  /-- To some element. Indices are not evaluated, so any two of them may meet. -/
  | index
deriving DecidableEq

/-- A storage location: a local and the projections taken from it. -/
structure Place where
  /-- The local variable. -/
  base : String
  /-- The projections, first one first. -/
  projections : List Projection := []
deriving DecidableEq

namespace Place

/-- The place one projection further on. -/
def project (place : Place) (step : Projection) : Place :=
  { place with projections := place.projections ++ [step] }

/-- What the place points to. -/
def deref (place : Place) : Place :=
  place.project .deref

/-- Whether the place is a whole local. -/
def isLocal (place : Place) : Bool :=
  place.projections.isEmpty

/-- Whether the way to the place leads through a reference. -/
def throughDeref (place : Place) : Bool :=
  place.projections.contains .deref

/-- The place after the first `n` projections. -/
def take (place : Place) (n : Nat) : Place :=
  { place with projections := place.projections.take n }

/-- The places on the way, from the local to the place itself. -/
def prefixes (place : Place) : List Place :=
  (List.range (place.projections.length + 1)).map place.take

/-- Two places may share storage when they start at the same local and the projections of one
begin with those of the other. -/
def overlaps (a b : Place) : Bool :=
  a.base == b.base &&
    (a.projections.isPrefixOf b.projections || b.projections.isPrefixOf a.projections)

/-- Overwriting `written` leaves alone what lies behind a reference stored there: it meets a
borrowed place unless that place goes on from `written` with a dereference. -/
def overwriteOverlaps (written borrowed : Place) : Bool :=
  written.overlaps borrowed && borrowed.projections[written.projections.length]? != some .deref

end Place

end RegionInference
