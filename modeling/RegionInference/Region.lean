import RegionInference.Graph.Basic

/-!
# Regions

A region is a set of points together with the graph they belong to. Regions grow and never shrink,
and every growth tells whether a point was added. A region may be given by numbers that are none of
its graph's points; such a region cannot be listed.
-/

namespace RegionInference

/-- A set of points of a graph. -/
structure Region where
  /-- The graph. -/
  graph : Graph
  /-- The numbers of the points. -/
  set : PointSet := ∅

namespace Region

/-- The region of all points of a graph. -/
def whole (g : Graph) : Region where
  graph := g
  set := g.all

/-- The region of some points, which have to be points of the graph. -/
def ofPoints (g : Graph) (points : List Point) : Except Fault Region :=
  (g.setOf points).map fun set => ⟨g, set⟩

/-- The points, in the order of their numbers. -/
def points (region : Region) : Except Fault (List Point) :=
  region.graph.pointsOf region.set

/-- The printed form: the points in braces. -/
def text (region : Region) : Except Fault String :=
  region.points.map fun points => "\x7b" ++ ", ".intercalate (points.map Point.text) ++ "\x7d"

/-- Whether a point belongs to the region. -/
def contains (region : Region) (point : Point) : Bool :=
  (region.graph.index? point).any (· ∈ region.set)

/-- Whether a number belongs to the region. -/
def containsIndex (region : Region) (i : Int) : Except Fault Bool :=
  if i < 0 then .error .negativeIndex else .ok (i.toNat ∈ region.set)

/-- The region with more numbers, and whether one of them is new. -/
def grow (region : Region) (set : PointSet) : Region × Bool :=
  let grown := region.set.union set
  if grown = region.set then (region, false) else ({ region with set := grown }, true)

/-- The region with one more point, which has to be a point of the graph, and whether it is new. -/
def insert (region : Region) (point : Point) : Except Fault (Region × Bool) :=
  (region.graph.index point).map fun i => region.grow (.single i)

/-- The region with the numbers of another one, and whether one of them is new. -/
def union (region other : Region) : Region × Bool :=
  region.grow other.set

/-- Whether all points of a region belong to another one. -/
def subset (region other : Region) : Bool :=
  region.set.subset other.set

/-- Whether two regions are equal: they are of one graph and have the same numbers. Graphs that were
built apart are two graphs even if their blocks are equal, so it is told whether they are one. -/
def equals (region other : Region) (oneGraph : Bool) : Bool :=
  oneGraph && region.set = other.set

/-- Whether the points of a region are those of a list. -/
def isMadeOf (region : Region) (points : List Point) : Except Fault Bool :=
  region.points.map fun own => points.all own.contains && own.all points.contains

end Region

end RegionInference
