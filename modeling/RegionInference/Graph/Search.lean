import RegionInference.Graph.Basic

/-!
# Breadth-first search

A search visits the points level by level: first the sources, then the points one step away, and so
on, each level in increasing order. Each point is met from the first point of the level before that
leads to it. Shortest paths are read off the levels, from the end to the start.
-/

namespace RegionInference

/-- A visited point and the point it was met from; a source was met from none. -/
structure Visit where
  /-- The point. -/
  point : Nat
  /-- The point it was met from. -/
  parent : Option Nat
deriving DecidableEq

namespace Visit

/-- Puts a visit in its place in a level. -/
def insert (visit : Visit) : List Visit → List Visit
  | [] => [visit]
  | other :: level =>
    if visit.point ≤ other.point then visit :: other :: level else other :: insert visit level

end Visit

namespace Search

/-- Adds to a level the unseen ones of some points, met from `parent`. -/
def meet (parent : Nat) : List Nat → List Visit × PointSet → List Visit × PointSet
  | [], state => state
  | i :: points, (level, unseen) =>
    meet parent points
      (if i ∈ unseen then (Visit.insert ⟨i, some parent⟩ level, unseen.erase i)
        else (level, unseen))

/-- The level after a level, and the points that are then unseen. -/
def expand (next : Nat → List Nat) (frontier : List Visit) (unseen : PointSet) :
    List Visit × PointSet :=
  frontier.foldl (fun state visit => meet visit.point (next visit.point) state) ([], unseen)

/-- Meeting points of a set takes them out of it, so its number gets smaller if any is met. -/
theorem bits_meet (parent : Nat) (points : List Nat) (level : List Visit) (unseen : PointSet) :
    (meet parent points (level, unseen)).2.bits ≤ unseen.bits ∧
      ((meet parent points (level, unseen)).1 ≠ level →
        (meet parent points (level, unseen)).2.bits < unseen.bits) := by
  induction points generalizing level unseen with
  | nil => simp [meet]
  | cons i points ih =>
    simp only [meet]
    split
    · next h =>
      have hlt := PointSet.bits_erase_lt h
      have hle := (ih (Visit.insert ⟨i, some parent⟩ level) (unseen.erase i)).1
      exact ⟨by omega, fun _ => by omega⟩
    · exact ih level unseen

/-- The same for the successors of a whole frontier, met one after the other. -/
theorem bits_foldl_meet (next : Nat → List Nat) (frontier level : List Visit) (unseen : PointSet) :
    let result := frontier.foldl (fun state visit => meet visit.point (next visit.point) state)
      (level, unseen)
    result.2.bits ≤ unseen.bits ∧ (result.1 ≠ level → result.2.bits < unseen.bits) := by
  induction frontier generalizing level unseen with
  | nil => simp
  | cons visit frontier ih =>
    simp only [List.foldl_cons]
    have hmeet := bits_meet visit.point (next visit.point) level unseen
    generalize hstate : meet visit.point (next visit.point) (level, unseen) = state at hmeet
    obtain ⟨level', unseen'⟩ := state
    have hrest := ih level' unseen'
    refine ⟨Nat.le_trans hrest.1 hmeet.1, fun hne => ?_⟩
    by_cases hlevel : level' = level
    · subst hlevel
      exact Nat.lt_of_lt_of_le (hrest.2 hne) hmeet.1
    · exact Nat.lt_of_le_of_lt hrest.1 (hmeet.2 hlevel)

/-- A level that is not empty leaves fewer points unseen, which is why the search ends. -/
theorem bits_expand_lt {next : Nat → List Nat} {frontier : List Visit} {unseen : PointSet}
    (h : (expand next frontier unseen).1 ≠ []) :
    (expand next frontier unseen).2.bits < unseen.bits :=
  (bits_foldl_meet next frontier [] unseen).2 h

/-- The levels of a search, from a given level on. -/
def levelsFrom (next : Nat → List Nat) (frontier : List Visit) (unseen : PointSet) :
    List (List Visit) :=
  let found := expand next frontier unseen
  if _h : found.1 = [] then [frontier]
  else frontier :: levelsFrom next found.1 found.2
termination_by unseen.bits
decreasing_by exact bits_expand_lt _h

/-- The way to a point, read off the levels from its own back to the first. -/
def backtrack : List (List Visit) → Nat → List Nat
  | [], i => [i]
  | level :: earlier, i =>
    match (level.find? (·.point == i)).bind Visit.parent with
    | some parent => backtrack earlier parent ++ [i]
    | none => [i]

/-- The way to a point that some level holds; `earlier` are the levels before, last one first. -/
def pathTo? (target : Nat) (earlier : List (List Visit)) : List (List Visit) → Option (List Nat)
  | [] => none
  | level :: later =>
    if level.any (·.point == target) then some (backtrack (level :: earlier) target)
    else pathTo? target (level :: earlier) later

end Search

namespace Graph

/-- The levels of a search from some points through the points of `within`. The sources need not
be in `within`. -/
def levels (g : Graph) (sources : PointSet) (within : PointSet) : List (List Visit) :=
  if sources.isEmpty then []
  else
    Search.levelsFrom g.succ (sources.toList.map fun i => ⟨i, none⟩) (within.diff sources)

/-- The visits of a search with their distances from the sources, in the order in which they are
made. -/
def visits (g : Graph) (sources : PointSet) (within : PointSet) : List (Visit × Nat) :=
  (g.levels sources within).zipIdx.flatMap fun (level, distance) => level.map (·, distance)

/-- The visits of a search from numbers that may be counted from the end, with the numbers they were
met from and their distances. A source keeps the number it is given, so a point can be visited under
two numbers. -/
def visitsFrom (g : Graph) (sources : List Int) (within : PointSet) :
    Except Fault (List (Int × Option Int × Nat)) := do
  sources.forM fun i => discard (g.position i)
  let moved := PointSet.ofList (sources.map fun i : Int => (i + g.size).toNat)
  let next (i : Nat) : List Nat := (g.succ (i % g.size)).map (· + g.size)
  let unseen : PointSet := PointSet.diff ⟨within.bits <<< g.size⟩ moved
  let levels :=
    if moved.isEmpty then []
    else Search.levelsFrom next (moved.toList.map fun i => ⟨i, none⟩) unseen
  let number (i : Nat) : Int := i - g.size
  return levels.zipIdx.flatMap fun (level, distance) =>
    level.map fun visit => (number visit.point, visit.parent.map number, distance)

/-- The numbers along a shortest path between two points, all of it but the start in `within`. -/
def shortestPath? (g : Graph) (source target : Nat) (within : PointSet) : Option (List Nat) :=
  Search.pathTo? target [] (g.levels (.single source) within)

/-- A shortest path between two points, all of it but the start among the points of `within`. -/
def path (g : Graph) (source target : Point) (within : Option (List Point) := none) :
    Except Fault (Option (List Point)) := do
  let i ← g.index source
  let j ← g.index target
  let set ← match within with
    | some points => g.setOf points
    | none => .ok g.all
  return (g.shortestPath? i j set).map (·.filterMap g.pointAt?)

/-- A shortest path between two points, all of it but the start in a set that is listed once both
points are known. -/
def pathWithin (g : Graph) (source target : Point) (set : PointSet) :
    Except Fault (Option (List Point)) := do
  discard (g.index source)
  discard (g.index target)
  g.path source target (← g.pointsOf set)

end Graph

end RegionInference
