import RegionInference.Point
import RegionInference.PointSet
import RegionInference.Statement

/-!
# Blocks and their layout

A block is a list of statements with a terminator. Its statements and its terminator are its
points, in that order. A list of blocks is laid out block after block, and the points are numbered
through: the number of a point is the number of points of the blocks before its own, plus its
position.
-/

namespace RegionInference

open Text

/-- A basic block. -/
structure Block where
  /-- The name. -/
  name : String
  /-- The statements; statement `i` stands at position `i`. -/
  statements : List Statement := []
  /-- The terminator; it stands behind the statements. -/
  terminator : Terminator := .ret

namespace Block

/-- How many points the block has. -/
def size (block : Block) : Nat :=
  block.statements.length + 1

/-- What stands at the points of the block. -/
def elements (block : Block) : List Element :=
  block.statements.map .stmt ++ [.term block.terminator]

/-- The points of the block. -/
def points (block : Block) : List Point :=
  (List.range block.size).map fun (i : Nat) => ⟨block.name, i⟩

/-- The names of the blocks that may follow, as the terminator lists them. -/
def successors (block : Block) : List String :=
  block.terminator.targets

/-- The lines that show the elements with their positions. -/
def rows (block : Block) : List String :=
  (block.elements.zipIdx).map fun (element, i) => s!"{i}: {element.text}"

/-- The elements with their positions, one a line. -/
def label (block : Block) : String :=
  "\n".intercalate block.rows

/-- A short description of the block. -/
def summary (block : Block) : String :=
  s!"BasicBlock({quote block.name}, nstmts={block.statements.length})"

end Block

namespace Layout

/-- The names of the blocks. -/
def names (blocks : List Block) : List String :=
  blocks.map Block.name

/-- All points, in the order of their numbers. -/
def points (blocks : List Block) : List Point :=
  blocks.flatMap Block.points

/-- What stands at the points, in the order of their numbers. -/
def elements (blocks : List Block) : List Element :=
  blocks.flatMap Block.elements

/-- The number of the first point of a block. -/
def start? (name : String) : List Block → Option Nat
  | [] => none
  | block :: blocks =>
    if block.name = name then some 0 else (start? name blocks).map (block.size + ·)

/-- The number of a point. -/
def index? (point : Point) : List Block → Option Nat
  | [] => none
  | block :: blocks =>
    if block.name = point.block then
      if 0 ≤ point.index ∧ point.index < block.size then some point.index.toNat else none
    else (index? point blocks).map (block.size + ·)

/-- The numbers of the first points of some blocks, each once and in increasing order. -/
def starts (blocks : List Block) (names : List String) : List Nat :=
  (PointSet.ofList (names.filterMap (start? · blocks))).toList

/-- For each point of some of the blocks, which are numbered from `first` on, the numbers of the
points that may follow it: after a statement the next point, after a terminator the first points
of its targets. -/
def successors (all : List Block) (first : Nat) : List Block → List (List Nat)
  | [] => []
  | block :: blocks =>
    (List.range block.statements.length).map (fun i => [first + i + 1]) ++
      starts all block.successors :: successors all (first + block.size) blocks

/-- The rows with a number at the end of those of some points. -/
def noteIn (rows : List (List Nat)) (points : List Nat) (i : Nat) : List (List Nat) :=
  points.foldl (fun rows s => rows.modify s (· ++ [i])) rows

/-- For each point the numbers of the points it may follow. All rows start empty, and each point in
turn is noted in the rows of the points that may follow it. -/
def predecessors (successors : List (List Nat)) : List (List Nat) :=
  successors.zipIdx.foldl (fun rows row => noteIn rows row.1 row.2)
    (List.replicate successors.length [])

/-- The first jump to a block that is not there: the block with the jump and the target. -/
def unknownTarget? (blocks : List Block) : Option (String × String) :=
  blocks.findSome? fun block =>
    (block.successors.find? (· ∉ names blocks)).map fun target => (block.name, target)

/-- Where no jump leads to a missing block, all targets are blocks. -/
theorem targets_known {blocks : List Block} (h : unknownTarget? blocks = none) :
    ∀ block ∈ blocks, ∀ target ∈ block.successors, target ∈ names blocks := by
  intro block hblock target htarget
  have := List.findSome?_eq_none_iff.1 h block hblock
  simp only [Option.map_eq_none_iff, List.find?_eq_none, decide_eq_true_eq,
    Decidable.not_not] at this
  exact this target htarget

end Layout

end RegionInference
