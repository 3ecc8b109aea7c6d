import RegionInference.Fault.Basic
import RegionInference.Graph.Block
import RegionInference.NameSet

/-!
# Control-flow graphs

A graph is a list of blocks with different names, an entry among them, and jumps to its own blocks
only. The tables of points, elements, successors and predecessors are computed once, when the
graph is built; they are those of the layout of its blocks.
-/

namespace RegionInference

open Text

/-- A control-flow graph whose points are numbered from zero. -/
structure Graph where
  /-- The blocks, in the order of their numbering. -/
  blocks : List Block
  /-- The name of the block where control enters. -/
  entry : String
  /-- No two blocks have one name. -/
  names_nodup : (Layout.names blocks).Nodup
  /-- The entry is a block of the graph. -/
  entry_mem : entry ∈ Layout.names blocks
  /-- Every jump leads to a block of the graph. -/
  targets_mem : ∀ block ∈ blocks, ∀ target ∈ block.successors, target ∈ Layout.names blocks
  /-- The points by number. -/
  pointTable : Array Point
  /-- What stands at the points, by number. -/
  elementTable : Array Element
  /-- The points that may follow, by number. -/
  succTable : Array (List Nat)
  /-- The points that may come before, by number. -/
  predTable : Array (List Nat)
  /-- The points are those of the layout. -/
  pointTable_eq : pointTable.toList = Layout.points blocks
  /-- The elements are those of the layout. -/
  elementTable_eq : elementTable.toList = Layout.elements blocks
  /-- The successors are those of the layout. -/
  succTable_eq : succTable.toList = Layout.successors blocks 0 blocks
  /-- The predecessors are those of the layout. -/
  predTable_eq : predTable.toList = Layout.predecessors (Layout.successors blocks 0 blocks)

namespace Graph

/-! ### Building -/

/-- The graph of well-formed blocks, with its tables. -/
def build (blocks : List Block) (entry : String) (names_nodup : (Layout.names blocks).Nodup)
    (entry_mem : entry ∈ Layout.names blocks)
    (targets_mem : ∀ block ∈ blocks, ∀ target ∈ block.successors, target ∈ Layout.names blocks) :
    Graph :=
  let successors := Layout.successors blocks 0 blocks
  { blocks, entry, names_nodup, entry_mem, targets_mem
    pointTable := (Layout.points blocks).toArray
    elementTable := (Layout.elements blocks).toArray
    succTable := successors.toArray
    predTable := (Layout.predecessors successors).toArray
    pointTable_eq := rfl
    elementTable_eq := rfl
    succTable_eq := rfl
    predTable_eq := rfl }

/-- The graph of some blocks, entered at a named block or else at the first one. -/
def ofBlocks (blocks : List Block) (chosen : Option String := none) : Except Fault Graph :=
  match blocks with
  | [] => .error .noBlocks
  | first :: rest =>
    let blocks := first :: rest
    let entry := chosen.getD first.name
    match hdup : repeatedName? [] (Layout.names blocks) with
    | some block => .error (.duplicateBlock block)
    | none =>
      if hentry : entry ∈ Layout.names blocks then
        match htarget : Layout.unknownTarget? blocks with
        | some (block, target) => .error (.unknownTarget block target)
        | none =>
          .ok (build blocks entry (nodup_of_repeatedName? hdup).1 hentry
            (Layout.targets_known htarget))
      else .error (.unknownEntry entry)

/-! ### Numbering -/

/-- How many points there are. -/
def size (g : Graph) : Nat :=
  g.pointTable.size

/-- All points, in the order of their numbers. -/
def points (g : Graph) : List Point :=
  g.pointTable.toList

/-- The set of all points. -/
def all (g : Graph) : PointSet :=
  .below g.size

/-- The first point that is reached. -/
def entryPoint (g : Graph) : Point :=
  ⟨g.entry, 0⟩

/-- The number of a point of the graph. -/
def index? (g : Graph) (point : Point) : Option Nat :=
  Layout.index? point g.blocks

/-- The number of a point, which has to be one of the graph. -/
def index (g : Graph) (point : Point) : Except Fault Nat :=
  match g.index? point with
  | some i => .ok i
  | none => .error (.unknownPoint point)

/-- Whether the point is one of the graph. -/
def contains (g : Graph) (point : Point) : Bool :=
  (g.index? point).isSome

/-- The point with a number. -/
def pointAt? (g : Graph) (i : Nat) : Option Point :=
  g.pointTable[i]?

/-- The point with a number, which has to be one of the graph. -/
def pointAt (g : Graph) (i : Int) : Except Fault Point :=
  match if 0 ≤ i then g.pointAt? i.toNat else none with
  | some point => .ok point
  | none => .error (.indexOutOfRange i)

/-- The set of some points, which have to be points of the graph. -/
def setOf (g : Graph) (points : List Point) : Except Fault PointSet :=
  points.foldlM (fun set point => (g.index point).map set.insert) ∅

/-- The point with a number of a set, which has to be a number of the graph. -/
def listedAt (g : Graph) (i : Nat) : Except Fault Point :=
  match g.pointAt? i with
  | some point => .ok point
  | none => .error (.strayIndex i)

/-- The points of a set, in the order of their numbers. -/
def pointsOf (g : Graph) (set : PointSet) : Except Fault (List Point) :=
  set.toList.mapM g.listedAt

/-- What stands at the point with a number. -/
def elementAt? (g : Graph) (i : Nat) : Option Element :=
  g.elementTable[i]?

/-- What stands at a point, which has to be one of the graph. -/
def element (g : Graph) (point : Point) : Except Fault Element :=
  match (g.index? point).bind g.elementAt? with
  | some element => .ok element
  | none => .error (.unknownPoint point)

/-- The points with what stands there, in the order of their numbers. -/
def items (g : Graph) : List (Point × Element) :=
  g.points.zip g.elementTable.toList

/-! ### Steps between points -/

/-- The numbers of the points that may follow, in increasing order. -/
def succ (g : Graph) (i : Nat) : List Nat :=
  g.succTable[i]?.getD []

/-- The numbers of the points that may come before, in increasing order. -/
def pred (g : Graph) (i : Nat) : List Nat :=
  g.predTable[i]?.getD []

/-- A number of a point that may be counted from the end, as `-1` for the last one. -/
def position (g : Graph) (i : Int) : Except Fault Nat :=
  let counted := if i < 0 then i + g.size else i
  if 0 ≤ counted ∧ counted < g.size then .ok counted.toNat else .error (.strayIndex i)

/-- The numbers that may follow a number that may be counted from the end. -/
def succAt (g : Graph) (i : Int) : Except Fault (List Nat) :=
  (g.position i).map g.succ

/-- The numbers that may come before a number that may be counted from the end. -/
def predAt (g : Graph) (i : Int) : Except Fault (List Nat) :=
  (g.position i).map g.pred

/-- The points that may follow, in the order of their numbers. -/
def successors (g : Graph) (point : Point) : Except Fault (List Point) :=
  (g.index point).map fun i => (g.succ i).filterMap g.pointAt?

/-- The points that may come before, in the order of their numbers. -/
def predecessors (g : Graph) (point : Point) : Except Fault (List Point) :=
  (g.index point).map fun i => (g.pred i).filterMap g.pointAt?

/-! ### Blocks -/

/-- The names of the blocks. -/
def names (g : Graph) : List String :=
  Layout.names g.blocks

/-- The block of that name. -/
def block? (g : Graph) (name : String) : Option Block :=
  g.blocks.find? (·.name == name)

/-- The block of that name, which has to be there. -/
def block (g : Graph) (name : String) : Except Fault Block :=
  match g.block? name with
  | some block => .ok block
  | none => .error (.missingBlock name)

/-- The number of the block of that name. -/
def blockIndex? (g : Graph) (name : String) : Option Nat :=
  g.blocks.findIdx? (·.name == name)

/-- The names of the blocks that jump to a block. -/
def blockPredecessors (g : Graph) (name : String) : List String :=
  (g.blocks.filter (name ∈ ·.successors)).map Block.name

/-- For each block the numbers of the blocks that may follow, each once, in the order of the
terminator. -/
def blockSuccessors (g : Graph) : List (List Nat) :=
  g.blocks.map fun block => block.successors.eraseDups.filterMap g.blockIndex?

/-- The terminators that lead nowhere. -/
def exits (g : Graph) : List Point :=
  (g.blocks.filter (·.successors.isEmpty)).map fun block => ⟨block.name, block.statements.length⟩

/-- A short description of the graph. -/
def summary (g : Graph) : String :=
  s!"ControlFlowGraph(blocks={g.blocks.length}, points={g.size}, entry={quote g.entry})"

end Graph

end RegionInference
