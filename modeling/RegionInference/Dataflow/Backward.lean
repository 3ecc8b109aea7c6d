import RegionInference.Dataflow.Lattice
import RegionInference.Dataflow.Postorder
import RegionInference.Graph.Dominance
import RegionInference.Worklist

/-!
# Backward dataflow analysis

Facts flow against the direction of control: the fact at the end of a block is the join of the
facts at the starts of its successors (and of the initial fact where there are none), and the fact
at its start comes from that by a transfer function. A worklist of blocks is processed one block an
iteration until it is empty or the iterations are used up; a block whose fact at the start changes
puts its predecessors on the list.
-/

namespace RegionInference

/-- In which order the blocks are processed. -/
inductive Order where
  /-- In declaration order, first in first out. -/
  | fifo
  /-- In declaration order, last in first out. -/
  | lifo
  /-- Entry first. -/
  | reversePostorder
  /-- Exits first: the usual order against the direction of control. -/
  | postorder
deriving DecidableEq

namespace Order

/-- All orders. -/
def all : List Order :=
  [.fifo, .lifo, .reversePostorder, .postorder]

/-- The short name of an order. -/
def text : Order → String
  | .fifo => "fifo"
  | .lifo => "lifo"
  | .reversePostorder => "rpo"
  | .postorder => "po"

/-- The order with a short name. -/
def ofText? (text : String) : Option Order :=
  all.find? (·.text == text)

/-- The order with a short name, which has to be one. -/
def parse (text : String) : Except Fault Order :=
  match ofText? text with
  | some order => .ok order
  | none => .error (.badOrder text)

/-- The next node of a worklist, and the rest of the list. -/
def take? (order : Order) (work : List Nat) : Option (Nat × List Nat) :=
  match order, work with
  | _, [] => none
  | .lifo, node :: work => some ((node :: work).getLast (by simp), (node :: work).dropLast)
  | _, node :: work => some (node, work)

end Order

/-- A backward analysis over numbered nodes. -/
structure Backward (α : Type) where
  /-- The lattice of facts. -/
  lattice : Lattice α
  /-- For each node the nodes that may follow, each once. -/
  successors : List (List Nat)
  /-- For each node the nodes it may follow, each once. -/
  predecessors : List (List Nat)
  /-- The node where control enters. -/
  entry : Nat
  /-- From the fact at the end of a node to the fact at its start. -/
  transfer : Nat → α → α
  /-- The fact at the end of nodes that nothing follows. -/
  initial : α

namespace Backward

/-- How far an analysis is. -/
structure State (α : Type) where
  /-- The facts at the ends of the nodes. -/
  ends : List α
  /-- The facts at the starts of the nodes. -/
  starts : List α
  /-- The nodes that have been processed. -/
  visited : PointSet := ∅
  /-- The nodes to process. -/
  work : List Nat
  /-- How many iterations were made. -/
  iterations : Nat := 0

/-- Whether nothing is left to process. -/
def State.converged (state : State α) : Bool :=
  state.work.isEmpty

/-- The nodes that may follow a node. -/
def next (analysis : Backward α) (node : Nat) : List Nat :=
  analysis.successors.getD node []

/-- The nodes a node may follow. -/
def previous (analysis : Backward α) (node : Nat) : List Nat :=
  analysis.predecessors.getD node []

/-- The order in which the nodes are listed at first. -/
def initialWork (analysis : Backward α) (order : Order) : List Nat :=
  let count := analysis.successors.length
  match order with
  | .postorder => Postorder.list analysis.next count analysis.entry
  | .reversePostorder => (Postorder.list analysis.next count analysis.entry).reverse
  | .fifo => List.range count
  | .lifo => List.range count

/-- Where the analysis starts: least facts everywhere, all nodes to process. -/
def start (analysis : Backward α) (order : Order) : State α :=
  let bottoms := analysis.successors.map fun _ => analysis.lattice.bottom
  { ends := bottoms, starts := bottoms, work := analysis.initialWork order }

/-- The fact at the end of a node, from the facts at the starts of the nodes that may follow. -/
def endFact (analysis : Backward α) (starts : List α) (node : Nat) : α :=
  let lattice := analysis.lattice
  let merged := lattice.joinAll ((analysis.next node).map (starts.getD · lattice.bottom))
  if (analysis.next node).isEmpty then lattice.join merged analysis.initial else merged

/-- Processes one node, which has been taken off the list. -/
def process (analysis : Backward α) (state : State α) (node : Nat) (work : List Nat) : State α :=
  let lattice := analysis.lattice
  let ending := analysis.endFact state.starts node
  let starting := analysis.transfer node ending
  let state := { state with
    ends := state.ends.set node ending, work, iterations := state.iterations + 1 }
  if node ∈ state.visited ∧ lattice.eq starting (state.starts.getD node lattice.bottom) = true then
    state
  else
    { state with
      visited := state.visited.insert node
      starts := state.starts.set node starting
      work := enqueue work (analysis.previous node) }

/-- Processes nodes until none is left, at most as many as the budget allows. -/
def iterate (analysis : Backward α) (order : Order) : Nat → State α → State α
  | 0, state => state
  | budget + 1, state =>
    match order.take? state.work with
    | none => state
    | some (node, work) => analysis.iterate order budget (analysis.process state node work)

/-- How many iterations suffice if the fact at the start of a node changes at most `changes` times:
each change puts the predecessors of the node on the list, which holds every node at first. -/
def ample (analysis : Backward α) (changes : Nat) : Nat :=
  analysis.successors.length +
    (changes + 1) * analysis.predecessors.foldl (fun edges nodes => edges + nodes.length) 0

/-- Runs the analysis with at most `limit` iterations. -/
def run (analysis : Backward α) (order : Order) (limit : Nat) : State α :=
  analysis.iterate order limit (analysis.start order)

/-- Runs the analysis while its iterations are below a bound. A fact at the start of a node is taken
to change at most `changes` times. -/
def runBelow (analysis : Backward α) (order : Order) (bound : Bound) (changes : Nat) :
    Except Fault (State α) :=
  match bound.allowance with
  | .rounds limit => .ok (analysis.run order limit)
  | .unlimited => .ok (analysis.run order (analysis.ample changes))
  | .unknown => .error .incomparableLimit

/-- The analysis over the blocks of a graph, with a transfer function for blocks. -/
def ofGraph (g : Graph) (lattice : Lattice α) (transfer : Block → α → α)
    (initial : α) : Backward α where
  lattice := lattice
  successors := g.blockSuccessors
  predecessors := g.blockPreds
  entry := (g.blockIndex? g.entry).getD 0
  transfer node fact :=
    match g.blocks[node]? with
    | some block => transfer block fact
    | none => fact
  initial := initial

end Backward

/-- The default limit on iterations. -/
def defaultIterationLimit : Int := 1000000

end RegionInference
