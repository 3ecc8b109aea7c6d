import RegionInference.Graph.Basic

/-!
# Dominance and kinds of edges

The blocks that every way to a block leads through. Each block starts with the set of all blocks,
the entry with itself alone; a sweep gives each other block what the sets of its predecessors have
in common, and itself. Sweeps are repeated as long as the sets shrink.

An edge to a block that dominates its source is a back edge.
-/

namespace RegionInference

namespace Dominance

/-- What the sets of the predecessors have in common. A block without predecessors leaves
nothing. -/
def common (dom : List PointSet) : List Nat → PointSet
  | [] => ∅
  | [i] => dom.getD i ∅
  | i :: preds => (dom.getD i ∅).inter (common dom preds)

/-- Computes the set of one block anew. The entry keeps its set. -/
def refine (preds : List (List Nat)) (entry : Nat) (dom : List PointSet) (i : Nat) :
    List PointSet :=
  if i = entry then dom
  else dom.set i ((common dom (preds.getD i [])).insert i)

/-- Computes the sets of all blocks anew, one after the other. -/
def sweep (preds : List (List Nat)) (entry : Nat) (dom : List PointSet) : List PointSet :=
  (List.range dom.length).foldl (refine preds entry) dom

/-- The size of all sets together, as a measure. -/
def total (dom : List PointSet) : Nat :=
  dom.foldr (fun set rest => set.bits + rest) 0

/-- Sweeps as long as the sets shrink. -/
def settle (preds : List (List Nat)) (entry : Nat) (dom : List PointSet) : List PointSet :=
  let swept := sweep preds entry dom
  if total swept < total dom then settle preds entry swept else dom
termination_by total dom

end Dominance

/-- What an edge between two blocks is. -/
inductive EdgeKind where
  /-- A plain jump. -/
  | goto
  /-- One case of a branch on a value. -/
  | switchCase
  /-- A jump back to a block that dominates its source. -/
  | backEdge
deriving DecidableEq

/-- The name of a kind of edge. -/
def EdgeKind.text : EdgeKind → String
  | .goto => "goto"
  | .switchCase => "switch-case"
  | .backEdge => "back-edge"

/-- An edge between two blocks. -/
structure Edge where
  /-- The block it leaves. -/
  source : String
  /-- The block it leads to. -/
  target : String
  /-- What it is. -/
  kind : EdgeKind

namespace Graph

/-- For each block the numbers of the blocks that jump to it. -/
def blockPreds (g : Graph) : List (List Nat) :=
  g.names.map fun name =>
    g.blocks.zipIdx.filterMap fun (block, i) => if name ∈ block.successors then some i else none

/-- For each block the set of the numbers of the blocks that dominate it. -/
def dominatorSets (g : Graph) : List PointSet :=
  let count := g.blocks.length
  let entry := (g.blockIndex? g.entry).getD 0
  Dominance.settle g.blockPreds entry
    ((List.replicate count (PointSet.below count)).set entry (.single entry))

/-- For each block, by name, the names of the blocks that dominate it. -/
def dominators (g : Graph) : List (String × NameSet) :=
  (g.names.zip g.dominatorSets).map fun (name, set) =>
    (name, .ofList (set.toList.filterMap fun i => g.names[i]?))

/-- The edges between blocks: those of each block once, in the order of its terminator. -/
def edges (g : Graph) : List Edge :=
  (g.blocks.zip g.dominatorSets).flatMap fun (block, dominators) =>
    block.successors.eraseDups.map fun target =>
      let back := (g.blockIndex? target).any (· ∈ dominators)
      { source := block.name, target
        kind :=
          if back then .backEdge else if block.terminator.isSwitch then .switchCase else .goto }

end Graph

end RegionInference
