import RegionInference.PointSet

/-!
# Post-order

The nodes of a graph in the order in which a depth-first search leaves them. The search starts at
the entry and, once that is exhausted, at each node it has not seen, in the order of the numbers;
so every node is listed. A node is marked as seen when the search enters it.
-/

namespace RegionInference.Postorder

/-- What a stack of nodes, each with the successors still to be tried, has left to do. -/
def work (stack : List (Nat × List Nat)) : Nat :=
  stack.foldr (fun (_, untried) rest => untried.length + 1 + rest) 0

/-- Goes on with a search: the nodes left, last one first, and the nodes not seen. -/
def walk (next : Nat → List Nat) (stack : List (Nat × List Nat)) (unseen : PointSet)
    (left : List Nat) : List Nat × PointSet :=
  match stack with
  | [] => (left, unseen)
  | (node, []) :: stack => walk next stack unseen (node :: left)
  | (node, i :: untried) :: stack =>
    if _h : i ∈ unseen then
      walk next ((i, next i) :: (node, untried) :: stack) (unseen.erase i) left
    else walk next ((node, untried) :: stack) unseen left
termination_by (unseen.bits, work stack)
decreasing_by
  · exact Prod.Lex.right _ (by simp [work])
  · exact Prod.Lex.left _ _ (PointSet.bits_erase_lt _h)
  · exact Prod.Lex.right _ (by simp [work])

/-- Searches from a node unless it has been seen. -/
def visit (next : Nat → List Nat) (state : List Nat × PointSet) (node : Nat) :
    List Nat × PointSet :=
  if node ∈ state.2 then walk next [(node, next node)] (state.2.erase node) state.1 else state

/-- The nodes `0` to `count - 1` in post-order, the search starting at `entry`. -/
def list (next : Nat → List Nat) (count entry : Nat) : List Nat :=
  ((entry :: List.range count).foldl (visit next) ([], .below count)).1.reverse

end RegionInference.Postorder
