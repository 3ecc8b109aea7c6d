import Mathlib.Logic.Relation
import RegionInference.Proofs.Dataflow

/-!
# The order in which a search leaves the blocks

The search keeps a stack, but does what the usual recursion does (`Postorder.explores_list`): a node
is left when all has been explored that may follow it.

What may follow a node that is left has been seen. It is then left already, or still on the stack;
and a node on the stack leads to every node above it. So each node is left after the nodes that may
follow it, but for those that lead back to it (`Postorder.Ordered`). The invariant that carries this
through a search, from all its starts, is `Postorder.Searching`: one lemma for each thing a search
can do (`Searching.leave`, `Searching.enter`, `Searching.skip`), and from them what a whole search
keeps. The blocks of a graph are such nodes (`Graph.idxOf_postorder_lt`).
-/

namespace RegionInference

namespace Postorder

variable {next : Nat → List Nat} {count : Nat} {stack : List (Nat × List Nat)} {unseen : PointSet}
  {left : List Nat} {node i : Nat} {untried : List Nat}

/-- Control may get from a node to another one. -/
def Reaches (next : Nat → List Nat) : Nat → Nat → Prop :=
  Relation.ReflTransGen fun a b => b ∈ next a

/-- Nodes that have been left, last one first, are in order: what may follow a node was left before
it, or leads back to it. -/
def Ordered (next : Nat → List Nat) : List Nat → Prop
  | [] => True
  | node :: left => (∀ i ∈ next node, i ∈ left ∨ Reaches next i node) ∧ Ordered next left

/-- What is said of the first of some nodes in order holds of each of them. -/
theorem Ordered.at {later earlier : List Nat} (h : Ordered next (later ++ node :: earlier)) :
    ∀ i ∈ next node, i ∈ earlier ∨ Reaches next i node := by
  induction later with
  | nil => exact h.1
  | cons last later ih => exact ih h.2

/-! ### The search as a recursion -/

/-- Depth-first search as a recursion: nodes are tried in turn. One that has been seen is passed
over; of another one, first all is explored that may follow it, and then the node is left. The nodes
are listed in the order in which they are left, and what is unseen at the end is returned. -/
inductive Explores (next : Nat → List Nat) :
    List Nat → PointSet → List Nat → PointSet → Prop where
  /-- There is nothing to try. -/
  | nil {unseen : PointSet} : Explores next [] unseen [] unseen
  /-- The first node has been seen. -/
  | seen {i : Nat} {nodes order : List Nat} {unseen rest : PointSet} :
      i ∉ unseen → Explores next nodes unseen order rest →
      Explores next (i :: nodes) unseen order rest
  /-- The first node is new. -/
  | new {i : Nat} {nodes below order : List Nat} {unseen between rest : PointSet} :
      i ∈ unseen → Explores next (next i) (unseen.erase i) below between →
      Explores next nodes between order rest →
      Explores next (i :: nodes) unseen (below ++ i :: order) rest

/-- What a stack still has to do, as a recursion: for each of its nodes, from the top, to explore
what is still to be tried and then to leave the node. -/
inductive Unwinds (next : Nat → List Nat) :
    List (Nat × List Nat) → PointSet → List Nat → PointSet → Prop where
  /-- The stack is empty. -/
  | nil {unseen : PointSet} : Unwinds next [] unseen [] unseen
  /-- The node on top, and then the others. -/
  | cons {node : Nat} {untried below order : List Nat} {stack : List (Nat × List Nat)}
      {unseen between rest : PointSet} :
      Explores next untried unseen below between → Unwinds next stack between order rest →
      Unwinds next ((node, untried) :: stack) unseen (below ++ node :: order) rest

/-- The search with a stack does what the recursion does. -/
theorem exists_unwinds (next : Nat → List Nat) (stack : List (Nat × List Nat)) (unseen : PointSet)
    (left : List Nat) :
    ∃ order, (walk next stack unseen left).1 = order.reverse ++ left ∧
      Unwinds next stack unseen order (walk next stack unseen left).2 := by
  fun_induction walk next stack unseen left with
  | case1 unseen left => exact ⟨[], rfl, .nil⟩
  | case2 unseen left node stack ih =>
    obtain ⟨order, hleft, hunwinds⟩ := ih
    exact ⟨node :: order, by simp [hleft], .cons .nil hunwinds⟩
  | case3 unseen left node i untried stack hi ih =>
    obtain ⟨_, hleft, hunwinds⟩ := ih
    -- the entered node is on top, and below it the node from which it was entered
    cases hunwinds with
    | cons hbelow hunwinds =>
      cases hunwinds with
      | cons hrest hunwinds =>
        exact ⟨_, by simp [hleft], .cons (.new hi hbelow hrest) hunwinds⟩
  | case4 unseen left node i untried stack hi ih =>
    obtain ⟨_, hleft, hunwinds⟩ := ih
    cases hunwinds with
    | cons hrest hunwinds => exact ⟨_, hleft, .cons (.seen hi hrest) hunwinds⟩

/-- Searches from some nodes in turn do what the recursion does. -/
theorem exists_explores (next : Nat → List Nat) (nodes : List Nat) (state : List Nat × PointSet) :
    ∃ order, (nodes.foldl (visit next) state).1 = order.reverse ++ state.1 ∧
      Explores next nodes state.2 order (nodes.foldl (visit next) state).2 := by
  induction nodes generalizing state with
  | nil => exact ⟨[], rfl, .nil⟩
  | cons node nodes ih =>
    obtain ⟨order, hleft, hexplores⟩ := ih (visit next state node)
    rw [List.foldl_cons, hleft]
    by_cases hnode : node ∈ state.2
    · obtain ⟨_, hwalk, hunwinds⟩ :=
        exists_unwinds next [(node, next node)] (state.2.erase node) state.1
      have hvisit : visit next state node =
          walk next [(node, next node)] (state.2.erase node) state.1 := if_pos hnode
      rw [← hvisit] at hwalk hunwinds
      cases hunwinds with
      | cons hbelow hunwinds =>
        cases hunwinds
        exact ⟨_, by simp [hwalk], .new hnode hbelow hexplores⟩
    · have hvisit : visit next state node = state := if_neg hnode
      rw [hvisit] at hexplores ⊢
      exact ⟨order, rfl, .seen hnode hexplores⟩

/-- The post-order is the order of the recursion from the entry, and then from all nodes. -/
theorem explores_list (next : Nat → List Nat) (count entry : Nat) :
    ∃ rest, Explores next (entry :: List.range count) (.below count) (list next count entry)
      rest := by
  obtain ⟨order, hleft, hexplores⟩ :=
    exists_explores next (entry :: List.range count) ([], .below count)
  have hlist : list next count entry = order := by
    rw [list, hleft, List.append_nil, List.reverse_reverse]
  rw [hlist]
  exact ⟨_, hexplores⟩

/-! ### What a search keeps -/

/-- How far a search is: the nodes on its stack, those it has not seen, and those it has left, last
one first. -/
structure Searching (next : Nat → List Nat) (count : Nat) (stack : List (Nat × List Nat))
    (unseen : PointSet) (left : List Nat) : Prop where
  /-- No node is twice on the stack or among those left. -/
  nodup : (stack.map Prod.fst ++ left).Nodup
  /-- What is on the stack or left has been seen. -/
  fresh : ∀ i ∈ stack.map Prod.fst ++ left, i ∉ unseen
  /-- What has been seen is on the stack or left. -/
  seen : ∀ i < count, i ∈ unseen ∨ i ∈ stack.map Prod.fst ++ left
  /-- A node on the stack leads to all nodes above it. -/
  path : (stack.map Prod.fst).Pairwise fun above below => Reaches next below above
  /-- What is still to be tried of a node on the stack may follow the node, -/
  untried : ∀ frame ∈ stack, ∀ i ∈ frame.2, i ∈ next frame.1
  /-- and the rest of what may follow it has been seen. -/
  tried : ∀ frame ∈ stack, ∀ i ∈ next frame.1, i ∈ frame.2 ∨ i ∉ unseen
  /-- The nodes that have been left are in order. -/
  ordered : Ordered next left

namespace Searching

/-- The node on top of the stack is left. What may follow it has been seen: if it is not among the
nodes left before, it is on the stack, the node itself or below it. -/
theorem leave (hnext : ∀ i ∈ next node, i < count)
    (h : Searching next count ((node, []) :: stack) unseen left) :
    Searching next count stack unseen (node :: left) where
  nodup := by
    have hnodup := h.nodup
    rw [List.map_cons, List.cons_append] at hnodup
    exact List.perm_middle.nodup_iff.2 hnodup
  fresh j hj := h.fresh j (by simpa [or_left_comm] using hj)
  seen j hj := (h.seen j hj).imp_right fun hmem => by simpa [or_left_comm] using hmem
  path := (List.pairwise_cons.1 h.path).2
  untried frame hframe := h.untried frame (List.mem_cons_of_mem _ hframe)
  tried frame hframe := h.tried frame (List.mem_cons_of_mem _ hframe)
  ordered := by
    refine ⟨fun j hj => ?_, h.ordered⟩
    have hseen : j ∉ unseen := (h.tried _ List.mem_cons_self j hj).resolve_left List.not_mem_nil
    have hmem := (h.seen j (hnext j hj)).resolve_left hseen
    rw [List.map_cons, List.cons_append, List.mem_cons, List.mem_append] at hmem
    rcases hmem with rfl | hbelow | hleft
    · exact .inr .refl
    · exact .inr ((List.pairwise_cons.1 h.path).1 j hbelow)
    · exact .inl hleft

/-- A node that has not been seen, and to which all nodes of the stack lead, is put on top. -/
theorem push (hi : i ∈ unseen) (hpath : ∀ j ∈ stack.map Prod.fst, Reaches next j i)
    (h : Searching next count stack unseen left) :
    Searching next count ((i, next i) :: stack) (unseen.erase i) left where
  nodup := List.nodup_cons.2 ⟨fun hmem => h.fresh i hmem hi, h.nodup⟩
  fresh j hj := by
    rw [PointSet.mem_erase, not_and_not_right]
    intro hunseen
    exact (List.mem_cons.1 hj).resolve_right fun hold => h.fresh j hold hunseen
  seen j hj := by
    by_cases hji : j = i
    · exact .inr (hji ▸ List.mem_cons_self)
    · refine (h.seen j hj).imp (fun hunseen => PointSet.mem_erase.2 ⟨hunseen, hji⟩) ?_
      exact List.mem_cons_of_mem _
  path := List.pairwise_cons.2 ⟨hpath, h.path⟩
  untried frame hframe j hj := by
    rcases List.mem_cons.1 hframe with rfl | hbelow
    · exact hj
    · exact h.untried frame hbelow j hj
  tried frame hframe j hj := by
    rcases List.mem_cons.1 hframe with rfl | hbelow
    · exact .inl hj
    · exact (h.tried frame hbelow j hj).imp_right fun hseen hmem =>
        hseen (PointSet.mem_erase.1 hmem).1
  ordered := h.ordered

/-- A node that has been seen need not be tried any more, wherever on the stack it was to be. -/
theorem skip (above : List (Nat × List Nat)) (hi : i ∉ unseen)
    (h : Searching next count (above ++ (node, i :: untried) :: stack) unseen left) :
    Searching next count (above ++ (node, untried) :: stack) unseen left := by
  have hnodes : (above ++ (node, untried) :: stack).map Prod.fst =
      (above ++ (node, i :: untried) :: stack).map Prod.fst := by simp
  have hmiddle : (node, i :: untried) ∈ above ++ (node, i :: untried) :: stack := by simp
  have hframes : ∀ frame ∈ above ++ (node, untried) :: stack, frame = (node, untried) ∨
      frame ∈ above ++ (node, i :: untried) :: stack := by
    intro frame hframe
    simp only [List.mem_append, List.mem_cons] at hframe ⊢
    rcases hframe with habove | rfl | hbelow
    · exact .inr (.inl habove)
    · exact .inl rfl
    · exact .inr (.inr (.inr hbelow))
  refine ⟨hnodes ▸ h.nodup, hnodes ▸ h.fresh, hnodes ▸ h.seen, hnodes ▸ h.path, ?_, ?_, h.ordered⟩
  · intro frame hframe j hj
    rcases hframes frame hframe with rfl | hold
    · exact h.untried _ hmiddle j (List.mem_cons_of_mem _ hj)
    · exact h.untried frame hold j hj
  · intro frame hframe j hj
    rcases hframes frame hframe with rfl | hold
    · rcases h.tried _ hmiddle j hj with huntried | hseen
      · refine (List.mem_cons.1 huntried).symm.imp_right ?_
        rintro rfl
        exact hi
      · exact .inr hseen
    · exact h.tried frame hold j hj

/-- A node that may follow the one on top, and has not been seen, is put on top of it. -/
theorem enter (hi : i ∈ unseen)
    (h : Searching next count ((node, i :: untried) :: stack) unseen left) :
    Searching next count ((i, next i) :: (node, untried) :: stack) (unseen.erase i) left := by
  have hstep : Reaches next node i :=
    .single (h.untried _ List.mem_cons_self i List.mem_cons_self)
  have hpath : ∀ j ∈ ((node, i :: untried) :: stack).map Prod.fst, Reaches next j i := by
    intro j hj
    rcases List.mem_cons.1 hj with rfl | hbelow
    · exact hstep
    · exact ((List.pairwise_cons.1 h.path).1 j hbelow).trans hstep
  exact (h.push hi hpath).skip [(i, next i)] (by simp)

/-- A search from its stack to its end. -/
theorem walk (hnext : ∀ node, ∀ i ∈ next node, i < count)
    (h : Searching next count stack unseen left) :
    Searching next count [] (walk next stack unseen left).2 (walk next stack unseen left).1 := by
  fun_induction Postorder.walk next stack unseen left with
  | case1 unseen left => exact h
  | case2 unseen left node stack ih => exact ih (h.leave (hnext node))
  | case3 unseen left node i untried stack hi ih => exact ih (h.enter hi)
  | case4 unseen left node i untried stack hi ih => exact ih (h.skip [] hi)

/-- Starting a search at a node keeps the invariant of searching. -/
theorem visit (hnext : ∀ node, ∀ i ∈ next node, i < count) {state : List Nat × PointSet}
    (h : Searching next count [] state.2 state.1) (node : Nat) :
    Searching next count [] (visit next state node).2 (visit next state node).1 := by
  unfold Postorder.visit
  split
  · next hnode => exact (h.push hnode (by simp)).walk hnext
  · exact h

/-- So does starting searches at nodes in turn. -/
theorem foldl_visit (hnext : ∀ node, ∀ i ∈ next node, i < count) (nodes : List Nat)
    {state : List Nat × PointSet} (h : Searching next count [] state.2 state.1) :
    Searching next count [] (nodes.foldl (Postorder.visit next) state).2
      (nodes.foldl (Postorder.visit next) state).1 := by
  induction nodes generalizing state with
  | nil => exact h
  | cons node nodes ih => exact ih (h.visit hnext node)

end Searching

/-- The searches behind the post-order end with all nodes left. -/
theorem searching_list (hnext : ∀ node, ∀ i ∈ next node, i < count) (entry : Nat) :
    ∃ unseen, Searching next count [] unseen (list next count entry).reverse := by
  have hstart : Searching next count [] (PointSet.below count) [] :=
    ⟨by simp, by simp, fun i hi => .inl (PointSet.mem_below.2 hi), by simp, by simp, by simp,
      trivial⟩
  unfold list
  rw [List.reverse_reverse]
  exact ⟨_, Searching.foldl_visit hnext (entry :: List.range count) hstart⟩

/-- No node finishes twice. -/
theorem nodup_list (hnext : ∀ node, ∀ i ∈ next node, i < count) (entry : Nat) :
    (list next count entry).Nodup := by
  obtain ⟨unseen, h⟩ := searching_list hnext entry
  exact (List.reverse_perm _).nodup_iff.1 h.nodup

/-- In the post-order, what may follow a node comes before it, or leads back to it. -/
theorem mem_of_list_eq (hnext : ∀ node, ∀ i ∈ next node, i < count) {entry : Nat}
    {front back : List Nat} (hlist : list next count entry = front ++ node :: back)
    (hi : i ∈ next node) : i ∈ front ∨ Reaches next i node := by
  obtain ⟨unseen, h⟩ := searching_list hnext entry
  have hordered := h.ordered
  rw [hlist, List.reverse_append, List.reverse_cons, List.append_assoc, List.singleton_append]
    at hordered
  simpa using hordered.at i hi

end Postorder

/-! ### The blocks of a graph -/

namespace Graph

variable {g : Graph}

/-- The blocks by number, in the order in which the search from the entry, and then from the blocks
that it has not seen, leaves them. -/
def postorder (g : Graph) : List Nat :=
  Postorder.list (g.blockSuccessors.getD · []) g.blocks.length ((g.blockIndex? g.entry).getD 0)

/-- The table of blocks has the steps between blocks. -/
theorem mem_getD_blockSuccessors {k k' : Nat} :
    k' ∈ g.blockSuccessors.getD k [] ↔ g.BlockStep k k' := by
  have hnext : (Backward.ofGraph g .names (fun _ fact => fact) ∅).next k =
      g.blockSuccessors.getD k [] := rfl
  rw [← hnext]
  exact Backward.mem_next_ofGraph

/-- A step leads to a number of a block. -/
theorem BlockStep.lt {k k' : Nat} (h : g.BlockStep k k') : k' < g.blocks.length := by
  obtain ⟨_, target, _, htarget, _⟩ := h
  exact (List.getElem?_eq_some_iff.1 htarget).1

/-- What the search reaches, steps between blocks reach. -/
theorem reaches_blockSuccessors {u v : Nat}
    (h : Postorder.Reaches (g.blockSuccessors.getD · []) v u) :
    Relation.ReflTransGen g.BlockStep v u :=
  h.lift id fun _ _ hstep => mem_getD_blockSuccessors.1 hstep

/-- The rows of the table have numbers of blocks. -/
theorem blockSuccessors_lt (k : Nat) : ∀ k' ∈ g.blockSuccessors.getD k [], k' < g.blocks.length :=
  fun _ hk' => (mem_getD_blockSuccessors.1 hk').lt

/-- Every block finishes. -/
theorem mem_postorder {k : Nat} : k ∈ g.postorder ↔ k < g.blocks.length :=
  Postorder.mem_list

/-- No block finishes twice. -/
theorem nodup_postorder (g : Graph) : g.postorder.Nodup :=
  Postorder.nodup_list blockSuccessors_lt _

/-- Every block is listed once. -/
theorem perm_postorder (g : Graph) : g.postorder.Perm (List.range g.blocks.length) := by
  refine (List.perm_ext_iff_of_nodup g.nodup_postorder List.nodup_range).2 fun k => ?_
  rw [mem_postorder, List.mem_range]

/-- As many blocks finish as there are. -/
theorem length_postorder (g : Graph) : g.postorder.length = g.blocks.length := by
  rw [g.perm_postorder.length_eq, List.length_range]

/-- A block stands in front of those that jump to it, unless it leads to them. -/
theorem mem_of_postorder_eq {u v : Nat} {front back : List Nat}
    (hsplit : g.postorder = front ++ u :: back) (hstep : g.BlockStep u v)
    (hback : ¬ Relation.ReflTransGen g.BlockStep v u) : v ∈ front := by
  have hnext := mem_getD_blockSuccessors.2 hstep
  exact (Postorder.mem_of_list_eq blockSuccessors_lt hsplit hnext).resolve_right
    fun hreaches => hback (reaches_blockSuccessors hreaches)

/-- A block comes before those that jump to it, unless it leads to them. -/
theorem idxOf_postorder_lt {u v : Nat} (hstep : g.BlockStep u v)
    (hback : ¬ Relation.ReflTransGen g.BlockStep v u) :
    g.postorder.idxOf v < g.postorder.idxOf u := by
  obtain ⟨_, _, hu, _⟩ := id hstep
  obtain ⟨front, back, hsplit⟩ :=
    List.append_of_mem (mem_postorder.2 (List.getElem?_eq_some_iff.1 hu).1)
  have hv := mem_of_postorder_eq hsplit hstep hback
  have hnew : u ∉ front := by
    intro hmem
    have hnodup := g.nodup_postorder
    rw [hsplit] at hnodup
    exact (List.nodup_append.1 hnodup).2.2 u hmem u List.mem_cons_self rfl
  have hlt := List.idxOf_lt_length_of_mem hv
  rw [hsplit, List.idxOf_append, List.idxOf_append, if_pos hv, if_neg hnew]
  omega

end Graph

end RegionInference
