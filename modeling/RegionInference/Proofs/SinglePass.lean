import RegionInference.Proofs.FinishingOrder

/-!
# One pass where there are no cycles

Where the blocks of a graph form no cycle, every block comes in post-order after all blocks that may
follow it. The backward engine then meets each block when all it depends on is final, and the
predecessors of the block it has just processed are still on its list. So it processes every block
once and is done (`Backward.Passed`), whatever the lattice and the transfer functions are: no law of
either is used.
-/

namespace RegionInference

/-! ### Nodes in order -/

namespace Backward

variable {α : Type} {analysis : Backward α} {state : State α} {done work : List Nat} {node : Nat}

/-- The facts of a node are exactly what its equations ask for. -/
def Exact (analysis : Backward α) (state : State α) (n : Nat) : Prop :=
  state.ends[n]? = some (analysis.endFact state.starts n) ∧
    state.starts[n]? = some (analysis.transfer n (analysis.endFact state.starts n))

/-- How far an engine is that has processed some nodes once, and has the rest on its list. -/
structure Passed (analysis : Backward α) (done : List Nat) (state : State α) : Prop where
  /-- There is a fact at the end of each node. -/
  length_ends : state.ends.length = analysis.count
  /-- There is a fact at the start of each node. -/
  length_starts : state.starts.length = analysis.count
  /-- Every processed node took one iteration. -/
  iterations_eq : state.iterations = done.length
  /-- The visited nodes are the processed ones. -/
  visited : ∀ n ∈ state.visited, n ∈ done
  /-- The facts of the processed nodes are exact. -/
  exact : ∀ n ∈ done, analysis.Exact state n

/-- At first no node has been processed. -/
theorem passed_start (analysis : Backward α) (order : Order) :
    analysis.Passed [] (analysis.start order) where
  length_ends := by simp [start, count]
  length_starts := by simp [start, count]
  iterations_eq := rfl
  visited n hn := absurd hn (PointSet.not_mem_empty n)
  exact n hn := absurd hn List.not_mem_nil

/-- Processing a node changes its facts: it has not been visited, or another fact is computed. -/
def Changes (analysis : Backward α) (state : State α) (node : Nat) : Prop :=
  ¬(node ∈ state.visited ∧ analysis.lattice.eq
    (analysis.transfer node (analysis.endFact state.starts node))
    (state.starts.getD node analysis.lattice.bottom) = true)

/-- A node whose facts change has its predecessors put on the list. -/
theorem process_of_changes (h : analysis.Changes state node) :
    analysis.process state node work = { state with
      ends := state.ends.set node (analysis.endFact state.starts node)
      iterations := state.iterations + 1
      visited := state.visited.insert node
      starts := state.starts.set node (analysis.transfer node (analysis.endFact state.starts node))
      work := enqueue work (analysis.previous node) } :=
  if_neg h

/-- Any other node is taken off the list. -/
theorem process_of_not_changes (h : ¬analysis.Changes state node) :
    analysis.process state node work = { state with
      ends := state.ends.set node (analysis.endFact state.starts node)
      iterations := state.iterations + 1
      work } :=
  if_pos (Decidable.not_not.1 h)

/-- Nothing is appended to a list that has all of it. -/
theorem enqueue_of_subset {items : List Nat} (h : ∀ item ∈ items, item ∈ work) :
    enqueue work items = work := by
  induction items with
  | nil => rfl
  | cons item items ih =>
    rw [enqueue, if_pos (h item List.mem_cons_self)]
    exact ih fun other hother => h other (List.mem_cons_of_mem _ hother)

/-- **One step.** Processing a node of which no processed node depends, and whose predecessors are
all still on the list, takes it off the list and leaves the rest as it is. -/
theorem Passed.process (h : analysis.Passed done state) (hnode : node < analysis.count)
    (hnew : node ∉ done) (hself : node ∉ analysis.next node)
    (hdone : ∀ n ∈ done, node ∉ analysis.next n)
    (hprevious : ∀ n ∈ analysis.previous node, n ∈ work) :
    analysis.Passed (done ++ [node]) (analysis.process state node work) ∧
      (analysis.process state node work).work = work := by
  rw [process_of_changes fun hboth => hnew (h.visited node hboth.1)]
  refine ⟨⟨by simpa using h.length_ends, by simpa using h.length_starts,
    by simp [h.iterations_eq], fun n hn => ?_, fun n hn => ?_⟩, enqueue_of_subset hprevious⟩
  · rcases PointSet.mem_insert.1 hn with hold | rfl
    · exact List.mem_append_left _ (h.visited n hold)
    · exact List.mem_append_right _ List.mem_cons_self
  · unfold Exact
    dsimp only
    rcases List.mem_append.1 hn with hold | hlast
    · -- an earlier node does not read the fact that has changed
      have hne : node ≠ n := fun heq => hnew (heq ▸ hold)
      rw [endFact_set (hdone n hold), List.getElem?_set_ne hne, List.getElem?_set_ne hne]
      exact h.exact n hold
    · obtain rfl := List.mem_singleton.1 hlast
      rw [endFact_set hself]
      exact ⟨List.getElem?_set_self (h.length_ends ▸ hnode),
        List.getElem?_set_self (h.length_starts ▸ hnode)⟩

/-- Each node of a list comes after all nodes that may follow it. -/
def Sorted (analysis : Backward α) (nodes : List Nat) : Prop :=
  ∀ {front node back}, nodes = front ++ node :: back → ∀ i ∈ analysis.next node, i ∈ front

/-- Only nodes of the analysis have successors. -/
theorem lt_count_of_mem_next {m n : Nat} (h : n ∈ analysis.next m) : m < analysis.count := by
  refine Decidable.byContradiction fun hm => ?_
  have hnil : analysis.next m = [] := by
    rw [next, List.getD_eq_getElem?_getD, List.getElem?_eq_none (Nat.le_of_not_lt hm)]
    rfl
  rw [hnil] at h
  exact List.not_mem_nil h

section OnePass

variable {nodes : List Nat} (hsorted : analysis.Sorted nodes) (hnodup : nodes.Nodup)
  (hnodes : ∀ n, n ∈ nodes ↔ n < analysis.count)
  (hprevious : ∀ {m n}, m ∈ analysis.previous n → n ∈ analysis.next m)

include hsorted hnodup hnodes hprevious

/-- The first node on the list of an engine that has processed all nodes before it. -/
theorem Passed.process_first (h : analysis.Passed done state)
    (hsplit : nodes = done ++ node :: work) :
    analysis.Passed (done ++ [node]) (analysis.process state node work) ∧
      (analysis.process state node work).work = work := by
  have hnew : node ∉ done := by
    rw [hsplit] at hnodup
    exact fun hmem => (List.nodup_append.1 hnodup).2.2 node hmem node List.mem_cons_self rfl
  have hself : node ∉ analysis.next node := fun hmem => hnew (hsorted hsplit node hmem)
  have hdone : ∀ n ∈ done, node ∉ analysis.next n := by
    intro n hn hmem
    obtain ⟨front, back, rfl⟩ := List.append_of_mem hn
    have hsplit' : nodes = front ++ n :: (back ++ node :: work) := by simp [hsplit]
    exact hnew (List.mem_append_left _ (hsorted hsplit' node hmem))
  refine h.process ((hnodes node).1 (by simp [hsplit])) hnew hself hdone fun n hn => ?_
  -- a predecessor has not been processed, and is not the node itself
  have hmem := hprevious hn
  have hlisted := (hnodes n).2 (lt_count_of_mem_next hmem)
  rw [hsplit, List.mem_append, List.mem_cons] at hlisted
  rcases hlisted with hold | rfl | hrest
  · exact absurd hmem (hdone n hold)
  · exact absurd hmem hself
  · exact hrest

/-- **A run.** As long as it may, the engine takes the nodes off its list one by one. -/
theorem Passed.iterate (h : analysis.Passed done state) (hsplit : nodes = done ++ state.work)
    (budget : Nat) :
    ∃ done', analysis.Passed done' (analysis.iterate .postorder budget state) ∧
      nodes = done' ++ (analysis.iterate .postorder budget state).work ∧
      done'.length = min (done.length + budget) nodes.length := by
  induction budget generalizing done state with
  | zero =>
    refine ⟨done, h, hsplit, ?_⟩
    have hlength := congrArg List.length hsplit
    rw [List.length_append] at hlength
    omega
  | succ budget ih =>
    cases hwork : state.work with
    | nil =>
      have hstay : analysis.iterate .postorder (budget + 1) state = state := by
        simp [Backward.iterate, hwork, Order.take?]
      rw [hstay]
      refine ⟨done, h, hsplit, ?_⟩
      rw [hsplit, hwork, List.append_nil]
      omega
    | cons node work =>
      have hstep : analysis.iterate .postorder (budget + 1) state =
          analysis.iterate .postorder budget (analysis.process state node work) := by
        simp [Backward.iterate, hwork, Order.take?]
      rw [hwork] at hsplit
      obtain ⟨hpassed, hrest⟩ :=
        h.process_first hsorted hnodup hnodes hprevious hsplit
      obtain ⟨done', hpassed', hsplit', hlength⟩ := ih hpassed (by rw [hrest, hsplit]; simp)
      rw [hstep]
      refine ⟨done', hpassed', hsplit', hlength.trans ?_⟩
      rw [List.length_append, List.length_singleton]
      omega

end OnePass

end Backward

namespace Graph

variable {g : Graph}

/-- Without cycles, each block comes after all that may follow it. -/
theorem sorted_postorder {lattice : Lattice α} {transfer : Block → α → α} {initial : α}
    (hacyclic : ∀ k, ¬ Relation.TransGen g.BlockStep k k) :
    (Backward.ofGraph g lattice transfer initial).Sorted g.postorder := by
  intro front node back hsplit i hi
  have hstep := Backward.mem_next_ofGraph.1 hi
  exact mem_of_postorder_eq hsplit hstep fun hback => hacyclic node (.head' hstep hback)

/-- The engine starts with the blocks in post-order. -/
theorem initialWork_postorder {lattice : Lattice α} {transfer : Block → α → α} {initial : α} :
    (Backward.ofGraph g lattice transfer initial).initialWork .postorder = g.postorder := by
  have hlist : (Backward.ofGraph g lattice transfer initial).initialWork .postorder =
      Postorder.list (g.blockSuccessors.getD · []) g.blockSuccessors.length
        ((g.blockIndex? g.entry).getD 0) := rfl
  rw [hlist, postorder, blockSuccessors, List.length_map]

/-- Without cycles, a run processes the blocks in the order of the list, each once. -/
theorem passed_run (hacyclic : ∀ k, ¬ Relation.TransGen g.BlockStep k k) (lattice : Lattice α)
    (transfer : Block → α → α) (initial : α) (limit : Nat) :
    ∃ done, (Backward.ofGraph g lattice transfer initial).Passed done
        ((Backward.ofGraph g lattice transfer initial).run .postorder limit) ∧
      g.postorder = done ++
        ((Backward.ofGraph g lattice transfer initial).run .postorder limit).work ∧
      done.length = min limit g.blocks.length := by
  have hcount : (Backward.ofGraph g lattice transfer initial).count = g.blocks.length :=
    Backward.count_ofGraph
  have hwork : ((Backward.ofGraph g lattice transfer initial).start .postorder).work =
      g.postorder := initialWork_postorder
  have hstart := (Backward.ofGraph g lattice transfer initial).passed_start .postorder
  have hrun := hstart.iterate (sorted_postorder hacyclic) g.nodup_postorder
    (fun n => by rw [hcount, mem_postorder])
    (fun hprevious => Backward.mem_next_ofGraph.2 (Backward.mem_previous_ofGraph.1 hprevious))
    (by rw [hwork, List.nil_append]) limit
  rwa [List.length_nil, Nat.zero_add, length_postorder] at hrun

/-- **Post-order.** The order is the one of a recursive depth-first search from the entry and then
from all blocks. It lists every block once, also those that the entry does not lead to. A block
comes before those that jump to it, unless it leads back to them. So where the blocks form no cycle,
the engine needs one iteration for each block, whatever the facts and the transfer functions are:
before that it has not converged, and then the facts of each block are exact. -/
theorem postorder_makes_one_pass (g : Graph) :
    (∃ rest, Postorder.Explores (g.blockSuccessors.getD · [])
      ((g.blockIndex? g.entry).getD 0 :: List.range g.blocks.length) (.below g.blocks.length)
      g.postorder rest) ∧
    g.postorder.Perm (List.range g.blocks.length) ∧
    (∀ u v, g.BlockStep u v → ¬ Relation.ReflTransGen g.BlockStep v u →
      g.postorder.idxOf v < g.postorder.idxOf u) ∧
    ((∀ k, ¬ Relation.TransGen g.BlockStep k k) →
      ∀ (α : Type) (lattice : Lattice α) (transfer : Block → α → α) (initial : α) (limit : Nat)
        (state : Backward.State α),
        (Backward.ofGraph g lattice transfer initial).run .postorder limit = state →
        state.iterations = min limit g.blocks.length ∧
        (state.converged = true ↔ g.blocks.length ≤ limit) ∧
        (state.converged = true → ∀ k < g.blocks.length,
          (Backward.ofGraph g lattice transfer initial).Exact state k)) := by
  refine ⟨Postorder.explores_list _ _ _, g.perm_postorder,
    fun u v hstep hback => idxOf_postorder_lt hstep hback, ?_⟩
  intro hacyclic α lattice transfer initial limit state hrun
  obtain ⟨done, hpassed, hsplit, hlength⟩ := passed_run hacyclic lattice transfer initial limit
  rw [hrun] at hpassed hsplit
  have htotal : done.length + state.work.length = g.blocks.length := by
    rw [← List.length_append, ← hsplit, length_postorder]
  have hconverged : state.converged = true ↔ state.work.length = 0 := by
    rw [Backward.State.converged, List.isEmpty_iff, List.length_eq_zero_iff]
  refine ⟨hpassed.iterations_eq.trans hlength, hconverged.trans (by omega), fun hconv k hk => ?_⟩
  have hnil : state.work = [] := List.length_eq_zero_iff.1 (hconverged.1 hconv)
  rw [hnil, List.append_nil] at hsplit
  exact hpassed.exact k (hsplit ▸ mem_postorder.2 hk)

end Graph

namespace Sample

/-- Two branches that meet again, and beside them a block that the entry does not lead to. -/
def diamond : Graph :=
  .build [
    { name := "A", terminator := .goto ["C", "B", "C"] },
    { name := "X", terminator := .goto ["D"] },
    { name := "B", terminator := .goto ["D"] },
    { name := "C", terminator := .goto ["D"] },
    { name := "D" }] "A" (by decide) (by decide) (by decide)

/-- Jumps lead to blocks with larger numbers. -/
theorem lt_of_blockStep_diamond {u v : Nat} (h : diamond.BlockStep u v) : u < v := by
  obtain ⟨_, _, hu, _⟩ := id h
  have hsmall : u < 5 := (List.getElem?_eq_some_iff.1 hu).1
  have hrises : ∀ u < 5, ∀ v ∈ diamond.blockSuccessors.getD u [], u < v := by decide
  exact hrises u hsmall v (Graph.mem_getD_blockSuccessors.2 h)

/-- So do jumps in a row. -/
theorem lt_of_transGen_diamond {u v : Nat} (h : Relation.TransGen diamond.BlockStep u v) :
    u < v := by
  induction h with
  | single hstep => exact lt_of_blockStep_diamond hstep
  | tail _ hstep ih => exact Nat.lt_trans ih (lt_of_blockStep_diamond hstep)

end Sample

/-- The blocks of the diamond form no cycle. The engine collects for each block the names of the
blocks that it leads to in five iterations, one for each block, the one beside included. -/
theorem Graph.diamond_takes_one_pass :
    (∀ k, ¬ Relation.TransGen Sample.diamond.BlockStep k k) ∧
    Sample.diamond.BlockStep 1 4 ∧ ¬ Relation.ReflTransGen Sample.diamond.BlockStep 4 1 ∧
    Sample.diamond.postorder.idxOf 4 < Sample.diamond.postorder.idxOf 1 ∧
    ∃ state, (Backward.ofGraph Sample.diamond .names (fun block fact => fact.insert block.name)
      ∅).run .postorder 7 = state ∧ state.iterations = 5 ∧ state.converged = true := by
  have hacyclic : ∀ k, ¬ Relation.TransGen Sample.diamond.BlockStep k k :=
    fun k h => Nat.lt_irrefl k (Sample.lt_of_transGen_diamond h)
  have hstep : Sample.diamond.BlockStep 1 4 := mem_getD_blockSuccessors.1 (by decide)
  have hback : ¬ Relation.ReflTransGen Sample.diamond.BlockStep 4 1 := by
    intro h
    rcases Relation.reflTransGen_iff_eq_or_transGen.1 h with heq | htrans
    · exact absurd heq (by decide)
    · exact absurd (Sample.lt_of_transGen_diamond htrans) (by decide)
  obtain ⟨-, -, hbefore, hpass⟩ := postorder_makes_one_pass Sample.diamond
  obtain ⟨hiterations, hconverged, -⟩ :=
    hpass hacyclic _ .names (fun block fact => fact.insert block.name) ∅ 7 _ rfl
  exact ⟨hacyclic, hstep, hback, hbefore 1 4 hstep hback, _, rfl, hiterations,
    hconverged.2 (by decide)⟩

end RegionInference
