import RegionInference.Dataflow.Backward
import RegionInference.Proofs.Layout
import RegionInference.Proofs.Postorder

/-!
# What the backward engine computes

The engine processes nodes until none is left. Two things are carried through a run, whatever the
order:

* *Induction on facts* (`Backward.starts_run`): a property of the facts at the starts of the nodes
  that the least fact has, and that processing a node keeps, holds when the run ends. This is how
  facts are bounded from above.
* *Settled nodes* (`Backward.Settled`): the fact at the end of a node that is not on the list is
  the one that the facts at the starts of its successors give, and the fact at its start agrees
  with what the transfer function makes of it. A change at the start of a node puts its
  predecessors on the list, so settled nodes stay settled. When the list is empty, the equations
  hold at every node (`Backward.solved_of_converged`).

Both are about any graph of nodes whose predecessors are the ones of its successors
(`Backward.Wired`); the blocks of a control-flow graph are such nodes (`Backward.ofGraph_wired`).
-/

namespace RegionInference

/-! ### Worklists -/

/-- Taking a node off a list leaves the other members. -/
theorem Order.mem_of_take? {order : Order} {work rest : List Nat} {node : Nat}
    (h : order.take? work = some (node, rest)) {m : Nat} : m ∈ work ↔ m = node ∨ m ∈ rest := by
  cases work with
  | nil => cases order <;> simp [take?] at h
  | cons first work =>
    cases order with
    | lifo =>
      simp only [take?, Option.some.injEq, Prod.mk.injEq] at h
      obtain ⟨rfl, rfl⟩ := h
      have hsplit := List.dropLast_concat_getLast (l := first :: work) (by simp)
      constructor
      · intro hm
        rw [← hsplit, List.mem_append, List.mem_singleton] at hm
        exact hm.symm
      · intro hm
        rw [← hsplit, List.mem_append, List.mem_singleton]
        exact hm.symm
    | _ =>
      simp only [take?, Option.some.injEq, Prod.mk.injEq] at h
      obtain ⟨rfl, rfl⟩ := h
      exact List.mem_cons

namespace Backward

variable {α : Type} {analysis : Backward α} {order : Order}

/-- How many nodes there are. -/
def count (analysis : Backward α) : Nat :=
  analysis.successors.length

/-- Every node is at first on the list. -/
theorem mem_initialWork {n : Nat} : n ∈ analysis.initialWork order ↔ n < analysis.count := by
  unfold initialWork
  cases order <;> simp [Postorder.mem_list, count]

/-! ### Runs -/

/-- What processing one node keeps, a run keeps. -/
theorem iterate_induction {P : State α → Prop}
    (hstep : ∀ state node work, order.take? state.work = some (node, work) → P state →
      P (analysis.process state node work)) {budget : Nat} {state : State α} (h : P state) :
    P (analysis.iterate order budget state) := by
  induction budget generalizing state with
  | zero => exact h
  | succ budget ih =>
    unfold iterate
    split
    · exact h
    · next node work htake => exact ih (hstep state node work htake h)

/-- Processing a node replaces at most the fact at its start. -/
theorem process_starts (analysis : Backward α) (state : State α) (node : Nat) (work : List Nat) :
    (analysis.process state node work).starts = state.starts ∨
      (analysis.process state node work).starts =
        state.starts.set node (analysis.transfer node (analysis.endFact state.starts node)) := by
  unfold process
  dsimp only
  split
  · exact .inl rfl
  · exact .inr rfl

/-- The fact at the start of a node after the fact of another one was replaced. -/
theorem getD_set {starts : List α} {node m : Nat} {fact bottom : α} :
    (starts.set node fact).getD m bottom =
      if m = node ∧ node < starts.length then fact else starts.getD m bottom := by
  rw [List.getD_eq_getElem?_getD, List.getD_eq_getElem?_getD, List.getElem?_set]
  by_cases hm : node = m
  · subst hm
    by_cases hlt : node < starts.length
    · simp [hlt]
    · simp [hlt]
  · simp [hm, Ne.symm hm]

/-- **Induction on facts.** A property that the least fact has at every node, and that holds of the
fact computed for a node if it holds of all facts it is computed from, holds of the facts at the
starts of all nodes when the run ends. -/
theorem starts_run (analysis : Backward α) {P : Nat → α → Prop}
    (hbottom : ∀ n, P n analysis.lattice.bottom)
    (hstep : ∀ starts : List α, (∀ n, P n (starts.getD n analysis.lattice.bottom)) →
      ∀ node, P node (analysis.transfer node (analysis.endFact starts node)))
    (limit n : Nat) :
    P n ((analysis.run order limit).starts.getD n analysis.lattice.bottom) := by
  have hinv : ∀ n, P n ((analysis.run order limit).starts.getD n analysis.lattice.bottom) := by
    refine iterate_induction
      (P := fun state => ∀ n, P n (state.starts.getD n analysis.lattice.bottom)) ?_ ?_
    · intro state node work _ h n
      rcases analysis.process_starts state node work with heq | heq
      · rw [heq]
        exact h n
      · rw [heq, getD_set]
        split
        · next hn =>
          rw [hn.1]
          exact hstep state.starts h node
        · exact h n
    · intro n
      have hdefault : (analysis.start order).starts.getD n analysis.lattice.bottom =
          analysis.lattice.bottom := by
        unfold start
        rw [List.getD_eq_getElem?_getD, List.getElem?_map]
        cases analysis.successors[n]? <;> rfl
      rw [hdefault]
      exact hbottom n
  exact hinv n

/-! ### Settled nodes -/

/-- Every node is listed as a predecessor of the nodes that may follow it. -/
def Wired (analysis : Backward α) : Prop :=
  ∀ {m n : Nat}, n ∈ analysis.next m → m ∈ analysis.previous n

/-- The facts of a node are what the equations of the analysis ask for, given the facts at the
starts of the nodes that may follow. -/
def Solved (analysis : Backward α) (state : State α) (n : Nat) : Prop :=
  state.ends[n]? = some (analysis.endFact state.starts n) ∧
    ∃ fact, state.starts[n]? = some fact ∧
      (analysis.transfer n (analysis.endFact state.starts n) = fact ∨
        analysis.lattice.eq (analysis.transfer n (analysis.endFact state.starts n)) fact = true)

/-- There are facts for every node, and the nodes that are not on the list are solved. -/
structure Settled (analysis : Backward α) (state : State α) : Prop where
  /-- There is a fact at the end of each node. -/
  length_ends : state.ends.length = analysis.count
  /-- There is a fact at the start of each node. -/
  length_starts : state.starts.length = analysis.count
  /-- A node that is not on the list is solved. -/
  solved : ∀ n < analysis.count, n ∉ state.work → analysis.Solved state n

/-- The fact at the end of a node does not change with the fact of a node that does not follow. -/
theorem endFact_set {starts : List α} {node m : Nat} {fact : α} (h : node ∉ analysis.next m) :
    analysis.endFact (starts.set node fact) m = analysis.endFact starts m := by
  have hsame : (analysis.next m).map ((starts.set node fact).getD · analysis.lattice.bottom) =
      (analysis.next m).map (starts.getD · analysis.lattice.bottom) := by
    refine List.map_congr_left fun n hn => ?_
    rw [getD_set, if_neg]
    rintro ⟨rfl, -⟩
    exact h hn
  unfold endFact
  dsimp only
  rw [hsame]

/-- At first every node is on the list. -/
theorem settled_start : analysis.Settled (analysis.start order) where
  length_ends := by simp [start, count]
  length_starts := by simp [start, count]
  solved n hn hwork := absurd (mem_initialWork.2 hn) hwork

/-- Settled nodes stay settled, and the processed one becomes so unless it follows itself and has
changed. -/
theorem settled_process (hwired : analysis.Wired) {state : State α} {node : Nat} {work : List Nat}
    (htake : order.take? state.work = some (node, work)) (h : analysis.Settled state) :
    analysis.Settled (analysis.process state node work) := by
  have hother : ∀ {n}, n ≠ node → n ∉ work → n ∉ state.work := by
    intro n hne hnot hmem
    rcases (Order.mem_of_take? htake).1 hmem with heq | hwork
    · exact hne heq
    · exact hnot hwork
  unfold process
  dsimp only
  split
  · next hsame =>
    -- the fact at the start stands, and only the fact at the end is written
    refine ⟨by simpa using h.length_ends, h.length_starts, fun n hn hnot => ?_⟩
    by_cases hne : n = node
    · subst hne
      have hstarts : n < state.starts.length := h.length_starts ▸ hn
      refine ⟨by simp [h.length_ends, hn], state.starts[n], by simp [hstarts], .inr ?_⟩
      have heq := hsame.2
      rwa [List.getD_eq_getElem?_getD, List.getElem?_eq_getElem hstarts,
        Option.getD_some] at heq
    · obtain ⟨hend, hstart⟩ := h.solved n hn (hother hne hnot)
      exact ⟨by simpa [List.getElem?_set, Ne.symm hne] using hend, hstart⟩
  · refine ⟨by simpa using h.length_ends, by simpa using h.length_starts, fun n hn hnot => ?_⟩
    rw [mem_enqueue, not_or] at hnot
    -- the node does not come before the changed one, so its equation reads the same facts
    have hnext : node ∉ analysis.next n := fun hmem => hnot.2 (hwired hmem)
    unfold Solved
    dsimp only
    rw [endFact_set hnext]
    by_cases hne : n = node
    · subst hne
      have hstarts : n < state.starts.length := h.length_starts ▸ hn
      refine ⟨by simp [h.length_ends, hn], _, by simp [hstarts], .inl rfl⟩
    · obtain ⟨hend, hstart⟩ := h.solved n hn (hother hne hnot.1)
      refine ⟨by simpa [List.getElem?_set, Ne.symm hne] using hend, ?_⟩
      simpa [List.getElem?_set, Ne.symm hne] using hstart

/-- Every run leaves its settled nodes solved. -/
theorem settled_run (hwired : analysis.Wired) (limit : Nat) :
    analysis.Settled (analysis.run order limit) :=
  iterate_induction (fun _ _ _ htake h => settled_process hwired htake h) settled_start

/-- When nothing is left to process, the equations hold at every node. -/
theorem solved_of_converged (hwired : analysis.Wired) {limit n : Nat}
    (hconv : (analysis.run order limit).converged = true) (hn : n < analysis.count) :
    analysis.Solved (analysis.run order limit) n := by
  have hempty : (analysis.run order limit).work = [] := List.isEmpty_iff.1 hconv
  refine (settled_run hwired limit).solved n hn ?_
  rw [hempty]
  exact List.not_mem_nil

end Backward

/-! ### The blocks of a graph -/

namespace Graph

variable {g : Graph}

/-- Control may go from the block with number `k` to the block with number `k'`. -/
def BlockStep (g : Graph) (k k' : Nat) : Prop :=
  ∃ block target, g.blocks[k]? = some block ∧ g.blocks[k']? = some target ∧
    target.name ∈ block.successors

/-- The number of a block is the one under which a block of the name stands. -/
theorem blockIndex?_eq_some {name : String} {k : Nat} :
    g.blockIndex? name = some k ↔ ∃ block, g.blocks[k]? = some block ∧ block.name = name := by
  rw [blockIndex?, List.findIdx?_eq_some_iff_getElem]
  constructor
  · rintro ⟨hk, hname, -⟩
    exact ⟨g.blocks[k], by simp, by simpa using hname⟩
  · rintro ⟨block, hblock, rfl⟩
    obtain ⟨hk, rfl⟩ := List.getElem?_eq_some_iff.1 hblock
    refine ⟨hk, by simp, fun m hm => ?_⟩
    have hnodup := g.names_nodup
    rw [Layout.names, List.nodup_iff_pairwise_ne, List.pairwise_map,
      List.pairwise_iff_getElem] at hnodup
    simpa using hnodup m k (by omega) hk hm

/-- The blocks that jump to a block, by number. -/
theorem mem_blockPreds {k k' : Nat} : k ∈ g.blockPreds.getD k' [] ↔ g.BlockStep k k' := by
  unfold BlockStep
  simp only [blockPreds, names, Layout.names, List.getD_eq_getElem?_getD, List.getElem?_map]
  cases hk' : g.blocks[k']? with
  | none => simp
  | some target =>
    simp only [Option.map_some, Option.getD_some, List.mem_filterMap, Option.some.injEq,
      Prod.exists, Option.ite_none_right_eq_some, List.mem_zipIdx_iff_getElem?]
    constructor
    · rintro ⟨block, i, hblock, hname, rfl⟩
      exact ⟨block, target, hblock, rfl, hname⟩
    · rintro ⟨block, _, hblock, rfl, hname⟩
      exact ⟨block, k, hblock, hname, rfl⟩

end Graph

namespace Backward

variable {α : Type} {g : Graph} {lattice : Lattice α} {transfer : Block → α → α} {initial : α}

/-- There is a node for each block. -/
theorem count_ofGraph : (ofGraph g lattice transfer initial).count = g.blocks.length := by
  simp [count, ofGraph, Graph.blockSuccessors]

/-- The blocks that may follow a block, by number. -/
theorem mem_next_ofGraph {k k' : Nat} :
    k' ∈ (ofGraph g lattice transfer initial).next k ↔ g.BlockStep k k' := by
  unfold next ofGraph Graph.BlockStep
  simp only [Graph.blockSuccessors, List.getD_eq_getElem?_getD, List.getElem?_map]
  cases hk : g.blocks[k]? with
  | none => simp
  | some block =>
    simp only [Option.map_some, Option.getD_some, List.mem_filterMap, List.mem_eraseDups,
      Graph.blockIndex?_eq_some, Option.some.injEq]
    constructor
    · rintro ⟨name, hname, target, htarget, rfl⟩
      exact ⟨block, target, rfl, htarget, hname⟩
    · rintro ⟨_, target, rfl, htarget, hname⟩
      exact ⟨target.name, hname, target, htarget, rfl⟩

/-- The blocks that a block may follow, by number. -/
theorem mem_previous_ofGraph {k k' : Nat} :
    k ∈ (ofGraph g lattice transfer initial).previous k' ↔ g.BlockStep k k' :=
  Graph.mem_blockPreds

/-- A block is a predecessor of each block that may follow it. -/
theorem ofGraph_wired : (ofGraph g lattice transfer initial).Wired :=
  fun h => mem_previous_ofGraph.2 (mem_next_ofGraph.1 h)

end Backward

end RegionInference
