import Mathlib
import RegionInference.Proofs.Limits
import RegionInference.Proofs.SinglePass

/-!
# Enough iterations

How many iterations does a backward analysis take? Suppose that facts have a size that grows with
them and is at most `most` (`Backward.Measures`). Then the fact at the start of a node changes at
most `most + 1` times, the first time because the node is visited. What is on the list, together
with what the changes still to come can put on it, gets less with every iteration
(`Backward.potential`), so a run with `Backward.ample most` iterations comes to its end
(`Backward.work_run_ample`). For liveness the size of a fact is the number of its names, and those
are names that elements mention (`Liveness.work_run_ample`).

A run that comes to its end takes a number of iterations of its own: with fewer it is stopped after
just as many as it may make, with more it ends in the same way (`Backward.iterate_exact`).
-/

namespace RegionInference

/-- The work grows by the new items at most. -/
theorem length_enqueue_le [DecidableEq α] (work items : List α) :
    (enqueue work items).length ≤ work.length + items.length := by
  induction items generalizing work with
  | nil => exact le_rfl
  | cons item items ih =>
    refine (ih _).trans ?_
    split
    · simp only [List.length_cons]
      omega
    · simp only [List.length_append, List.length_cons, List.length_nil]
      omega

namespace Backward

variable {α : Type} {analysis : Backward α} {carrier : Set α} {order : Order}

/-! ### Steps left -/

/-- A size of facts that grows with them, up to a largest one. -/
structure Measures (lattice : Lattice α) (carrier : Set α) (size : α → Nat) (most : Nat) :
    Prop where
  /-- No fact is larger than the largest. -/
  le_most : ∀ a ∈ carrier, size a ≤ most
  /-- A fact that says more is not smaller. -/
  mono : ∀ a ∈ carrier, ∀ b ∈ carrier, lattice.leq a b = true → size a ≤ size b
  /-- A fact that says strictly more is larger. -/
  strict : ∀ a ∈ carrier, ∀ b ∈ carrier, lattice.leq a b = true → lattice.leq b a ≠ true →
    size a < size b

/-- How often the fact at the start of a node may have changed: when the node was first visited, and
whenever the fact got larger. -/
def changeCount (analysis : Backward α) (size : α → Nat) (state : State α) (n : Nat) : Nat :=
  (if n ∈ state.visited then 1 else 0) + size (state.starts.getD n analysis.lattice.bottom)

/-- What is on the list, and what the changes still to come can put on it. -/
def potential (analysis : Backward α) (size : α → Nat) (most : Nat) (state : State α) : Nat :=
  state.work.length + ∑ n ∈ Finset.range analysis.count,
    (most + 1 - analysis.changeCount size state n) * (analysis.previous n).length

variable {size : α → Nat} {most : Nat} {state : State α} {node : Nat}

/-- The fact of a node changes at most as often as it can get larger, and once more. -/
theorem changeCount_le (hmeasure : Measures analysis.lattice carrier size most)
    (hrising : analysis.Rising carrier state.starts) (n : Nat) :
    analysis.changeCount size state n ≤ most + 1 := by
  have hsize := hmeasure.le_most _ (hrising.within n)
  unfold changeCount
  split <;> omega

/-- A node whose fact changes has changed once more. -/
theorem changeCount_process (h : analysis.Regular carrier)
    (hmeasure : Measures analysis.lattice carrier size most) (hnode : node < analysis.count)
    (hrising : analysis.Rising carrier state.starts) (hchanges : analysis.Changes state node)
    (work : List Nat) : analysis.changeCount size state node <
      analysis.changeCount size (analysis.process state node work) node := by
  have hleq := hrising.leq_computed node hnode
  have hmem := hrising.within node
  have hmem' := h.computed_mem hrising.within node
  have hlt : node < state.starts.length := hrising.length_eq ▸ hnode
  rw [process_of_changes hchanges]
  simp only [changeCount, getD_set, hlt, and_self, if_true, PointSet.mem_insert, or_true]
  by_cases hvisited : node ∈ state.visited
  · have hstrict := hmeasure.strict _ hmem _ hmem' hleq fun hgeq =>
      hchanges ⟨hvisited, (h.lawful.eq_iff _ hmem' _ hmem).2 ⟨hgeq, hleq⟩⟩
    rw [if_pos hvisited]
    omega
  · have hmono := hmeasure.mono _ hmem _ hmem' hleq
    rw [if_neg hvisited]
    omega

/-- Processing a node changes no other one. -/
theorem changeCount_process_other {n : Nat} (hother : n ≠ node) (work : List Nat) :
    analysis.changeCount size (analysis.process state node work) n =
      analysis.changeCount size state n := by
  by_cases hchanges : analysis.Changes state node
  · rw [process_of_changes hchanges]
    simp only [changeCount, getD_set, hother, false_and, if_false, PointSet.mem_insert, or_false]
  · rw [process_of_not_changes hchanges]
    rfl

/-- **One step.** Every iteration lowers the potential: it takes a node off the list, and what it
puts there had been counted. -/
theorem potential_process (h : analysis.Regular carrier)
    (hmeasure : Measures analysis.lattice carrier size most) (hnode : node < analysis.count)
    (hrising : analysis.Rising carrier state.starts) {work : List Nat}
    (htake : order.take? state.work = some (node, work)) :
    analysis.potential size most (analysis.process state node work) <
      analysis.potential size most state := by
  have hlength := Order.length_of_take? htake
  by_cases hchanges : analysis.Changes state node
  · obtain ⟨hrising', -⟩ := hrising.process h hnode work
    have hmore := changeCount_process h hmeasure hnode hrising hchanges work
    have hbound := changeCount_le hmeasure hrising' node
    have hwork : (analysis.process state node work).work.length ≤
        work.length + (analysis.previous node).length := by
      rw [process_of_changes hchanges]
      exact length_enqueue_le _ _
    have hmem : node ∈ Finset.range analysis.count := Finset.mem_range.2 hnode
    unfold potential
    rw [← Finset.add_sum_erase _ _ hmem, ← Finset.add_sum_erase _ _ hmem]
    have hrest : ∑ n ∈ (Finset.range analysis.count).erase node,
        (most + 1 - analysis.changeCount size (analysis.process state node work) n) *
          (analysis.previous n).length =
        ∑ n ∈ (Finset.range analysis.count).erase node,
          (most + 1 - analysis.changeCount size state n) * (analysis.previous n).length :=
      Finset.sum_congr rfl fun n hn => by
        rw [changeCount_process_other (Finset.ne_of_mem_erase hn)]
    -- the edges of the node count once less
    obtain ⟨less, hless⟩ : ∃ less, most + 1 - analysis.changeCount size state node =
        most + 1 - analysis.changeCount size (analysis.process state node work) node + 1 + less :=
      Nat.exists_eq_add_of_le (by omega)
    have hedges : (most + 1 - analysis.changeCount size (analysis.process state node work) node) *
        (analysis.previous node).length + (analysis.previous node).length ≤
        (most + 1 - analysis.changeCount size state node) * (analysis.previous node).length := by
      rw [hless, ← Nat.succ_mul]
      exact Nat.mul_le_mul_right _ (Nat.le_add_right _ _)
    omega
  · rw [process_of_not_changes hchanges]
    simp only [potential, changeCount]
    omega

/-- **The whole run.** A run that may make as many iterations as its potential comes to its end. -/
theorem work_iterate_of_potential (h : analysis.Regular carrier)
    (hmeasure : Measures analysis.lattice carrier size most) {budget : Nat}
    (hwork : ∀ n ∈ state.work, n < analysis.count)
    (hrising : analysis.Rising carrier state.starts)
    (hbudget : analysis.potential size most state ≤ budget) :
    (analysis.iterate order budget state).work = [] := by
  induction budget generalizing state with
  | zero =>
    unfold potential at hbudget
    have hnone : state.work.length = 0 := by omega
    exact List.length_eq_zero_iff.1 hnone
  | succ budget ih =>
    by_cases hnil : state.work = []
    · rw [iterate_of_nil hnil, hnil]
    obtain ⟨node, work, htake⟩ := order.exists_take? hnil
    have hnode : node < analysis.count := hwork node ((Order.mem_of_take? htake).2 (.inl rfl))
    obtain ⟨hrising', -⟩ := hrising.process h hnode work
    have hless := potential_process h hmeasure hnode hrising htake
    rw [iterate_of_take? htake]
    refine ih (fun n hn => ?_) hrising' (by omega)
    rcases mem_work_process hn with hrest | hprevious
    · exact hwork n ((Order.mem_of_take? htake).2 (.inr hrest))
    · exact h.previous_lt hprevious

/-! ### The start -/

/-- Lengths of lists, added one by one, are counted in the total. -/
theorem sum_length_getD_le (lists : List (List Nat)) (count start : Nat) :
    start + ∑ n ∈ Finset.range count, (lists.getD n []).length ≤
      lists.foldl (fun edges nodes => edges + nodes.length) start := by
  induction lists generalizing count start with
  | nil => simp
  | cons nodes lists ih =>
    cases count with
    | zero =>
      have hrest := ih 0 (start + nodes.length)
      simp only [Finset.range_zero, Finset.sum_empty] at hrest ⊢
      exact (Nat.le_add_right _ _).trans hrest
    | succ count =>
      have hrest := ih count (start + nodes.length)
      rw [Finset.sum_range_succ']
      simp only [List.getD_cons_succ, List.getD_cons_zero, List.foldl_cons]
      omega

/-- At the start the potential is what an unlimited run is allowed. -/
theorem potential_start_le (hlength : (analysis.initialWork order).length = analysis.count) :
    analysis.potential size most (analysis.start order) ≤ analysis.ample most := by
  have hedges := sum_length_getD_le analysis.predecessors analysis.count 0
  rw [Nat.zero_add] at hedges
  have hsum : ∑ n ∈ Finset.range analysis.count,
      (most + 1 - analysis.changeCount size (analysis.start order) n) *
        (analysis.previous n).length ≤
      (most + 1) * ∑ n ∈ Finset.range analysis.count, (analysis.previous n).length := by
    rw [Finset.mul_sum]
    exact Finset.sum_le_sum fun n _ => Nat.mul_le_mul_right _ (Nat.sub_le _ _)
  have hwork : (analysis.start order).work.length = analysis.count := hlength
  unfold potential ample
  rw [hwork]
  exact Nat.add_le_add le_rfl (hsum.trans (Nat.mul_le_mul_left _ hedges))

/-- With ample iterations a run comes to its end. -/
theorem work_run_ample (h : analysis.Regular carrier)
    (hmeasure : Measures analysis.lattice carrier size most)
    (hlength : (analysis.initialWork order).length = analysis.count) :
    (analysis.run order (analysis.ample most)).work = [] :=
  work_iterate_of_potential h hmeasure (fun _ hn => mem_initialWork.1 hn) (rising_start h)
    (potential_start_le hlength)

/-! ### The number of iterations -/

/-- Processing a node counts as one iteration. -/
theorem iterations_process (work : List Nat) :
    (analysis.process state node work).iterations = state.iterations + 1 := by
  unfold process
  dsimp only
  split <;> rfl

/-- A run to the end has a number of iterations: whoever allows it that many gets its end, and
whoever allows it fewer gets it with just as many and something left to do. -/
theorem iterate_exact {final : State α} {budget : Nat}
    (h : analysis.iterate order budget state = final) (hend : final.work = []) :
    state.iterations ≤ final.iterations ∧ ∀ allowed,
      (final.iterations ≤ state.iterations + allowed →
        analysis.iterate order allowed state = final) ∧
      (state.iterations + allowed < final.iterations →
        (analysis.iterate order allowed state).work ≠ [] ∧
        (analysis.iterate order allowed state).iterations = state.iterations + allowed) := by
  induction budget generalizing state with
  | zero =>
    obtain rfl : state = final := h
    refine ⟨le_rfl, fun allowed => ⟨fun _ => iterate_of_nil hend allowed, fun hlt => ?_⟩⟩
    omega
  | succ budget ih =>
    by_cases hnil : state.work = []
    · obtain rfl : state = final := (iterate_of_nil hnil _).symm.trans h
      refine ⟨le_rfl, fun allowed => ⟨fun _ => iterate_of_nil hend allowed, fun hlt => ?_⟩⟩
      omega
    obtain ⟨node, work, htake⟩ := order.exists_take? hnil
    rw [iterate_of_take? htake] at h
    obtain ⟨hle, hexact⟩ := ih h
    rw [iterations_process] at hle hexact
    refine ⟨by omega, fun allowed => ?_⟩
    cases allowed with
    | zero => exact ⟨fun _ => by omega, fun _ => ⟨hnil, rfl⟩⟩
    | succ allowed =>
      obtain ⟨henough, hfewer⟩ := hexact allowed
      rw [iterate_of_take? htake]
      refine ⟨fun hge => henough (by omega), fun hlt => ?_⟩
      obtain ⟨hleft, hcount⟩ := hfewer (by omega)
      exact ⟨hleft, by omega⟩

end Backward

/-! ### Liveness -/

namespace Graph

variable {g : Graph}

/-- At the start every node waits once. -/
theorem length_initialWork (lattice : Lattice α) (transfer : Block → α → α) (initial : α)
    (order : Order) : ((Backward.ofGraph g lattice transfer initial).initialWork order).length =
      (Backward.ofGraph g lattice transfer initial).count := by
  have hpostorder : ((Backward.ofGraph g lattice transfer initial).initialWork .postorder).length =
      (Backward.ofGraph g lattice transfer initial).count := by
    rw [initialWork_postorder, length_postorder, Backward.count_ofGraph]
  cases order with
  | postorder => exact hpostorder
  | reversePostorder => exact (List.length_reverse).trans hpostorder
  | fifo => exact List.length_range
  | lifo => exact List.length_range

end Graph

namespace Liveness

/-- The count over some elements is the length of all that they use and drop. -/
theorem length_flatMap_elements (elements : List Element) (start : Nat) :
    elements.foldl (fun count element => count + element.uses.length + element.drops.length) start =
      start + (elements.flatMap fun element => element.uses ++ element.drops).length := by
  induction elements generalizing start with
  | nil => simp
  | cons element elements ih =>
    rw [List.foldl_cons, ih, List.flatMap_cons, List.length_append, List.length_append]
    omega

/-- There are as many names of events as there are mentions. -/
theorem length_eventNames (g : Graph) : (eventNames g).length = mentions g := by
  rw [mentions, ← Array.foldl_toList, g.elementTable_eq, length_flatMap_elements, Nat.zero_add,
    Layout.elements, eventNames, List.flatMap_assoc]

/-- The size of a fact is the number of its names. -/
def size (fact : LiveFact) : Nat :=
  fact.1.toList.length + fact.2.toList.length

/-- The facts of liveness grow with their sizes, up to twice the mentions. -/
theorem measures_size (g : Graph) :
    Backward.Measures lattice (factsOver (eventNames g)) size (2 * mentions g) := by
  have hparts : ∀ a b : LiveFact, lattice.leq a b = true →
      a.1.toList.length ≤ b.1.toList.length ∧ a.2.toList.length ≤ b.2.toList.length :=
    fun a b hleq =>
      ⟨(List.subperm_of_subset a.1.nodup_toList (leq_iff.1 hleq .read)).length_le,
        (List.subperm_of_subset a.2.nodup_toList (leq_iff.1 hleq .drop)).length_le⟩
  refine ⟨fun a ha => ?_, fun a _ b _ hleq => ?_, fun a _ b _ hleq hnot => ?_⟩
  · have hread := length_part_le ha .read
    have hdrop := length_part_le ha .drop
    rw [length_eventNames] at hread hdrop
    simp only [Aspect.part] at hread hdrop
    unfold size
    omega
  · obtain ⟨hread, hdrop⟩ := hparts a b hleq
    exact Nat.add_le_add hread hdrop
  · obtain ⟨hread, hdrop⟩ := hparts a b hleq
    by_contra hsize
    unfold size at hsize
    have hfull : b.1.toList.length ≤ a.1.toList.length ∧ b.2.toList.length ≤ a.2.toList.length := by
      omega
    -- without more names the larger fact would say no more
    refine hnot (leq_iff.2 fun aspect v hv => ?_)
    cases aspect with
    | read => exact mem_of_length_le (leq_iff.1 hleq .read) hfull.1 hv
    | drop => exact mem_of_length_le (leq_iff.1 hleq .drop) hfull.2 hv

/-- An unlimited run of liveness comes to its end. -/
theorem work_run_ample (g : Graph) (order : Order) :
    ((analysis g).run order ((analysis g).ample (2 * mentions g))).work = [] :=
  Backward.work_run_ample (analysis_regular g) (measures_size g)
    (Graph.length_initialWork _ _ _ order)

end Liveness

end RegionInference
