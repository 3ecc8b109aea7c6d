import RegionInference.Dataflow.Postorder

/-!
# Every node is listed in post-order

A depth-first search moves nodes from the unseen ones to its stack and from there to the nodes it
has left. So a node that was unseen before a search and is seen after it has been left
(`mem_walk`), and as the searches from all nodes leave nothing unseen, the post-order lists exactly
the nodes of the graph (`mem_list`), whether the entry reaches them or not.
-/

namespace RegionInference.Postorder

variable {next : Nat → List Nat}

/-- A search sees nodes and forgets none. -/
theorem mem_of_mem_walk_snd {stack : List (Nat × List Nat)} {unseen : PointSet} {left : List Nat}
    {j : Nat} (h : j ∈ (walk next stack unseen left).2) : j ∈ unseen := by
  fun_induction walk next stack unseen left with
  | case1 => exact h
  | case2 unseen left node stack ih => exact ih h
  | case3 unseen left node i untried stack hi ih => exact (PointSet.mem_erase.1 (ih h)).1
  | case4 unseen left node i untried stack hi ih => exact ih h

/-- In the end a search has left what it had left before, the nodes of its stack, and all nodes
that it saw. -/
theorem mem_walk {stack : List (Nat × List Nat)} {unseen : PointSet} {left : List Nat} {j : Nat} :
    j ∈ (walk next stack unseen left).1 ↔ j ∈ left ∨ j ∈ stack.map Prod.fst ∨
      (j ∈ unseen ∧ j ∉ (walk next stack unseen left).2) := by
  fun_induction walk next stack unseen left with
  | case1 => simp
  | case2 unseen left node stack ih =>
    rw [ih, List.mem_cons, List.map_cons, List.mem_cons]
    constructor
    · rintro ((h | h) | h | h) <;> simp [h]
    · rintro (h | (h | h) | h) <;> simp [h]
  | case3 unseen left node i untried stack hi ih =>
    -- the node that is entered was unseen, and is seen from now on
    have hseen :
        i ∉ (walk next ((i, next i) :: (node, untried) :: stack) (unseen.erase i) left).2 :=
      fun h => (PointSet.mem_erase.1 (mem_of_mem_walk_snd h)).2 rfl
    rw [ih]
    simp only [List.map_cons, List.mem_cons, PointSet.mem_erase]
    by_cases hj : j = i
    · subst hj
      simp [hi, hseen]
    · simp [hj]
  | case4 unseen left node i untried stack hi ih =>
    rw [ih]
    simp

/-- After a search from a node the node is seen. -/
theorem mem_of_mem_visit_snd {state : List Nat × PointSet} {node j : Nat}
    (h : j ∈ (visit next state node).2) : j ∈ state.2 ∧ j ≠ node := by
  unfold visit at h
  split at h
  · exact PointSet.mem_erase.1 (mem_of_mem_walk_snd h)
  · next hnode => exact ⟨h, fun heq => hnode (heq ▸ h)⟩

/-- A search from a node leaves what it sees. -/
theorem mem_visit {state : List Nat × PointSet} {node j : Nat} :
    j ∈ (visit next state node).1 ↔
      j ∈ state.1 ∨ (j ∈ state.2 ∧ j ∉ (visit next state node).2) := by
  unfold visit
  split
  · next hnode =>
    have hseen : node ∉ (walk next [(node, next node)] (state.2.erase node) state.1).2 :=
      fun h => (PointSet.mem_erase.1 (mem_of_mem_walk_snd h)).2 rfl
    rw [mem_walk]
    by_cases hj : j = node
    · subst hj
      simp [hnode, hseen]
    · simp [hj]
  · simp

/-- Searches from nodes in turn leave only nodes unseen that were so before, and none of those they
start from. -/
theorem mem_of_mem_foldl_visit_snd {nodes : List Nat} {state : List Nat × PointSet} {j : Nat}
    (h : j ∈ (nodes.foldl (visit next) state).2) : j ∈ state.2 ∧ j ∉ nodes := by
  induction nodes generalizing state with
  | nil => exact ⟨h, List.not_mem_nil⟩
  | cons node nodes ih =>
    obtain ⟨hvisit, hnodes⟩ := ih h
    obtain ⟨hstate, hne⟩ := mem_of_mem_visit_snd hvisit
    exact ⟨hstate, fun hmem => (List.mem_cons.1 hmem).elim hne hnodes⟩

/-- Searches from nodes in turn list what they see, behind what was listed. -/
theorem mem_foldl_visit {nodes : List Nat} {state : List Nat × PointSet} {j : Nat} :
    j ∈ (nodes.foldl (visit next) state).1 ↔
      j ∈ state.1 ∨ (j ∈ state.2 ∧ j ∉ (nodes.foldl (visit next) state).2) := by
  induction nodes generalizing state with
  | nil => simp
  | cons node nodes ih =>
    have hshrinks : j ∈ (nodes.foldl (visit next) (visit next state node)).2 →
        j ∈ (visit next state node).2 := fun h => (mem_of_mem_foldl_visit_snd h).1
    have hvisit : j ∈ (visit next state node).2 → j ∈ state.2 :=
      fun h => (mem_of_mem_visit_snd h).1
    rw [List.foldl_cons, ih, mem_visit]
    constructor
    · rintro ((h | ⟨h, hseen⟩) | ⟨h, hseen⟩)
      · exact .inl h
      · exact .inr ⟨h, fun hlater => hseen (hshrinks hlater)⟩
      · exact .inr ⟨hvisit h, hseen⟩
    · rintro (h | ⟨h, hseen⟩)
      · exact .inl (.inl h)
      · by_cases hmid : j ∈ (visit next state node).2
        · exact .inr ⟨hmid, hseen⟩
        · exact .inl (.inr ⟨h, hmid⟩)

/-- The post-order lists the nodes of the graph, and nothing else. -/
theorem mem_list {count entry j : Nat} : j ∈ list next count entry ↔ j < count := by
  rw [list, List.mem_reverse, mem_foldl_visit, PointSet.mem_below]
  constructor
  · rintro (h | h)
    · cases h
    · exact h.1
  · intro hj
    refine .inr ⟨hj, fun h => (mem_of_mem_foldl_visit_snd h).2 ?_⟩
    exact List.mem_cons_of_mem _ (List.mem_range.2 hj)

end RegionInference.Postorder
