import Mathlib
import RegionInference.Proofs.Dominators

/-!
# Which edges lead back

An edge between blocks is a back edge if its target is in the set of dominators of its source. Those
sets speak of the ways from every root, so a way that comes in from outside, from a block that no
block jumps to, can make an edge of a loop a plain jump. `Graph.edge_kinds_exact` says when it does:
an edge is a back edge iff every way from the entry to its source leads through its target
(`Graph.Dominates`) and no way from outside comes around it (`Graph.Bypassed`). Blocks that can only
be reached from each other have no influence.
-/

namespace RegionInference

/-- What the edges of a block are that do not lead back. -/
def Block.forwardKind (block : Block) : EdgeKind :=
  if block.terminator.isSwitch then .switchCase else .goto

/-- What a terminator calls its edges is never a back edge. -/
theorem Block.forwardKind_ne (block : Block) : block.forwardKind ≠ .backEdge := by
  unfold forwardKind
  split
  · simp
  · simp

namespace Graph

variable {g : Graph} {a n : String} {e : Edge}

/-! ### Ways from the entry and ways from outside -/

/-- Every way from the entry to a block leads through the other one. -/
def Dominates (g : Graph) (name target : String) : Prop :=
  ∀ path, g.Way g.entry path target → name ∈ path

/-- A way to a block that starts at a block other than the entry, to which no block jumps, does not
lead through the other one. -/
def Bypassed (g : Graph) (name target : String) : Prop :=
  ∃ root path, g.IsRoot root ∧ root ≠ g.entry ∧ g.Way root path target ∧ name ∉ path

/-- A block is on every way to another one iff it is on those from the entry, and no other root has
a way around it. -/
theorem onEveryWay_iff : g.OnEveryWay a n ↔ g.Dominates a n ∧ ¬ g.Bypassed a n := by
  constructor
  · intro h
    refine ⟨fun path => h g.entry path g.isRoot_entry, ?_⟩
    rintro ⟨root, path, hroot, -, hway, hmem⟩
    exact hmem (h root path hroot hway)
  · rintro ⟨hentry, hnone⟩ root path hroot hway
    by_cases heq : root = g.entry
    · subst heq
      exact hentry path hway
    · by_contra hmem
      exact hnone ⟨root, path, hroot, heq, hway, hmem⟩

/-- A way starts with its first block. -/
theorem Way.first_mem {first : String} {path : List String} (h : g.Way first path n) :
    first ∈ path := by
  induction h with
  | here => simp
  | jump _ _ ih => simp [ih]

/-! ### The list of edges -/

/-- Blocks of a graph with one name are one block. -/
theorem eq_of_name_eq {block other : Block} (h : block ∈ g.blocks) (h' : other ∈ g.blocks)
    (hname : block.name = other.name) : block = other := by
  obtain ⟨i, hi⟩ := List.mem_iff_getElem?.1 h
  obtain ⟨j, hj⟩ := List.mem_iff_getElem?.1 h'
  have hindex := blockIndex?_eq_some.2 ⟨block, hi, hname⟩
  rw [blockIndex?_eq_some.2 ⟨other, hj, rfl⟩] at hindex
  cases hindex
  exact Option.some.inj (hi.symm.trans hj)

/-- The test for a back edge. -/
theorem any_mem_dominatorSets {target : String} {i : Nat} (hn : g.blockIndex? n = some i)
    (htarget : target ∈ g.names) :
    (g.blockIndex? target).any (· ∈ g.dominatorSets.getD i ∅) = true ↔ g.OnEveryWay target n := by
  obtain ⟨k, hk⟩ := mem_names_iff.1 htarget
  rw [hk, Option.any_some, decide_eq_true_eq, mem_dominatorSets hn hk]

/-- An edge of the list belongs to a jump, and its kind is decided by the ways to its source. -/
theorem exists_block_of_mem_edges (h : e ∈ g.edges) :
    ∃ block ∈ g.blocks, block.name = e.source ∧ e.target ∈ block.successors ∧
      (g.OnEveryWay e.target e.source → e.kind = .backEdge) ∧
      (¬ g.OnEveryWay e.target e.source → e.kind = block.forwardKind) := by
  obtain ⟨⟨block, set⟩, hpair, he⟩ := List.mem_flatMap.1 h
  obtain ⟨target, htarget, rfl⟩ := List.mem_map.1 he
  rw [List.mem_eraseDups] at htarget
  obtain ⟨i, hi⟩ := List.mem_iff_getElem?.1 hpair
  obtain ⟨hblock, hset⟩ := List.getElem?_zip_eq_some.1 hi
  have hmem : block ∈ g.blocks := List.mem_of_getElem? hblock
  have hgetD : g.dominatorSets.getD i ∅ = set := by
    rw [List.getD_eq_getElem?_getD, hset]
    rfl
  have hback := any_mem_dominatorSets (blockIndex?_eq_some.2 ⟨block, hblock, rfl⟩)
    (g.targets_mem block hmem target htarget)
  rw [hgetD] at hback
  refine ⟨block, hmem, rfl, htarget, fun hways => if_pos (hback.2 hways), fun hways => ?_⟩
  exact if_neg fun hany => hways (hback.1 hany)

/-- Every jump is an edge. -/
theorem exists_edge_of_jumps {u v : String} (h : g.Jumps u v) :
    ∃ e ∈ g.edges, e.source = u ∧ e.target = v := by
  obtain ⟨block, hblock, rfl, hnext⟩ := h
  obtain ⟨i, hi⟩ := List.mem_iff_getElem?.1 hblock
  have hlt : i < g.dominatorSets.length := by
    rw [length_dominatorSets]
    exact (List.getElem?_eq_some_iff.1 hi).1
  have hpair : (block, g.dominatorSets[i]) ∈ g.blocks.zip g.dominatorSets := by
    refine List.mem_iff_getElem?.2 ⟨i, List.getElem?_zip_eq_some.2 ⟨hi, ?_⟩⟩
    exact List.getElem?_eq_getElem hlt
  refine ⟨_, List.mem_flatMap.2 ⟨_, hpair, List.mem_map.2 ⟨v, ?_, rfl⟩⟩, rfl, rfl⟩
  exact List.mem_eraseDups.2 hnext

/-- An edge is a back edge iff its target is on every way to its source. -/
theorem kind_eq_backEdge_iff (h : e ∈ g.edges) :
    e.kind = .backEdge ↔ g.OnEveryWay e.target e.source := by
  obtain ⟨block, -, -, -, hback, hforward⟩ := exists_block_of_mem_edges h
  constructor
  · intro hkind
    by_contra hways
    rw [hforward hways] at hkind
    exact block.forwardKind_ne hkind
  · exact hback

/-- Other edges have the kind that the terminator gives them. -/
theorem kind_eq_forwardKind {block : Block} (h : e ∈ g.edges) (hblock : block ∈ g.blocks)
    (hname : block.name = e.source) (hkind : e.kind ≠ .backEdge) : e.kind = block.forwardKind := by
  obtain ⟨other, hother, hname', -, -, hforward⟩ := exists_block_of_mem_edges h
  obtain rfl := eq_of_name_eq hblock hother (hname.trans hname'.symm)
  exact hforward fun hways => hkind ((kind_eq_backEdge_iff h).2 hways)

/-- There is an edge for every jump. It is a back edge iff its target dominates its source and is
not bypassed by a way from outside; otherwise it is the case of a switch or a plain jump, as the
terminator of its source says. So the back edges are the edges to a dominator just as far as no
dominator is bypassed. -/
theorem edge_kinds_exact (g : Graph) :
    (∀ u v, g.Jumps u v ↔ ∃ e ∈ g.edges, e.source = u ∧ e.target = v) ∧
    ∀ e ∈ g.edges,
      (e.kind = .backEdge ↔
        g.Dominates e.target e.source ∧ ¬ g.Bypassed e.target e.source) ∧
      (∀ block ∈ g.blocks, block.name = e.source → e.kind ≠ .backEdge →
        e.kind = if block.terminator.isSwitch then .switchCase else .goto) ∧
      ((e.kind = .backEdge ↔ g.Dominates e.target e.source) ↔
        (g.Dominates e.target e.source → ¬ g.Bypassed e.target e.source)) := by
  refine ⟨fun u v => ⟨exists_edge_of_jumps, ?_⟩, fun e he => ?_⟩
  · rintro ⟨e, he, rfl, rfl⟩
    obtain ⟨block, hblock, hname, htarget, -⟩ := exists_block_of_mem_edges he
    exact ⟨block, hblock, hname, htarget⟩
  · have hkind := (kind_eq_backEdge_iff he).trans onEveryWay_iff
    refine ⟨hkind, fun block hblock hname => kind_eq_forwardKind he hblock hname, ?_⟩
    rw [hkind, and_iff_left_iff_imp]

end Graph

/-! ### Loops with and without a way from outside -/

namespace Sample

/-- The entry `E` and `A` make a loop that is left at `R`. The block `Y` jumps into it, but is only
reached from itself. -/
def leftLoop : Graph :=
  .build [
    { name := "E", terminator := .switch (.const "1") ["A", "R"] },
    { name := "A", terminator := .goto ["E"] },
    { name := "R" },
    { name := "Y", terminator := .goto ["Y", "A"] }] "E" (by decide) (by decide) (by decide)

/-- In the sample, nothing is bypassed. -/
theorem not_bypassed_leftLoop (name target : String) : ¬ leftLoop.Bypassed name target := by
  rintro ⟨root, _, hroot, hne, -⟩
  have hentry : ∀ name ∈ leftLoop.names, leftLoop.IsRoot name → name = leftLoop.entry := by decide
  exact hne (hentry root hroot.1 hroot)

end Sample

/-- The loop is closed by a back edge, whatever `Y` does, and it is left by a case of the switch. -/
theorem Graph.loop_closed_by_back_edge :
    (∃ e ∈ Sample.leftLoop.edges, e.source = "A" ∧ e.target = "E" ∧ e.kind = .backEdge) ∧
      ∃ e ∈ Sample.leftLoop.edges, e.source = "E" ∧ e.target = "R" ∧ e.kind = .switchCase := by
  obtain ⟨hjumps, hkinds⟩ := Sample.leftLoop.edge_kinds_exact
  constructor
  · obtain ⟨e, he, hsource, htarget⟩ := (hjumps "A" "E").1 (by decide)
    refine ⟨e, he, hsource, htarget, (hkinds e he).1.2 ⟨?_, Sample.not_bypassed_leftLoop _ _⟩⟩
    intro path hway
    rw [htarget]
    exact hway.first_mem
  · obtain ⟨e, he, hsource, htarget⟩ := (hjumps "E" "R").1 (by decide)
    obtain ⟨hback, hforward, -⟩ := hkinds e he
    refine ⟨e, he, hsource, htarget, hforward _ List.mem_cons_self hsource.symm fun hkind => ?_⟩
    have hdominates := (hback.1 hkind).1
    rw [hsource, htarget] at hdominates
    exact absurd (hdominates _ .here) (by decide)

/-- With `X` in front of the loop, the edge that closes it counts as a plain jump, although every
way from the entry to its source leads through its target. -/
theorem Graph.stray_block_hides_back_edge :
    (∃ path, Sample.strayLoop.Way Sample.strayLoop.entry path "A") ∧
      (∀ path, Sample.strayLoop.Way Sample.strayLoop.entry path "A" → "E" ∈ path) ∧
      ∃ e ∈ Sample.strayLoop.edges, e.source = "A" ∧ e.target = "E" ∧ e.kind = .goto := by
  refine ⟨⟨_, .jump .here (by decide)⟩, fun path hway => hway.first_mem, ?_⟩
  obtain ⟨e, he, hsource, htarget⟩ := exists_edge_of_jumps (g := Sample.strayLoop) (u := "A")
    (v := "E") (by decide)
  refine ⟨e, he, hsource, htarget, ?_⟩
  have hblock : (⟨"A", [], .goto ["E"]⟩ : Block) ∈ Sample.strayLoop.blocks :=
    List.mem_cons_of_mem _ List.mem_cons_self
  refine kind_eq_forwardKind he hblock hsource.symm fun hkind => ?_
  have hways := (kind_eq_backEdge_iff he).1 hkind
  rw [hsource, htarget] at hways
  exact absurd (hways "X" _ (by decide) Sample.way_of_stray) (by decide)

end RegionInference
