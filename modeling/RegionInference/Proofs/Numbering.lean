import Mathlib
import RegionInference.Proofs.Violations

/-!
# Numbers of points and tables of edges

The points of a list of blocks are those that a block has room for (`Layout.Holds`). A graph numbers
them block after block, and everything that is read through the numbers fits together
(`Graph.Consistent`): a point and its number determine each other, the points that may follow and
those that may come before are two views of one relation, and sets of numbers stand for sets of
points. Blocks make a graph iff they are well-formed (`Layout.WellFormed`), and every graph that
they make is consistent (`Graph.numbering_consistent`).
-/

namespace RegionInference

namespace Layout

/-- A point stands in one of some blocks. -/
def Holds (blocks : List Block) (point : Point) : Prop :=
  ∃ block ∈ blocks, block.name = point.block ∧ 0 ≤ point.index ∧ point.index < block.size

instance (blocks : List Block) (point : Point) : Decidable (Holds blocks point) :=
  inferInstanceAs (Decidable (∃ block ∈ blocks,
    block.name = point.block ∧ 0 ≤ point.index ∧ point.index < block.size))

/-- Blocks make a graph: there are some, no two have one name, and the chosen entry and all targets
are among them. -/
structure WellFormed (blocks : List Block) (chosen : Option String) : Prop where
  /-- There is a block. -/
  nonempty : blocks ≠ []
  /-- No two blocks have one name. -/
  nodup : (names blocks).Nodup
  /-- The chosen entry is a block. -/
  entry_mem : ∀ entry, chosen = some entry → entry ∈ names blocks
  /-- All targets are blocks. -/
  targets_mem : ∀ block ∈ blocks, ∀ target ∈ block.successors, target ∈ names blocks

/-- If all targets are blocks, no missing one is found. -/
theorem unknownTarget?_eq_none {blocks : List Block}
    (h : ∀ block ∈ blocks, ∀ target ∈ block.successors, target ∈ names blocks) :
    unknownTarget? blocks = none := by
  refine List.findSome?_eq_none_iff.2 fun block hblock => ?_
  rw [Option.map_eq_none_iff, List.find?_eq_none]
  intro target htarget
  simpa using h block hblock target htarget

/-! ### The pass that finds what comes before -/

/-- Noting a number puts it at the end of the rows of the given points, and nowhere else. -/
theorem getElem?_noteIn {rows : List (List Nat)} {points : List Nat} (hnodup : points.Nodup)
    {i s : Nat} : (noteIn rows points i)[s]? =
      rows[s]?.map fun row => if s ∈ points then row ++ [i] else row := by
  unfold noteIn
  induction points generalizing rows with
  | nil => simp
  | cons point points ih =>
    obtain ⟨hpoint, hnodup⟩ := List.nodup_cons.1 hnodup
    rw [List.foldl_cons, ih hnodup, List.getElem?_modify]
    by_cases hs : point = s
    · -- the row is changed now, and not again
      subst hs
      cases rows[point]? <;> simp [hpoint]
    · cases rows[s]? <;> simp [hs, Ne.symm hs]

/-- A pass over some points adds to each row those that its point may follow, in the order of the
pass. -/
theorem getElem?_pass {passed : List (List Nat × Nat)} (hnodup : ∀ row ∈ passed, row.1.Nodup)
    {rows : List (List Nat)} {s : Nat} :
    (passed.foldl (fun rows row => noteIn rows row.1 row.2) rows)[s]? =
      rows[s]?.map (· ++ passed.filterMap fun row => if s ∈ row.1 then some row.2 else none) := by
  induction passed generalizing rows with
  | nil => simp
  | cons row passed ih =>
    rw [List.foldl_cons, ih fun other hother => hnodup other (List.mem_cons_of_mem _ hother),
      getElem?_noteIn (hnodup row List.mem_cons_self), List.filterMap_cons]
    by_cases hs : s ∈ row.1
    · cases rows[s]? <;> simp [hs]
    · cases rows[s]? <;> simp [hs]

/-- The numbers that may come before a point are those of the rows that have the point. -/
theorem getElem?_predecessors {successors : List (List Nat)}
    (hnodup : ∀ row ∈ successors, row.Nodup) {s : Nat} :
    (predecessors successors)[s]? = if s < successors.length then
      some (successors.zipIdx.filterMap fun row => if s ∈ row.1 then some row.2 else none)
    else none := by
  have hrows : ∀ row ∈ successors.zipIdx, row.1.Nodup :=
    fun row hrow => hnodup row.1 (List.fst_mem_of_mem_zipIdx hrow)
  rw [predecessors, getElem?_pass hrows, List.getElem?_replicate]
  split <;> simp

end Layout

namespace Graph

variable {g : Graph} {blocks : List Block} {chosen : Option String} {point : Point} {i j s : Nat}

/-! ### Building -/

/-- A graph has the blocks it is made of, and these are well-formed. -/
theorem of_ofBlocks (h : ofBlocks blocks chosen = .ok g) :
    g.blocks = blocks ∧ Layout.WellFormed blocks chosen := by
  unfold ofBlocks at h
  split at h
  · cases h
  · dsimp only at h
    split at h
    · cases h
    · next hdup =>
      split at h
      · next hentry =>
        split at h
        · cases h
        · next htarget =>
          cases h
          refine ⟨rfl, by simp, (nodup_of_repeatedName? hdup).1, ?_, Layout.targets_known htarget⟩
          rintro entry rfl
          exact hentry
      · cases h

/-- Well-formed blocks make a graph. -/
theorem exists_ofBlocks (h : Layout.WellFormed blocks chosen) :
    ∃ g, ofBlocks blocks chosen = .ok g := by
  unfold ofBlocks
  split
  · exact absurd rfl h.nonempty
  · dsimp only
    split
    · next block hdup =>
      rw [repeatedName?_eq_none h.nodup (by simp)] at hdup
      cases hdup
    · split
      · split
        · next block target htarget =>
          rw [Layout.unknownTarget?_eq_none h.targets_mem] at htarget
          cases htarget
        · exact ⟨_, rfl⟩
      · next hentry =>
        refine absurd ?_ hentry
        cases chosen with
        | none => simp [Layout.names]
        | some entry => exact h.entry_mem entry rfl

/-! ### Points and their numbers -/

/-- A number has a point iff it is not negative and stands in the table of points. -/
theorem pointAt_eq_ok {n : Int} :
    g.pointAt n = .ok point ↔ 0 ≤ n ∧ g.pointAt? n.toNat = some point := by
  unfold pointAt
  by_cases hn : 0 ≤ n
  · rw [if_pos hn]
    cases g.pointAt? n.toNat <;> simp [hn]
  · simp [hn]

/-- A number is that of a point iff it is below the size. -/
theorem exists_pointAt {n : Int} : (∃ point, g.pointAt n = .ok point) ↔ 0 ≤ n ∧ n < g.size := by
  constructor
  · rintro ⟨point, hpoint⟩
    obtain ⟨hn, hpoint⟩ := pointAt_eq_ok.1 hpoint
    have hlt := lt_size_of_index? (index?_eq_some.2 hpoint)
    omega
  · rintro ⟨hn, hlt⟩
    obtain ⟨point, hpoint⟩ := exists_point (show n.toNat < g.size by omega)
    exact ⟨point, pointAt_eq_ok.2 ⟨hn, index?_eq_some.1 hpoint⟩⟩

/-- The number of a point counts the points of the blocks before its own. -/
theorem index_of_split {before after : List Block} {block : Block}
    (hsplit : g.blocks = before ++ block :: after) (hj : j < block.size) :
    g.index ⟨block.name, j⟩ = .ok ((before.map Block.size).sum + j) := by
  have hat : g.At before.length j block ((before.map Block.size).sum + j) := by
    refine ⟨by simp [hsplit], hj, ?_⟩
    simp [Layout.offset, hsplit]
  rw [index_eq_ok, index?_eq_some]
  exact hat.pointAt?

/-- A point has a number iff it stands in a block. -/
theorem exists_index : (∃ i, g.index point = .ok i) ↔ Layout.Holds g.blocks point := by
  constructor
  · rintro ⟨i, hi⟩
    rw [index_eq_ok] at hi
    obtain ⟨k, j, block, hat⟩ := exists_at (lt_size_of_index? hi)
    rw [index?_eq_some, hat.pointAt?] at hi
    obtain rfl := Option.some.inj hi
    have hlt := hat.lt_size
    exact ⟨block, List.mem_of_getElem? hat.block_eq, rfl, by simp, by simpa using hlt⟩
  · rintro ⟨block, hblock, hname, hnonneg, hlt⟩
    obtain ⟨before, after, hsplit⟩ := List.append_of_mem hblock
    obtain ⟨name, index⟩ := point
    obtain ⟨j, rfl⟩ := Int.eq_ofNat_of_zero_le hnonneg
    obtain rfl : block.name = name := hname
    exact ⟨_, index_of_split hsplit (by simpa using hlt)⟩

/-- The place of a number, from the point that it is the number of. -/
theorem exists_at_of_index {block : Block} (hblock : block ∈ g.blocks)
    (hindex : g.index ⟨block.name, j⟩ = .ok i) : ∃ k, g.At k j block i := by
  rw [index_eq_ok] at hindex
  obtain ⟨k, j', other, hat⟩ := exists_at (lt_size_of_index? hindex)
  rw [index?_eq_some, hat.pointAt?] at hindex
  obtain ⟨hname, hj⟩ := Point.mk.inj (Option.some.inj hindex)
  obtain rfl : other = block := List.inj_on_of_nodup_map g.names_nodup
    (List.mem_of_getElem? hat.block_eq) hblock hname
  obtain rfl : j' = j := Int.ofNat.inj hj
  exact ⟨k, hat⟩

/-! ### Edges -/

/-- What may follow a point of a block: the next point after a statement, the first points of the
targets after the terminator. -/
theorem mem_succ_of_index {block : Block} (hblock : block ∈ g.blocks)
    (hindex : g.index ⟨block.name, j⟩ = .ok i) :
    s ∈ g.succ i ↔ (j < block.statements.length ∧ s = i + 1) ∨
      (j = block.statements.length ∧ ∃ target ∈ block.successors, g.index ⟨target, 0⟩ = .ok s) := by
  obtain ⟨k, hat⟩ := exists_at_of_index hblock hindex
  rw [hat.mem_succ]
  refine or_congr_right (and_congr_right fun _ => ?_)
  constructor
  · rintro ⟨k', target, htarget, hname, rfl⟩
    refine ⟨target.name, hname, index_eq_ok.2 (index?_eq_some.2 ?_)⟩
    exact (at_offset htarget).pointAt?
  · rintro ⟨name, hname, hstart⟩
    obtain ⟨target, htarget, rfl⟩ := List.mem_map.1 (g.targets_mem block hblock name hname)
    obtain ⟨k', hat'⟩ := exists_at_of_index htarget hstart
    exact ⟨k', target, hat'.block_eq, hname, hat'.number⟩

/-- What may follow a point is in its row of the table. -/
theorem mem_succ_iff : s ∈ g.succ i ↔
    ∃ row, (Layout.successors g.blocks 0 g.blocks)[i]? = some row ∧ s ∈ row := by
  rw [succ, ← Array.getElem?_toList, g.succTable_eq]
  cases (Layout.successors g.blocks 0 g.blocks)[i]? <;> simp

/-- What may follow a point is listed in increasing order. -/
theorem pairwise_succ (i : Nat) : (g.succ i).Pairwise (· < ·) := by
  by_cases hi : i < g.size
  · obtain ⟨k, j, block, hat⟩ := exists_at hi
    rw [hat.succ_eq]
    split
    · exact List.pairwise_singleton _ _
    · exact PointSet.pairwise_toList _
  · have hnil : g.succ i = [] :=
      List.eq_nil_iff_forall_not_mem.2 fun s hs => hi (lt_size_of_mem_succ hs)
    rw [hnil]
    exact List.Pairwise.nil

/-- No row of the table has a number twice. -/
theorem nodup_row : ∀ row ∈ Layout.successors g.blocks 0 g.blocks, row.Nodup := by
  intro row hrow
  obtain ⟨i, hi⟩ := List.mem_iff_getElem?.1 hrow
  have hsucc : g.succ i = row := by
    rw [succ, ← Array.getElem?_toList, g.succTable_eq, hi, Option.getD_some]
  exact hsucc ▸ (pairwise_succ i).imp Nat.ne_of_lt

/-- The points that may come before a point are those whose rows have it. -/
theorem pred_eq (s : Nat) : g.pred s = if s < g.size then
    (Layout.successors g.blocks 0 g.blocks).zipIdx.filterMap
      fun row => if s ∈ row.1 then some row.2 else none
    else [] := by
  have hlength : (Layout.successors g.blocks 0 g.blocks).length = g.size := by
    rw [Layout.length_successors, size_eq]
  rw [pred, ← Array.getElem?_toList, g.predTable_eq, Layout.getElem?_predecessors nodup_row,
    hlength]
  split <;> rfl

/-- The points that may come before a point are those that it may follow. -/
theorem mem_pred : i ∈ g.pred s ↔ s ∈ g.succ i := by
  rw [pred_eq]
  split
  · rw [mem_succ_iff, List.mem_filterMap]
    constructor
    · rintro ⟨⟨row, j⟩, hrow, hj⟩
      obtain ⟨hmem, heq⟩ := Option.ite_none_right_eq_some.1 hj
      obtain rfl : j = i := Option.some.inj heq
      exact ⟨row, List.mem_zipIdx_iff_getElem?.1 hrow, hmem⟩
    · rintro ⟨row, hrow, hmem⟩
      exact ⟨(row, i), List.mem_zipIdx_iff_getElem?.2 hrow, if_pos hmem⟩
  · next hs =>
    constructor
    · exact fun h => absurd h List.not_mem_nil
    · exact fun h => absurd (succ_lt_size h) hs

/-- What may come before a point is listed in increasing order. -/
theorem pairwise_pred (s : Nat) : (g.pred s).Pairwise (· < ·) := by
  rw [pred_eq]
  split
  · have hrows : (Layout.successors g.blocks 0 g.blocks).zipIdx.Pairwise fun row row' =>
        row.2 < row'.2 := by
      rw [← List.pairwise_map, List.zipIdx_map_snd]
      exact List.pairwise_lt_range'
    refine hrows.filterMap _ fun row row' hlt j hj j' hj' => ?_
    obtain rfl := Option.some.inj (Option.ite_none_right_eq_some.1 hj).2
    obtain rfl := Option.some.inj (Option.ite_none_right_eq_some.1 hj').2
    exact hlt
  · exact List.Pairwise.nil

/-! ### Sets of points -/

/-- The points of a set are listed in the order of their numbers. -/
theorem pairwise_pointsOf {set : PointSet} {points : List Point}
    (h : g.pointsOf set = .ok points) :
    points.Pairwise fun p q => ∃ i j, g.index p = .ok i ∧ g.index q = .ok j ∧ i < j := by
  obtain ⟨numbers, hsorted, hpoints, -⟩ := lists_pointsOf h
  simp only [index_eq_ok]
  have hmapped : (points.map g.index?).Pairwise fun a b =>
      ∃ i j, a = some i ∧ b = some j ∧ i < j := by
    rw [hpoints, List.pairwise_map]
    exact hsorted.imp fun hlt => ⟨_, _, rfl, rfl, hlt⟩
  exact List.pairwise_map.1 hmapped

/-- A set is made of the points that it lists. -/
theorem setOf_pointsOf {set : PointSet} {points : List Point} (h : g.pointsOf set = .ok points) :
    g.setOf points = .ok set := by
  have hknown : ∀ point ∈ points, ∃ i, g.index? point = some i := by
    intro point hpoint
    obtain ⟨i, -, hindex⟩ := (mem_pointsOf h).1 hpoint
    exact ⟨i, hindex⟩
  obtain ⟨made, hmade⟩ := exists_setOf hknown
  have hsame : made = set := by
    refine PointSet.ext fun i => ?_
    rw [(setOf_eq_ok hmade).2 i]
    constructor
    · rintro ⟨point, hpoint, hindex⟩
      obtain ⟨j, hj, hindex'⟩ := (mem_pointsOf h).1 hpoint
      rwa [Option.some.inj (hindex.symm.trans hindex')]
    · intro hi
      obtain ⟨point, hindex⟩ := exists_point (lt_size_of_pointsOf h i hi)
      exact ⟨point, (mem_pointsOf h).2 ⟨i, hi, hindex⟩, hindex⟩
  rw [hmade, hsame]

/-- The numbers, the edges and the sets of a graph are those of some blocks, and fit together. -/
structure Consistent (g : Graph) (blocks : List Block) : Prop where
  /-- There are as many points as the blocks have. -/
  size_eq : g.size = (blocks.map Block.size).sum
  /-- The points with numbers are those of the blocks. -/
  exists_index : ∀ point, (∃ i, g.index point = .ok i) ↔ Layout.Holds blocks point
  /-- The numbers with points are those below the size. -/
  exists_pointAt : ∀ n : Int, (∃ point, g.pointAt n = .ok point) ↔ 0 ≤ n ∧ n < g.size
  /-- A point has a number iff the number has the point. -/
  inverse : ∀ (point : Point) (i : Nat), g.index point = .ok i ↔ g.pointAt i = .ok point
  /-- The number of a point counts the points of the blocks before, and the positions before it. -/
  index_eq : ∀ before block after, blocks = before ++ block :: after →
    ∀ j : Nat, j < block.size →
      g.index ⟨block.name, j⟩ = .ok ((before.map Block.size).sum + j)
  /-- A statement is followed by the next point, a terminator by the first points of its targets. -/
  mem_succ : ∀ block ∈ blocks, ∀ j i : Nat, g.index ⟨block.name, j⟩ = .ok i → ∀ s,
    s ∈ g.succ i ↔ (j < block.statements.length ∧ s = i + 1) ∨
      (j = block.statements.length ∧ ∃ target ∈ block.successors, g.index ⟨target, 0⟩ = .ok s)
  /-- What may follow a point is what the point may come before. -/
  mem_pred : ∀ i s, s ∈ g.succ i ↔ i ∈ g.pred s
  /-- Both are listed in increasing order, each number once. -/
  increasing : ∀ i, (g.succ i).Pairwise (· < ·) ∧ (g.pred i).Pairwise (· < ·)
  /-- The set of some points lists these points, each once and in the order of their numbers. -/
  points_of_set : ∀ points, (∀ point ∈ points, Layout.Holds blocks point) →
    ∃ set listed, g.setOf points = .ok set ∧ g.pointsOf set = .ok listed ∧
      (∀ point, point ∈ listed ↔ point ∈ points) ∧
      listed.Pairwise fun p q => ∃ i j, g.index p = .ok i ∧ g.index q = .ok j ∧ i < j
  /-- A set of numbers below the size is the set of the points it lists. -/
  set_of_points : ∀ set : PointSet, set.bits < 2 ^ g.size →
    ∃ listed, g.pointsOf set = .ok listed ∧ g.setOf listed = .ok set

/-- The set of some points lists the same points. -/
theorem exists_setOf_mem_pointsOf {points : List Point}
    (h : ∀ point ∈ points, Layout.Holds g.blocks point) :
    ∃ set listed, g.setOf points = .ok set ∧ g.pointsOf set = .ok listed ∧
      ∀ point, point ∈ listed ↔ point ∈ points := by
  have hknown : ∀ point ∈ points, ∃ i, g.index? point = some i := by
    intro point hpoint
    obtain ⟨i, hindex⟩ := exists_index.2 (h point hpoint)
    exact ⟨i, index_eq_ok.1 hindex⟩
  obtain ⟨set, hset⟩ := exists_setOf hknown
  have hgraph : ∀ i ∈ set, i < g.size := by
    intro i hi
    obtain ⟨point, -, hindex⟩ := ((setOf_eq_ok hset).2 i).1 hi
    exact lt_size_of_index? hindex
  obtain ⟨listed, hlisted⟩ := exists_pointsOf hgraph
  refine ⟨set, listed, hset, hlisted, fun point => ?_⟩
  rw [mem_pointsOf hlisted]
  constructor
  · rintro ⟨i, hi, hindex⟩
    obtain ⟨other, hother, hindex'⟩ := ((setOf_eq_ok hset).2 i).1 hi
    rw [index?_eq_some] at hindex hindex'
    rwa [Option.some.inj (hindex.symm.trans hindex')]
  · intro hpoint
    obtain ⟨i, hindex⟩ := hknown point hpoint
    exact ⟨i, ((setOf_eq_ok hset).2 i).2 ⟨point, hpoint, hindex⟩, hindex⟩

/-- Every graph is consistent with its blocks. -/
theorem consistent (g : Graph) : g.Consistent g.blocks where
  size_eq := g.size_eq
  exists_index _ := exists_index
  exists_pointAt _ := exists_pointAt
  inverse point i := by
    rw [index_eq_ok, index?_eq_some, pointAt_eq_ok]
    simp
  index_eq _ _ _ hsplit _ hj := index_of_split hsplit hj
  mem_succ _ hblock _ _ hindex _ := mem_succ_of_index hblock hindex
  mem_pred _ _ := mem_pred.symm
  increasing i := ⟨pairwise_succ i, pairwise_pred i⟩
  points_of_set points h := by
    obtain ⟨set, listed, hset, hlisted, hmem⟩ := exists_setOf_mem_pointsOf h
    exact ⟨set, listed, hset, hlisted, hmem, pairwise_pointsOf hlisted⟩
  set_of_points set hbits := by
    have hgraph : ∀ i ∈ set, i < g.size := by
      intro i hi
      by_contra hlarge
      have hsmall : set.bits < 2 ^ i :=
        hbits.trans_le (Nat.pow_le_pow_right (by decide) (Nat.le_of_not_lt hlarge))
      rw [PointSet.mem_def, Nat.testBit_lt_two_pow hsmall] at hi
      cases hi
    obtain ⟨listed, hlisted⟩ := exists_pointsOf hgraph
    exact ⟨listed, hlisted, setOf_pointsOf hlisted⟩

/-- **Numbering.** Blocks make a graph iff they are well-formed. The graph has these blocks, and its
numbers, edges and sets are consistent with them. -/
theorem numbering_consistent (blocks : List Block) (chosen : Option String) :
    ((∃ g, ofBlocks blocks chosen = .ok g) ↔ Layout.WellFormed blocks chosen) ∧
    ∀ g, ofBlocks blocks chosen = .ok g → g.blocks = blocks ∧ g.Consistent blocks := by
  refine ⟨⟨fun ⟨_, h⟩ => (of_ofBlocks h).2, exists_ofBlocks⟩, fun g h => ?_⟩
  obtain ⟨rfl, -⟩ := of_ofBlocks h
  exact ⟨rfl, g.consistent⟩

/-- The sample blocks, entered at their loop: the jump of the last block back to itself is found
from both sides, and a list that repeats a point has the set of its two points. -/
theorem loops_numbered : Layout.WellFormed Sample.blocks (some "B") ∧
    ∃ g, ofBlocks Sample.blocks (some "B") = .ok g ∧
      g.index ⟨"D", 1⟩ = .ok 8 ∧ 7 ∈ g.succ 8 ∧ 8 ∈ g.pred 7 ∧
      ∃ set listed, g.setOf [⟨"D", 1⟩, ⟨"A", 0⟩, ⟨"D", 1⟩] = .ok set ∧ g.pointsOf set = .ok listed ∧
        ∀ point, point ∈ listed ↔ point ∈ [⟨"D", 1⟩, ⟨"A", 0⟩, (⟨"D", 1⟩ : Point)] := by
  have hwell : Layout.WellFormed Sample.blocks (some "B") :=
    ⟨by decide, by decide, by rintro _ ⟨⟩; decide, by decide⟩
  obtain ⟨hmake, hconsistent⟩ := numbering_consistent Sample.blocks (some "B")
  obtain ⟨g, hg⟩ := hmake.2 hwell
  obtain ⟨-, h⟩ := hconsistent g hg
  have hsplit : Sample.blocks = Sample.blocks.take 3 ++
      ⟨"D", [.use [.copy ⟨"p", [.deref]⟩]], .goto ["D"]⟩ :: [] := rfl
  have hlast : g.index ⟨"D", 1⟩ = .ok 8 := h.index_eq _ _ _ hsplit 1 (by decide)
  have hfirst : g.index ⟨"D", 0⟩ = .ok 7 := h.index_eq _ _ _ hsplit 0 (by decide)
  have hjump : 7 ∈ g.succ 8 :=
    (h.mem_succ _ (List.mem_of_getLast? rfl) 1 8 hlast 7).2 (.inr ⟨rfl, "D", by decide, hfirst⟩)
  refine ⟨hwell, g, hg, hlast, hjump, (h.mem_pred 8 7).1 hjump, ?_⟩
  obtain ⟨set, listed, hset, hlisted, hmem, -⟩ :=
    h.points_of_set [⟨"D", 1⟩, ⟨"A", 0⟩, ⟨"D", 1⟩] (by decide)
  exact ⟨set, listed, hset, hlisted, hmem⟩

end Graph

end RegionInference
