import Mathlib.Algebra.GroupWithZero.Nat
import RegionInference.Graph.Basic

/-!
# The layout of points

The points of a graph are numbered block after block. `Graph.At k j block i` says where a number
comes from: point `i` stands at position `j` of `block`, the block with number `k`. Every number
below the size of the graph has such a place (`Graph.exists_at`), and the tables of the graph are
read off it: the point (`Graph.At.pointAt?`), what stands there (`Graph.At.elementAt?`), and the
points that may follow (`Graph.At.mem_succ`): the next one after a statement, the first points of
the targets after a terminator. A point has a number iff it stands in the table of points under it
(`Graph.index?_eq_some`).
-/

namespace RegionInference

/-- The set of the points of a list has those points. -/
theorem PointSet.mem_ofList {points : List Nat} {i : Nat} : i ∈ ofList points ↔ i ∈ points := by
  have hfold : ∀ (points : List Nat) (set : PointSet),
      i ∈ points.foldl insert set ↔ i ∈ set ∨ i ∈ points := by
    intro points
    induction points with
    | nil => simp
    | cons head points ih =>
      intro set
      rw [List.foldl_cons, ih, mem_insert, List.mem_cons, or_assoc]
  rw [ofList, hfold]
  simp

/-! ### Lists of lists laid out in a row -/

/-- An entry of the `k`-th list is found behind the entries of the lists before. -/
theorem getElem?_flatMap_at {l : List α} {f : α → List β} {k j : Nat} {a : α}
    (ha : l[k]? = some a) (hj : j < (f a).length) :
    (l.flatMap f)[((l.map fun b => (f b).length).take k).sum + j]? = (f a)[j]? := by
  induction l generalizing k with
  | nil => simp at ha
  | cons b l ih =>
    cases k with
    | zero =>
      obtain rfl : b = a := by simpa using ha
      simp [List.getElem?_append_left hj]
    | succ k =>
      have hrest := ih (k := k) (by simpa using ha)
      simp only [List.flatMap_cons, List.map_cons, List.take_succ_cons, List.sum_cons]
      rw [List.getElem?_append_right (by omega), ← hrest]
      congr 1
      omega

/-- Every entry of lists in a row is an entry of one of them. -/
theorem exists_of_lt_sum {sizes : List Nat} {i : Nat} (h : i < sizes.sum) :
    ∃ k j size, sizes[k]? = some size ∧ j < size ∧ i = (sizes.take k).sum + j := by
  induction sizes generalizing i with
  | nil => simp at h
  | cons size sizes ih =>
    by_cases hi : i < size
    · exact ⟨0, i, size, by simp, hi, by simp⟩
    · have hrest : i - size < sizes.sum := by
        rw [List.sum_cons] at h
        omega
      obtain ⟨k, j, size', hk, hj, heq⟩ := ih hrest
      refine ⟨k + 1, j, size', by simpa using hk, hj, ?_⟩
      simp only [List.take_succ_cons, List.sum_cons]
      omega

namespace Block

/-- A block has an element at each of its points. -/
@[simp] theorem length_elements (block : Block) : block.elements.length = block.size := by
  simp [elements, size]

/-- A block has as many points as its size says. -/
@[simp] theorem length_points (block : Block) : block.points.length = block.size := by
  simp [points]

/-- The terminator stands at the last position. -/
theorem elements_last (block : Block) :
    block.elements[block.statements.length]? = some (.term block.terminator) := by
  rw [elements, List.getElem?_append_right (by simp)]
  simp

end Block

namespace Layout

/-- The number of the first point of the block with number `k`. -/
def offset (blocks : List Block) (k : Nat) : Nat :=
  ((blocks.map Block.size).take k).sum

/-- The offset behind one more block. -/
theorem offset_succ {block : Block} {blocks : List Block} {k : Nat} :
    offset (block :: blocks) (k + 1) = block.size + offset blocks k := by
  simp [offset]

/-! ### Tables -/

/-- Some blocks have the points of all of them. -/
theorem length_points (blocks : List Block) :
    (points blocks).length = (blocks.map Block.size).sum := by
  simp [points, List.length_flatMap]

/-- They have the elements of all of them. -/
theorem length_elements (blocks : List Block) :
    (elements blocks).length = (blocks.map Block.size).sum := by
  simp [elements, List.length_flatMap]

/-- They have a row of successors for each point. -/
theorem length_successors (all : List Block) (first : Nat) (blocks : List Block) :
    (successors all first blocks).length = (blocks.map Block.size).sum := by
  induction blocks generalizing first with
  | nil => rfl
  | cons block blocks ih =>
    have hsize : block.size = block.statements.length + 1 := rfl
    simp only [successors, List.length_append, List.length_map, List.length_range,
      List.length_cons, ih, List.map_cons, List.sum_cons]
    omega

/-- The point at a position of a block, counted through all blocks. -/
theorem points_at {blocks : List Block} {k j : Nat} {block : Block} (hk : blocks[k]? = some block)
    (hj : j < block.size) : (points blocks)[offset blocks k + j]? = some ⟨block.name, j⟩ := by
  have h := getElem?_flatMap_at (f := Block.points) hk (by simpa using hj)
  simp only [Block.length_points] at h
  rw [points, offset, h]
  simp [Block.points, hj]

/-- The element at a position of a block, counted through all blocks. -/
theorem elements_at {blocks : List Block} {k j : Nat} {block : Block}
    (hk : blocks[k]? = some block) (hj : j < block.size) :
    (elements blocks)[offset blocks k + j]? = block.elements[j]? := by
  have h := getElem?_flatMap_at (f := Block.elements) hk (by simpa using hj)
  simp only [Block.length_elements] at h
  exact h

/-- The points that may follow the one at position `j` of block `k`. -/
theorem successors_at {all : List Block} {blocks : List Block} {first k j : Nat} {block : Block}
    (hk : blocks[k]? = some block) (hj : j < block.size) :
    (successors all first blocks)[offset blocks k + j]? =
      some (if j < block.statements.length then [first + offset blocks k + j + 1]
        else starts all block.successors) := by
  induction blocks generalizing first k with
  | nil => simp at hk
  | cons other blocks ih =>
    cases k with
    | zero =>
      obtain rfl : other = block := by simpa using hk
      have hoffset : offset (other :: blocks) 0 = 0 := by simp [offset]
      rw [hoffset, successors, Nat.zero_add, Nat.add_zero]
      by_cases hlt : j < other.statements.length
      · rw [List.getElem?_append_left (by simpa using hlt)]
        simp [hlt]
      · have hlast : j = other.statements.length := by
          have : other.size = other.statements.length + 1 := rfl
          omega
        subst hlast
        rw [List.getElem?_append_right (by simp)]
        simp
    | succ k =>
      have hrest := @ih (first + other.size) k (by simpa using hk)
      have hsize : other.size = other.statements.length + 1 := rfl
      rw [offset_succ, successors, List.getElem?_append_right (by simp; omega)]
      have hindex : other.size + offset blocks k + j -
          ((List.range other.statements.length).map fun i => [first + i + 1]).length =
          (offset blocks k + j) + 1 := by
        simp
        omega
      rw [hindex, List.getElem?_cons_succ, hrest]
      simp [Nat.add_assoc]

/-! ### First points of blocks -/

/-- The number of the first point of a block is that of a block with the name. -/
theorem start?_eq_some {name : String} {blocks : List Block} (hnodup : (names blocks).Nodup)
    {s : Nat} : start? name blocks = some s ↔
      ∃ k block, blocks[k]? = some block ∧ block.name = name ∧ s = offset blocks k := by
  induction blocks generalizing s with
  | nil => simp [start?]
  | cons other blocks ih =>
    obtain ⟨hnew, hrest⟩ := List.nodup_cons.1 hnodup
    unfold start?
    split
    · next hname =>
      constructor
      · intro h
        obtain rfl : 0 = s := by simpa using h
        exact ⟨0, other, by simp, hname, by simp [offset]⟩
      · rintro ⟨k, block, hk, hblock, rfl⟩
        cases k with
        | zero => simp [offset]
        | succ k =>
          refine absurd ?_ hnew
          rw [hname, ← hblock]
          exact List.mem_map_of_mem (List.mem_of_getElem? (by simpa using hk))
    · next hname =>
      rw [Option.map_eq_some_iff]
      constructor
      · rintro ⟨s', hs', rfl⟩
        obtain ⟨k, block, hk, hblock, rfl⟩ := (ih hrest).1 hs'
        exact ⟨k + 1, block, by simpa using hk, hblock, offset_succ.symm⟩
      · rintro ⟨k, block, hk, hblock, rfl⟩
        cases k with
        | zero =>
          obtain rfl : other = block := by simpa using hk
          exact absurd hblock hname
        | succ k =>
          exact ⟨offset blocks k, (ih hrest).2 ⟨k, block, by simpa using hk, hblock, rfl⟩,
            offset_succ.symm⟩

/-- The first points of some blocks are those of the blocks that have one of the names. -/
theorem mem_starts {blocks : List Block} (hnodup : (names blocks).Nodup) {targets : List String}
    {s : Nat} : s ∈ starts blocks targets ↔
      ∃ k block, blocks[k]? = some block ∧ block.name ∈ targets ∧ s = offset blocks k := by
  rw [starts, PointSet.mem_toList, PointSet.mem_ofList, List.mem_filterMap]
  constructor
  · rintro ⟨target, htarget, hstart⟩
    obtain ⟨k, block, hk, rfl, hs⟩ := (start?_eq_some hnodup).1 hstart
    exact ⟨k, block, hk, htarget, hs⟩
  · rintro ⟨k, block, hk, htarget, hs⟩
    exact ⟨block.name, htarget, (start?_eq_some hnodup).2 ⟨k, block, hk, rfl, hs⟩⟩

/-! ### Numbers of points -/

/-- A point names a block. -/
theorem block_mem_names {blocks : List Block} {point : Point} (h : point ∈ points blocks) :
    point.block ∈ names blocks := by
  simp only [points, List.mem_flatMap, Block.points, List.mem_map] at h
  obtain ⟨block, hblock, i, -, rfl⟩ := h
  exact List.mem_map_of_mem hblock

/-- The number of a point is its place in the table of points. -/
theorem index?_eq_some {blocks : List Block} (hnodup : (names blocks).Nodup) {point : Point}
    {i : Nat} : index? point blocks = some i ↔ (points blocks)[i]? = some point := by
  induction blocks generalizing i with
  | nil => simp [index?, points]
  | cons block blocks ih =>
    obtain ⟨hnew, hrest⟩ := List.nodup_cons.1 hnodup
    have hpoints : points (block :: blocks) = block.points ++ points blocks := by simp [points]
    have hfirst : i < block.size → block.points[i]? = some ⟨block.name, i⟩ := by
      intro hi
      simp [Block.points, hi]
    unfold index?
    rw [hpoints]
    split
    · next hname =>
      by_cases hi : i < block.size
      · rw [List.getElem?_append_left (by simpa using hi), hfirst hi]
        obtain ⟨name, index⟩ := point
        simp only [Point.mk.injEq, Option.some.injEq, Option.ite_none_right_eq_some] at hname ⊢
        constructor
        · rintro ⟨hrange, hindex⟩
          exact ⟨hname, by omega⟩
        · rintro ⟨-, hindex⟩
          omega
      · rw [List.getElem?_append_right (by simpa using hi)]
        constructor
        · intro h
          rw [Option.ite_none_right_eq_some] at h
          simp only [Option.some.injEq] at h
          omega
        · intro h
          refine absurd ?_ hnew
          rw [hname]
          exact block_mem_names (List.mem_of_getElem? h)
    · next hname =>
      rw [Option.map_eq_some_iff]
      by_cases hi : i < block.size
      · rw [List.getElem?_append_left (by simpa using hi), hfirst hi]
        constructor
        · rintro ⟨i', -, rfl⟩
          omega
        · intro h
          obtain rfl := Option.some.inj h
          exact absurd rfl hname
      · rw [List.getElem?_append_right (by simpa using hi), Block.length_points]
        constructor
        · rintro ⟨i', hi', rfl⟩
          rw [Nat.add_sub_cancel_left]
          exact (ih hrest).1 hi'
        · exact fun h => ⟨i - block.size, (ih hrest).2 h, by omega⟩

end Layout

namespace Graph

/-! ### Where a number comes from -/

/-- Point `i` stands at position `j` of the block with number `k`. -/
structure At (g : Graph) (k j : Nat) (block : Block) (i : Nat) : Prop where
  /-- The block. -/
  block_eq : g.blocks[k]? = some block
  /-- The position is one of the block. -/
  lt_size : j < block.size
  /-- The number counts the points of the blocks before. -/
  number : i = Layout.offset g.blocks k + j

/-- A graph has the points of all its blocks. -/
theorem size_eq (g : Graph) : g.size = (g.blocks.map Block.size).sum := by
  rw [size, ← Array.length_toList, g.pointTable_eq, Layout.length_points]

/-- It has an element for each point. -/
theorem size_elementTable (g : Graph) : g.elementTable.size = g.size := by
  rw [size_eq, ← Array.length_toList, g.elementTable_eq, Layout.length_elements]

/-- What has a successor is a point of the graph. -/
theorem lt_size_of_mem_succ {g : Graph} {i s : Nat} (h : s ∈ g.succ i) : i < g.size := by
  refine Decidable.byContradiction fun hi => ?_
  have hsize : g.succTable.size = g.size := by
    rw [size_eq, ← Array.length_toList, g.succTable_eq, Layout.length_successors]
  have hnone : g.succTable[i]? = none := Array.getElem?_eq_none (by omega)
  simp [succ, hnone] at h

/-- Something stands at each point. -/
theorem exists_elementAt? {g : Graph} {i : Nat} (h : i < g.size) :
    ∃ element, g.elementAt? i = some element :=
  ⟨_, Array.getElem?_eq_getElem (by rwa [size_elementTable])⟩

/-- Every number below the size has its place. -/
theorem exists_at {g : Graph} {i : Nat} (h : i < g.size) : ∃ k j block, g.At k j block i := by
  rw [size_eq] at h
  obtain ⟨k, j, size, hk, hj, hi⟩ := exists_of_lt_sum h
  rw [List.getElem?_map, Option.map_eq_some_iff] at hk
  obtain ⟨block, hblock, rfl⟩ := hk
  exact ⟨k, j, block, hblock, hj, hi⟩

namespace At

variable {g : Graph} {k j i : Nat} {block : Block}

/-- The point with the number of a position. -/
theorem pointAt? (h : g.At k j block i) : g.pointAt? i = some ⟨block.name, j⟩ := by
  rw [Graph.pointAt?, ← Array.getElem?_toList, g.pointTable_eq, h.number]
  exact Layout.points_at h.block_eq h.lt_size

/-- What stands at the number of a position. -/
theorem elementAt? (h : g.At k j block i) : g.elementAt? i = block.elements[j]? := by
  rw [Graph.elementAt?, ← Array.getElem?_toList, g.elementTable_eq, h.number]
  exact Layout.elements_at h.block_eq h.lt_size

/-- What may follow a position: the next one, or behind the last one the starts of the targets. -/
theorem succ_eq (h : g.At k j block i) :
    g.succ i = if j < block.statements.length then [i + 1]
      else Layout.starts g.blocks block.successors := by
  rw [Graph.succ, ← Array.getElem?_toList, g.succTable_eq, h.number,
    Layout.successors_at h.block_eq h.lt_size]
  simp

/-- What may follow a point: after a statement the next point, after a terminator the first points
of its targets. -/
theorem mem_succ (h : g.At k j block i) {s : Nat} :
    s ∈ g.succ i ↔ (j < block.statements.length ∧ s = i + 1) ∨
      (j = block.statements.length ∧ ∃ k' target, g.blocks[k']? = some target ∧
        target.name ∈ block.successors ∧ s = Layout.offset g.blocks k') := by
  have hsize : block.size = block.statements.length + 1 := rfl
  have hlt := h.lt_size
  rw [h.succ_eq]
  by_cases hj : j < block.statements.length
  · simp [hj, Nat.ne_of_lt hj]
  · have hlast : j = block.statements.length := by omega
    rw [if_neg hj, Layout.mem_starts g.names_nodup]
    simp [hlast]

/-- The next position of the block. -/
theorem next (h : g.At k j block i) (hj : j < block.statements.length) :
    g.At k (j + 1) block (i + 1) where
  block_eq := h.block_eq
  lt_size := Nat.succ_lt_succ hj
  number := by
    rw [h.number]
    omega

end At

/-- The first point of a block. -/
theorem at_offset {g : Graph} {k : Nat} {block : Block} (h : g.blocks[k]? = some block) :
    g.At k 0 block (Layout.offset g.blocks k) :=
  ⟨h, Nat.succ_pos _, rfl⟩

/-- The number of a position is a number of the graph. -/
theorem At.lt_graph {g : Graph} {k j i : Nat} {block : Block} (h : g.At k j block i) :
    i < g.size :=
  (Array.getElem?_eq_some_iff.1 h.pointAt?).1

/-- What follows a point is a point of the graph. -/
theorem succ_lt_size {g : Graph} {i s : Nat} (h : s ∈ g.succ i) : s < g.size := by
  obtain ⟨k, j, block, hat⟩ := exists_at (lt_size_of_mem_succ h)
  rcases hat.mem_succ.1 h with ⟨hj, rfl⟩ | ⟨-, k', target, htarget, -, rfl⟩
  · exact (hat.next hj).lt_graph
  · exact (at_offset htarget).lt_graph

/-- The number of a point is its place in the table of points. -/
theorem index?_eq_some {g : Graph} {point : Point} {i : Nat} :
    g.index? point = some i ↔ g.pointAt? i = some point := by
  rw [index?, Layout.index?_eq_some g.names_nodup, Graph.pointAt?, ← Array.getElem?_toList,
    g.pointTable_eq]

/-- Every number below the size is that of a point. -/
theorem exists_point {g : Graph} {i : Nat} (h : i < g.size) : ∃ point, g.index? point = some i := by
  obtain ⟨k, j, block, hat⟩ := exists_at h
  exact ⟨_, index?_eq_some.2 hat.pointAt?⟩

/-- The number of a point is a number of the graph. -/
theorem lt_size_of_index? {g : Graph} {point : Point} {i : Nat} (h : g.index? point = some i) :
    i < g.size :=
  (Array.getElem?_eq_some_iff.1 (index?_eq_some.1 h)).1

/-- The points are listed by number. -/
theorem mem_zipIdx_points {g : Graph} {point : Point} {i : Nat} :
    (point, i) ∈ g.points.zipIdx ↔ g.index? point = some i := by
  rw [List.mem_zipIdx_iff_getElem?, index?_eq_some]
  simp [points, pointAt?]

/-- The points with what stands there are paired by number. -/
theorem mem_items {g : Graph} {point : Point} {element : Element} :
    (point, element) ∈ g.items ↔
      ∃ i, g.index? point = some i ∧ g.elementAt? i = some element := by
  have hget : ∀ i, (g.items)[i]? = some (point, element) ↔
      g.index? point = some i ∧ g.elementAt? i = some element := by
    intro i
    rw [items, List.getElem?_zip_eq_some, index?_eq_some, points, Graph.pointAt?, elementAt?,
      Array.getElem?_toList, Array.getElem?_toList]
  rw [List.mem_iff_getElem?]
  exact exists_congr hget

/-! ### Statements -/

/-- A number at which something stands is a number of the graph. -/
theorem lt_size_of_elementAt? {g : Graph} {i : Nat} {element : Element}
    (h : g.elementAt? i = some element) : i < g.size := by
  rw [← size_elementTable]
  exact (Array.getElem?_eq_some_iff.1 h).1

/-- A statement stands before the last position of its block. -/
theorem At.lt_of_stmt {g : Graph} {k j i : Nat} {block : Block} {statement : Statement}
    (hat : g.At k j block i) (h : g.elementAt? i = some (.stmt statement)) :
    j < block.statements.length := by
  refine Decidable.byContradiction fun hj => ?_
  have hsize : block.size = block.statements.length + 1 := rfl
  have hlast : j = block.statements.length := by
    have := hat.lt_size
    omega
  rw [hat.elementAt?, hlast, Block.elements_last] at h
  cases h

/-- A statement is followed by the next point only. -/
theorem succ_of_stmt {g : Graph} {i : Nat} {statement : Statement}
    (h : g.elementAt? i = some (.stmt statement)) : g.succ i = [i + 1] := by
  obtain ⟨k, j, block, hat⟩ := exists_at (lt_size_of_elementAt? h)
  rw [hat.succ_eq, if_pos (hat.lt_of_stmt h)]

/-- The point after a statement is the next position of its block. -/
theorem index?_next {g : Graph} {point : Point} {i : Nat} {statement : Statement}
    (hpoint : g.index? point = some i) (h : g.elementAt? i = some (.stmt statement)) :
    g.index? { point with index := point.index + 1 } = some (i + 1) := by
  obtain ⟨k, j, block, hat⟩ := exists_at (lt_size_of_index? hpoint)
  have hsame : point = ⟨block.name, j⟩ := by
    rw [index?_eq_some, hat.pointAt?] at hpoint
    exact (Option.some.inj hpoint).symm
  rw [index?_eq_some, (hat.next (hat.lt_of_stmt h)).pointAt?, hsame]
  simp

end Graph

end RegionInference
