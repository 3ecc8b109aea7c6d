import RegionInference.Proofs.Outlines
import RegionInference.Proofs.Violations

/-!
# The same blocks in another order

The numbers of the points depend on the order of the blocks, the points themselves do not. So two
graphs with the same blocks are compared through their points: two numbers belong together if they
are those of one point (`Graph.SamePoint`), and two sets if they have the same points
(`Graph.SamePoints`).

Numbers that belong together have the same element, and steps from them lead to numbers that belong
together again (`Graph.SamePoint.elementAt?_eq`, `Graph.SamePoint.exists_succ`). Everything that is
said by walks is then the same in both graphs: what is reached within a set, where a local is used
later, and how far points are from each other (`Graph.ReachedWithin.of_samePoint`,
`Graph.usedLater_congr`, `Graph.distance_congr`).
-/

namespace RegionInference

/-- The rows that a step gives for items, in a row. -/
theorem flatten_results {f : α → Except ε (List β)} {items : List α} {rows : List (List β)}
    (h : items.mapM f = .ok rows) :
    rows.flatten = items.flatMap fun a => (f a).toOption.getD [] := by
  have hrows : rows.map id = items.map fun a => (f a).toOption.getD [] := by
    refine map_results (fun a row hrow => ?_) h
    rw [hrow]
    rfl
  rw [List.map_id] at hrows
  rw [hrows, List.flatMap_def]

namespace Graph

variable {g g' : Graph} {i j i' j' : Nat}

/-! ### Numbers of one point -/

/-- Two numbers, one in each graph, are those of one point. -/
def SamePoint (g g' : Graph) (i i' : Nat) : Prop :=
  ∃ point, g.index? point = some i ∧ g'.index? point = some i'

/-- Two sets, one in each graph, have the same points. -/
def SamePoints (g g' : Graph) (set set' : PointSet) : Prop :=
  ∀ i i', g.SamePoint g' i i' → (i ∈ set ↔ i' ∈ set')

namespace SamePoint

/-- The graphs can be taken the other way round. -/
theorem symm (h : g.SamePoint g' i i') : g'.SamePoint g i' i := by
  obtain ⟨point, hi, hi'⟩ := h
  exact ⟨point, hi', hi⟩

/-- Numbers of one point are numbers of the same points. -/
theorem index?_iff (h : g.SamePoint g' i i') {point : Point} :
    g.index? point = some i ↔ g'.index? point = some i' := by
  obtain ⟨other, hi, hi'⟩ := h
  constructor
  · intro hpoint
    rw [index?_eq_some] at hi hpoint
    obtain rfl := Option.some.inj (hi.symm.trans hpoint)
    exact hi'
  · intro hpoint
    rw [index?_eq_some] at hi' hpoint
    obtain rfl := Option.some.inj (hi'.symm.trans hpoint)
    exact hi

/-- A number belongs to one number of the other graph. -/
theorem unique (h : g.SamePoint g' i i') (h' : g.SamePoint g' i j') : j' = i' := by
  obtain ⟨point, hi, hj'⟩ := h'
  exact Option.some.inj (hj'.symm.trans (h.index?_iff.1 hi))

/-- A number that belongs to another one is a number of the graph. -/
theorem lt_size (h : g.SamePoint g' i i') : i < g.size := by
  obtain ⟨point, hi, -⟩ := h
  exact lt_size_of_index? hi

end SamePoint

/-- Sets with the same points can be taken the other way round. -/
theorem SamePoints.symm {set set' : PointSet} (h : g.SamePoints g' set set') :
    g'.SamePoints g set' set :=
  fun i' i hi => (h i i' hi.symm).symm

/-! ### Sets of points -/

/-- No point is listed twice. -/
theorem nodup_pointsOf {set : PointSet} {points : List Point} (h : g.pointsOf set = .ok points) :
    points.Nodup := by
  obtain ⟨numbers, hsorted, hpoints, -⟩ := lists_pointsOf h
  refine .of_map g.index? ?_
  rw [hpoints]
  exact List.Nodup.map (Option.some_injective _) (hsorted.imp Nat.ne_of_lt)

/-- Two sets, one in each graph, are listed as the same points but for the order. -/
def ListedAlike (g g' : Graph) (set set' : PointSet) : Prop :=
  ∃ points points', g.pointsOf set = .ok points ∧ g'.pointsOf set' = .ok points' ∧
    points.Perm points'

/-- The numbers that the points of a set of one graph have in another one. -/
def recast (g g' : Graph) (set : PointSet) : PointSet :=
  .ofList (set.toList.filterMap fun i => (g.pointAt? i).bind g'.index?)

/-- What a set of one graph has in another one are the numbers of its points. -/
theorem mem_recast {set : PointSet} : i' ∈ g.recast g' set ↔ ∃ i ∈ set, g.SamePoint g' i i' := by
  simp only [recast, PointSet.mem_ofList, List.mem_filterMap, PointSet.mem_toList,
    Option.bind_eq_some_iff, SamePoint, index?_eq_some]

/-- A set and its numbers in the other graph have the same points. -/
theorem samePoints_recast (set : PointSet) : g.SamePoints g' set (g.recast g' set) := by
  intro i i' h
  rw [mem_recast]
  constructor
  · exact fun hi => ⟨i, hi, h⟩
  · rintro ⟨j, hj, hsame⟩
    rwa [← h.symm.unique hsame.symm]

/-! ### Graphs with the same blocks -/

section

variable (hblocks : g.blocks.Perm g'.blocks)

include hblocks

/-- A position of a block has a number in the other graph too. -/
theorem At.exists_samePoint {k : Nat} {block : Block} (hat : g.At k j block i) :
    ∃ k' i', g'.At k' j block i' ∧ g.SamePoint g' i i' := by
  have hmem : block ∈ g'.blocks := hblocks.mem_iff.1 (List.mem_of_getElem? hat.block_eq)
  obtain ⟨k', hk'⟩ := List.mem_iff_getElem?.1 hmem
  have hat' : g'.At k' j block (Layout.offset g'.blocks k' + j) := ⟨hk', hat.lt_size, rfl⟩
  exact ⟨k', _, hat', _, index?_eq_some.2 hat.pointAt?, index?_eq_some.2 hat'.pointAt?⟩

/-- Every number belongs to one of the other graph. -/
theorem exists_samePoint (hi : i < g.size) : ∃ i', g.SamePoint g' i i' := by
  obtain ⟨k, j, block, hat⟩ := exists_at hi
  obtain ⟨-, i', -, hsame⟩ := hat.exists_samePoint hblocks
  exact ⟨i', hsame⟩

/-- A point of one graph is one of the other. -/
theorem exists_samePoint_of_index? {point : Point} (hpoint : g.index? point = some i) :
    ∃ i', g.SamePoint g' i i' ∧ g'.index? point = some i' := by
  obtain ⟨i', hsame⟩ := exists_samePoint hblocks (lt_size_of_index? hpoint)
  exact ⟨i', hsame, hsame.index?_iff.1 hpoint⟩

namespace SamePoint

/-- Numbers of one point stand at the same position of the same block. -/
theorem exists_at (h : g.SamePoint g' i i') :
    ∃ k k' j block, g.At k j block i ∧ g'.At k' j block i' := by
  obtain ⟨k, j, block, hat⟩ := Graph.exists_at h.lt_size
  obtain ⟨k', j', hat', hsame⟩ := hat.exists_samePoint hblocks
  rw [h.unique hsame] at hat'
  exact ⟨k, k', j, block, hat, hat'⟩

/-- The same stands at numbers of one point. -/
theorem elementAt?_eq (h : g.SamePoint g' i i') : g'.elementAt? i' = g.elementAt? i := by
  obtain ⟨k, k', j, block, hat, hat'⟩ := h.exists_at hblocks
  rw [hat.elementAt?, hat'.elementAt?]

/-- What follows a number in one graph follows its partner in the other. -/
theorem exists_succ (h : g.SamePoint g' i i') {s : Nat} (hs : s ∈ g.succ i) :
    ∃ s' ∈ g'.succ i', g.SamePoint g' s s' := by
  obtain ⟨k, k', j, block, hat, hat'⟩ := h.exists_at hblocks
  rcases hat.mem_succ.1 hs with ⟨hj, rfl⟩ | ⟨hj, m, target, htarget, hname, rfl⟩
  · have hpoint := index?_eq_some.2 (hat.next hj).pointAt?
    have hpoint' := index?_eq_some.2 (hat'.next hj).pointAt?
    exact ⟨i' + 1, hat'.mem_succ.2 (.inl ⟨hj, rfl⟩), _, hpoint, hpoint'⟩
  · obtain ⟨m', s', htarget', hsame⟩ := (at_offset htarget).exists_samePoint hblocks
    have hs' : s' = Layout.offset g'.blocks m' := htarget'.number
    exact ⟨s', hat'.mem_succ.2 (.inr ⟨hj, m', target, htarget'.block_eq, hname, hs'⟩), hsame⟩

end SamePoint

/-! ### Walks -/

section

variable {set set' : PointSet} (hset : g.SamePoints g' set set')

include hset

/-- A step into a set is one in the other graph too. -/
theorem SamePoint.exists_stepInto (h : g.SamePoint g' i i') (hstep : g.StepInto set i j) :
    ∃ j', g.SamePoint g' j j' ∧ g'.StepInto set' i' j' := by
  obtain ⟨j', hj', hsame⟩ := h.exists_succ hblocks hstep.1
  exact ⟨j', hsame, hj', (hset j j' hsame).1 hstep.2⟩

/-- Steps into a set, one after the other, are steps in the other graph too. -/
theorem SamePoint.exists_steps (h : g.SamePoint g' i i')
    (hsteps : Relation.ReflTransGen (g.StepInto set) i j) :
    ∃ j', g.SamePoint g' j j' ∧ Relation.ReflTransGen (g'.StepInto set') i' j' := by
  induction hsteps with
  | refl => exact ⟨i', h, .refl⟩
  | tail _ hstep ih =>
    obtain ⟨m', hm', hsteps'⟩ := ih
    obtain ⟨j', hj', hstep'⟩ := hm'.exists_stepInto hblocks hset hstep
    exact ⟨j', hj', hsteps'.tail hstep'⟩

/-- What is reached within a set is reached in the other graph. -/
theorem ReachedWithin.of_samePoint (hi : g.SamePoint g' i i') (hj : g.SamePoint g' j j')
    (h : g.ReachedWithin set i j) : g'.ReachedWithin set' i' j' := by
  rw [reachedWithin_iff] at h ⊢
  obtain ⟨m', hm', hsteps'⟩ := hi.exists_steps hblocks hset h.2
  rw [hj.unique hm'] at hsteps'
  exact ⟨(hset i i' hi).1 h.1, hsteps'⟩

/-- A walk within a set is one in the other graph. -/
theorem WalksWithin.of_samePoint (hi : g.SamePoint g' i i') (hj : g.SamePoint g' j j')
    (h : g.WalksWithin set i j) : g'.WalksWithin set' i' j' := by
  obtain ⟨m, hsteps, hlast⟩ := Relation.TransGen.tail'_iff.1 h
  obtain ⟨m', hm', hsteps'⟩ := hi.exists_steps hblocks hset hsteps
  obtain ⟨n', hn', hlast'⟩ := hm'.exists_stepInto hblocks hset hlast
  rw [hj.unique hn'] at hlast'
  exact Relation.TransGen.tail'_iff.2 ⟨m', hsteps', hlast'⟩

/-- A walk has one of the same length in the other graph. -/
theorem exists_walk_of_samePoint (hi : g.SamePoint g' i i') {d : Nat}
    (h : Search.Walk g.succ set (PointSet.single i).toList d j) :
    ∃ j', g.SamePoint g' j j' ∧ Search.Walk g'.succ set' (PointSet.single i').toList d j' := by
  induction h with
  | source hmem =>
    rw [PointSet.mem_toList, PointSet.mem_single] at hmem
    subst hmem
    exact ⟨i', hi, .source (PointSet.mem_toList.2 (PointSet.mem_single.2 rfl))⟩
  | step _ hstep hmem ih =>
    obtain ⟨m', hm', hwalk'⟩ := ih
    obtain ⟨j', hj', hstep'⟩ := hm'.exists_stepInto hblocks hset ⟨hstep, hmem⟩
    exact ⟨j', hj', .step hwalk' hstep'.1 hstep'.2⟩

/-- Distances are the same in both graphs. -/
theorem distance_congr (hi : g.SamePoint g' i i') (hj : g.SamePoint g' j j') {d : Nat} :
    Search.Distance g.succ set (PointSet.single i).toList d j ↔
      Search.Distance g'.succ set' (PointSet.single i').toList d j' := by
  have hwalk : ∀ d, Search.Walk g.succ set (PointSet.single i).toList d j ↔
      Search.Walk g'.succ set' (PointSet.single i').toList d j' := by
    intro d
    constructor
    · intro h
      obtain ⟨m', hm', h'⟩ := exists_walk_of_samePoint hblocks hset hi h
      rwa [hj.unique hm'] at h'
    · intro h'
      obtain ⟨m, hm, h⟩ := exists_walk_of_samePoint hblocks.symm hset.symm hi.symm h'
      rwa [hj.symm.unique hm] at h
  simp only [Search.Distance, hwalk]

end

/-- Sets of points of the graphs that belong together are listed as the same points. -/
theorem SamePoints.listedAlike {set set' : PointSet} (h : g.SamePoints g' set set')
    (hset : ∀ i ∈ set, i < g.size) (hset' : ∀ i' ∈ set', i' < g'.size) :
    g.ListedAlike g' set set' := by
  obtain ⟨points, hpoints⟩ := exists_pointsOf hset
  obtain ⟨points', hpoints'⟩ := exists_pointsOf hset'
  refine ⟨points, points', hpoints, hpoints', ?_⟩
  refine (List.perm_ext_iff_of_nodup (nodup_pointsOf hpoints) (nodup_pointsOf hpoints')).2
    fun point => ?_
  rw [mem_pointsOf hpoints, mem_pointsOf hpoints']
  constructor
  · rintro ⟨i, hi, hpoint⟩
    obtain ⟨i', hsame, hpoint'⟩ := exists_samePoint_of_index? hblocks hpoint
    exact ⟨i', (h i i' hsame).1 hi, hpoint'⟩
  · rintro ⟨i', hi', hpoint'⟩
    obtain ⟨i, hsame, hpoint⟩ := exists_samePoint_of_index? hblocks.symm hpoint'
    exact ⟨i, (h i i' hsame.symm).2 hi', hpoint⟩

open Liveness in
/-- A use along a path is one along a path of the other graph. -/
theorem usedLater_of_usedAlong {events : Element → List String} {v : String} {p : Nat → Nat}
    {k : Nat} (hi : g.SamePoint g' (p 0) i') (h : UsedAlong g events v p k) :
    UsedLater g' events v i' := by
  obtain ⟨hpath, ⟨element, helement, hevent⟩, hkeep⟩ := h
  -- induction on the length of the path, whose first step is cut off
  induction k generalizing p i' with
  | zero => exact .here ((hi.elementAt?_eq hblocks).trans helement) hevent
  | succ k ih =>
    obtain ⟨first, hfirst⟩ := exists_elementAt? hi.lt_size
    obtain ⟨s', hs', hsame⟩ := hi.exists_succ hblocks (hpath 0 (Nat.succ_pos k))
    refine .step ((hi.elementAt?_eq hblocks).trans hfirst) (hkeep 0 (Nat.succ_pos k) first hfirst)
      hs' ?_
    exact @ih s' (fun m => p (m + 1)) hsame (fun m hm => hpath (m + 1) (Nat.succ_lt_succ hm))
      (fun m hm => hkeep (m + 1) (Nat.succ_lt_succ hm)) helement

/-- Where a local is used later is the same in both graphs. -/
theorem usedLater_congr {events : Element → List String} {v : String} (hi : g.SamePoint g' i i') :
    Liveness.UsedLater g events v i ↔ Liveness.UsedLater g' events v i' := by
  constructor
  · rintro ⟨p, k, rfl, h⟩
    exact usedLater_of_usedAlong hblocks hi h
  · rintro ⟨p, k, rfl, h⟩
    exact usedLater_of_usedAlong hblocks.symm hi.symm h

end

/-! ### Elements by their points -/

/-- The points with what stands there are all points. -/
theorem map_fst_items (g : Graph) : g.items.map Prod.fst = g.points := by
  rw [items, List.map_fst_zip]
  rw [points, Array.length_toList, Array.length_toList, size_elementTable]
  exact Nat.le_refl _

/-- No point is listed twice. -/
theorem nodup_points (g : Graph) : g.points.Nodup := by
  rw [List.nodup_iff_getElem?_ne_getElem?]
  intro i j hij hj heq
  have hi : g.pointAt? i = some (g.points[j]) := by
    rw [pointAt?, ← Array.getElem?_toList, ← points, heq, List.getElem?_eq_getElem hj]
  have hj : g.pointAt? j = some (g.points[j]) := by
    rw [pointAt?, ← Array.getElem?_toList, ← points, List.getElem?_eq_getElem hj]
  rw [← index?_eq_some] at hi hj
  exact Nat.ne_of_lt hij (Option.some.inj (hi.symm.trans hj))

section

variable (hblocks : g.blocks.Perm g'.blocks)

include hblocks

/-- The elements are the same. -/
theorem perm_elementTable : g.elementTable.toList.Perm g'.elementTable.toList := by
  rw [elementTable_eq, elementTable_eq]
  exact hblocks.flatMap_right _

/-- The elements with their points are the same. -/
theorem perm_items : g.items.Perm g'.items := by
  have hnodup : ∀ g : Graph, g.items.Nodup :=
    fun g => .of_map Prod.fst (g.map_fst_items ▸ g.nodup_points)
  have hone : ∀ {g g' : Graph}, g.blocks.Perm g'.blocks → ∀ item ∈ g.items, item ∈ g'.items := by
    intro g g' hblocks item hitem
    obtain ⟨i, hpoint, helement⟩ := mem_items.1 hitem
    obtain ⟨i', hsame, hpoint'⟩ := exists_samePoint_of_index? hblocks hpoint
    exact mem_items.2 ⟨i', hpoint', (hsame.elementAt?_eq hblocks).trans helement⟩
  refine (List.perm_ext_iff_of_nodup (hnodup g) (hnodup g')).2 fun item => ?_
  exact ⟨hone hblocks item, hone hblocks.symm item⟩

/-- At each point there is one element, so the elements of a point are listed in the same order. -/
theorem filter_items_eq (point : Point) :
    g.items.filter (·.1 = point) = g'.items.filter (·.1 = point) := by
  have hpairwise : ∀ g : Graph,
      (g.items.filter (·.1 = point)).Pairwise fun a b => a.1 ≠ b.1 := by
    intro g
    have hnodup : (g.items.map Prod.fst).Nodup := g.map_fst_items ▸ g.nodup_points
    exact (List.pairwise_map.1 hnodup).filter _
  refine ((perm_items hblocks).filter _).eq_of_pairwise ?_ (hpairwise g) (hpairwise g')
  intro a b ha hb hne
  have hapoint : a.1 = point := by simpa using (List.mem_filter.1 ha).2
  have hbpoint : b.1 = point := by simpa using (List.mem_filter.1 hb).2
  exact absurd (hapoint.trans hbpoint.symm) hne

/-- What the element of one point gives is the same in both graphs. -/
theorem flatMap_items_eq {β : Type} {f : Point × Element → List β} (point : Point)
    (hnil : ∀ item, item.1 ≠ point → f item = []) : g.items.flatMap f = g'.items.flatMap f := by
  have hother : ∀ item : Point × Element, decide (item.1 = point) = false → f item = [] :=
    fun item hitem => hnil item (of_decide_eq_false hitem)
  rw [← Detector.flatMap_filter_of_nil hother, filter_items_eq hblocks,
    Detector.flatMap_filter_of_nil hother]

/-- What the element of one point gives is the same in both graphs, where each element may give
something. -/
theorem filter_filterMap_eq {β : Type} {f : Point × Element → Option β} {kind : β → Bool}
    (point : Point) (hother : ∀ item, item.1 ≠ point → ∀ b, f item = some b → ¬kind b = true) :
    (g.items.filterMap f).filter kind = (g'.items.filterMap f).filter kind := by
  rw [List.filterMap_eq_flatMap_toList, List.filterMap_eq_flatMap_toList, List.filter_flatMap,
    List.filter_flatMap]
  refine flatMap_items_eq hblocks point fun item hne => List.filter_eq_nil_iff.2 fun b hb => ?_
  exact hother item hne b (Option.mem_toList.1 hb)

/-- What the element of one point gives is the same in both graphs, where each element gives a list
by a step that may fail. -/
theorem filter_flatten_eq {ε β : Type} {f : Point × Element → Except ε (List β)} {kind : β → Bool}
    (point : Point)
    (hother : ∀ item, item.1 ≠ point → ∀ made, f item = .ok made → ∀ b ∈ made, ¬kind b = true)
    {rows rows' : List (List β)} (hrows : g.items.mapM f = .ok rows)
    (hrows' : g'.items.mapM f = .ok rows') :
    rows.flatten.filter kind = rows'.flatten.filter kind := by
  rw [flatten_results hrows, flatten_results hrows', List.filter_flatMap, List.filter_flatMap]
  refine flatMap_items_eq hblocks point fun item hne => List.filter_eq_nil_iff.2 fun b hb => ?_
  cases hmade : f item with
  | error fault =>
    rw [hmade] at hb
    cases hb
  | ok made =>
    rw [hmade] at hb
    exact hother item hne made hmade b hb

end

end Graph

/-! ### Records matched by their keys -/

/-- In some order the second list matches the first one record by record. -/
def Matched (related : α → β → Prop) (items : List α) (items' : List β) : Prop :=
  ∃ arranged, arranged.Perm items' ∧ List.Forall₂ related items arranged

/-- What is said of the records of two lists in a row may use that they are records of the lists. -/
theorem forall₂_imp_mem {related related' : α → β → Prop} {items : List α} {items' : List β}
    (h : List.Forall₂ related items items')
    (himp : ∀ a ∈ items, ∀ b ∈ items', related a b → related' a b) :
    List.Forall₂ related' items items' := by
  have hleft := (List.forall₂_and_left _ _).2 ⟨fun _ ha => ha, h⟩
  have hright := (List.forall₂_and_left _ _).2 ⟨fun _ hb => hb, hleft.flip⟩
  exact hright.flip.imp fun a b hpair => himp a hpair.2.1 b hpair.1 hpair.2.2

/-- Records that match do so for what their relation implies. -/
theorem Matched.imp {related related' : α → β → Prop} {items : List α} {items' : List β}
    (h : Matched related items items')
    (himp : ∀ a ∈ items, ∀ b ∈ items', related a b → related' a b) :
    Matched related' items items' := by
  obtain ⟨arranged, hperm, hmatched⟩ := h
  exact ⟨arranged, hperm,
    forall₂_imp_mem hmatched fun a ha b hb => himp a ha b (hperm.mem_iff.1 hb)⟩

/-- If there is one record in each list, the two match. -/
theorem Matched.singleton {related : α → β → Prop} {a : α} {b : β}
    (h : Matched related [a] [b]) : related a b := by
  obtain ⟨arranged, hperm, hmatched⟩ := h
  rw [List.perm_singleton] at hperm
  subst hperm
  exact (List.forall₂_cons.1 hmatched).1

/-- Of two lists that match, both are empty or none is. -/
theorem Matched.isEmpty_eq {related : α → β → Prop} {items : List α} {items' : List β}
    (h : Matched related items items') : items'.isEmpty = items.isEmpty := by
  obtain ⟨arranged, hperm, hmatched⟩ := h
  rw [← hperm.isEmpty_eq]
  cases hmatched <;> rfl

/-- Lists that have the same keys, each once, match if records with one key are related. -/
theorem matched_of_keys {items : List α} {items' : List β} {key : α → γ} {key' : β → γ}
    {related : α → β → Prop} (hnodup : (items.map key).Nodup) (hnodup' : (items'.map key').Nodup)
    (hkeys : ∀ k, k ∈ items.map key ↔ k ∈ items'.map key')
    (hrelated : ∀ a ∈ items, ∀ b ∈ items', key' b = key a → related a b) :
    Matched related items items' := by
  have hperm : (items.map key).Perm (items'.map key') :=
    (List.perm_ext_iff_of_nodup hnodup hnodup').2 hkeys
  have hself : List.Forall₂ (fun k b => key' b = k) (items'.map key') items' := by
    rw [List.forall₂_map_left_iff, List.forall₂_same]
    exact fun _ _ => rfl
  obtain ⟨arranged, hmatched, harranged⟩ := List.perm_comp_forall₂ hperm hself
  refine ⟨arranged, harranged, ?_⟩
  rw [List.forall₂_map_left_iff] at hmatched
  exact forall₂_imp_mem hmatched fun a ha b hb => hrelated a ha b (harranged.mem_iff.1 hb)

end RegionInference
