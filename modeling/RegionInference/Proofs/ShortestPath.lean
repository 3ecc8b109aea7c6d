import Mathlib
import RegionInference.Proofs.Applying
import RegionInference.Proofs.Layout
import RegionInference.Proofs.Levels

/-!
# Shortest paths

A point of a level is met from the least point of the level before that leads to it
(`Search.parent_levelsFrom`), because each level is gone through in order. So the way back from a
point through the points it was met from has three properties, by induction on its distance
(`Search.Trail`, `Graph.backtrack_levels`): it is a path, it has as many steps as the distance, and
of all such paths it is the first one if they are compared by their numbers from the end on. A path
that is as short goes through the level before, too, where its point has a greater number or is the
same; then the rest of the way back is compared.

`Graph.Leads` says what a path between two points of a graph is. The path that the search returns is
the shortest one and the first of these from the end on, and there is none if there is no path
(`Graph.path_canonical`).
-/

namespace RegionInference

namespace Search

variable {next : Nat → List Nat} {within unseen : PointSet} {frontier level : List Visit}
  {visit : Visit} {source i j d : Nat}

/-! ### Where points are met from -/

/-- A visit is made from the least of the points of a level that lead there. -/
def LeastParent (next : Nat → List Nat) (level : List Visit) (visit : Visit) : Prop :=
  ∃ i, visit.parent = some i ∧ i ∈ level.map Visit.point ∧ visit.point ∈ next i ∧
    ∀ k ∈ level.map Visit.point, visit.point ∈ next k → i ≤ k

/-- A visit in a level was there before, or it was just met from its parent. -/
theorem of_mem_meet {parent : Nat} {points : List Nat}
    (h : visit ∈ (meet parent points (level, unseen)).1) :
    visit ∈ level ∨
      (visit.parent = some parent ∧ visit.point ∈ points ∧ visit.point ∈ unseen) := by
  induction points generalizing level unseen with
  | nil => exact .inl h
  | cons i points ih =>
    rw [meet] at h
    split at h
    · next hi =>
      rcases ih h with hmem | ⟨hparent, hpoint, hunseen⟩
      · rcases Visit.mem_insert.1 hmem with rfl | hold
        · exact .inr ⟨rfl, List.mem_cons_self, hi⟩
        · exact .inl hold
      · exact .inr ⟨hparent, List.mem_cons_of_mem _ hpoint, (PointSet.mem_erase.1 hunseen).1⟩
    · rcases ih h with hold | ⟨hparent, hpoint, hunseen⟩
      · exact .inl hold
      · exact .inr ⟨hparent, List.mem_cons_of_mem _ hpoint, hunseen⟩

/-- From a frontier in order, the points of the next level are met from the least points that lead
to them. -/
theorem parent_expand (hsorted : frontier.Pairwise fun a b => a.point < b.point)
    (h : visit ∈ (expand next frontier unseen).1) : LeastParent next frontier visit := by
  have hfold : ∀ (frontier level : List Visit) (unseen : PointSet),
      frontier.Pairwise (fun a b => a.point < b.point) →
      visit ∈ (frontier.foldl (fun state visit => meet visit.point (next visit.point) state)
        (level, unseen)).1 →
      visit ∈ level ∨ (visit.point ∈ unseen ∧ LeastParent next frontier visit) := by
    intro frontier
    induction frontier with
    | nil => exact fun level unseen _ h => .inl h
    | cons first frontier ih =>
      intro level unseen hsorted h
      obtain ⟨hfirst, hrest⟩ := List.pairwise_cons.1 hsorted
      rcases ih _ _ hrest h with hmet | ⟨hleft, i, hparent, hi, hstep, hleast⟩
      · rcases of_mem_meet hmet with hold | ⟨hparent, hstep, hunseen⟩
        · exact .inl hold
        · refine .inr ⟨hunseen, first.point, hparent, List.mem_cons_self, hstep, fun k hk _ => ?_⟩
          rcases List.mem_cons.1 hk with rfl | hk
          · exact Nat.le_refl _
          · obtain ⟨other, hother, rfl⟩ := List.mem_map.1 hk
            exact Nat.le_of_lt (hfirst other hother)
      · -- what is met later does not follow the first point
        obtain ⟨hunseen, hnot⟩ := mem_meet.2.1 hleft
        refine .inr ⟨hunseen, i, hparent, List.mem_cons_of_mem _ hi, hstep, fun k hk hkstep => ?_⟩
        rcases List.mem_cons.1 hk with rfl | hk
        · exact absurd hkstep hnot
        · exact hleast k hk hkstep
  rcases hfold frontier [] unseen hsorted h with hnone | ⟨-, hparent⟩
  · cases hnone
  · exact hparent

/-- The first level is the frontier. -/
theorem levelsFrom_head (next : Nat → List Nat) (frontier : List Visit) (unseen : PointSet) :
    (levelsFrom next frontier unseen)[0]? = some frontier := by
  rw [levelsFrom]
  split <;> rfl

/-- Each visit in a level is made from the least point of the level before that leads there. -/
theorem parent_levelsFrom {later : List Visit}
    (hsorted : frontier.Pairwise fun a b => a.point < b.point)
    (hlevel : (levelsFrom next frontier unseen)[d]? = some level)
    (hlater : (levelsFrom next frontier unseen)[d + 1]? = some later) :
    ∀ visit ∈ later, LeastParent next level visit := by
  revert d
  fun_induction levelsFrom next frontier unseen with
  | case1 =>
    intro d _ hlater
    simp at hlater
  | case2 frontier unseen found hsome ih =>
    intro d hlevel hlater
    cases d with
    | zero =>
      rw [List.getElem?_cons_succ, levelsFrom_head] at hlater
      cases hlater
      cases hlevel
      exact fun visit hvisit => parent_expand hsorted hvisit
    | succ d => exact ih (inOrder_expand next frontier unseen).sorted hlevel hlater

/-! ### Paths read backwards -/

/-- A path leads from a source to a point, and all its points after the source are in a set. Its
points before the last one are listed from the end on. -/
inductive Trail (next : Nat → List Nat) (within : PointSet) (source : Nat) :
    Nat → List Nat → Prop where
  /-- The path of no steps. -/
  | source : Trail next within source source []
  /-- One more step. -/
  | step {i j : Nat} {earlier : List Nat} : Trail next within source i earlier → j ∈ next i →
      j ∈ within → Trail next within source j (i :: earlier)

/-- A trail is a walk of its length. -/
theorem Trail.walk {earlier : List Nat} (h : Trail next within source j earlier) :
    Walk next within [source] earlier.length j := by
  induction h with
  | source => exact .source List.mem_cons_self
  | step _ hstep hmem ih => exact .step ih hstep hmem

/-- The last but one point of a shortest path is at the distance before. -/
theorem Distance.pred (h : Distance next within [source] (d + 1) j) {earlier : List Nat}
    (htrail : Trail next within source i earlier) (hlength : earlier.length = d)
    (hstep : j ∈ next i) (hmem : j ∈ within) : Distance next within [source] d i := by
  refine ⟨hlength ▸ htrail.walk, fun m hm hwalk => ?_⟩
  exact h.2 (m + 1) (by omega) (.step hwalk hstep hmem)

/-! ### Reading paths off the levels -/

/-- The test for a point looks at all visits of a level. -/
theorem any_point_iff : level.any (·.point == j) = true ↔ j ∈ level.map Visit.point := by
  rw [List.any_eq_true, List.mem_map]
  simp only [beq_iff_eq]

/-- Where a level has the target and none before does, the way back from there is returned. -/
theorem pathTo?_eq_some {target : Nat} {levels earlier : List (List Visit)}
    (hlevel : levels[d]? = some level) (hmem : target ∈ level.map Visit.point)
    (hfirst : ∀ m < d, ∀ other, levels[m]? = some other → target ∉ other.map Visit.point) :
    pathTo? target earlier levels =
      some (backtrack ((levels.take (d + 1)).reverse ++ earlier) target) := by
  induction levels generalizing d earlier with
  | nil => simp at hlevel
  | cons first levels ih =>
    cases d with
    | zero =>
      cases hlevel
      rw [pathTo?, if_pos (any_point_iff.2 hmem)]
      rfl
    | succ d =>
      have hnot : target ∉ first.map Visit.point := hfirst 0 (Nat.succ_pos d) first rfl
      rw [pathTo?, if_neg (fun h => hnot (any_point_iff.1 h)),
        ih hlevel fun m hm => hfirst (m + 1) (Nat.succ_lt_succ hm)]
      simp

/-- There is no path to a point that is in no level. -/
theorem pathTo?_eq_none {target : Nat} {levels earlier : List (List Visit)}
    (h : ∀ level ∈ levels, target ∉ level.map Visit.point) :
    pathTo? target earlier levels = none := by
  induction levels generalizing earlier with
  | nil => rfl
  | cons first levels ih =>
    rw [pathTo?, if_neg fun hany => h first List.mem_cons_self (any_point_iff.1 hany)]
    exact ih fun level hlevel => h level (List.mem_cons_of_mem _ hlevel)

/-- The way back from a point of a level is read off its visit there. -/
theorem exists_backtrack {earlier : List (List Visit)} (hmem : j ∈ level.map Visit.point) :
    ∃ visit ∈ level, visit.point = j ∧
      (∀ i, visit.parent = some i → backtrack (level :: earlier) j = backtrack earlier i ++ [j]) ∧
      (visit.parent = none → backtrack (level :: earlier) j = [j]) := by
  cases hfind : level.find? (·.point == j) with
  | none =>
    obtain ⟨visit, hvisit, hpoint⟩ := List.mem_map.1 hmem
    have hother := List.find?_eq_none.1 hfind visit hvisit
    exact absurd (beq_iff_eq.2 hpoint) hother
  | some visit =>
    have hpoint : visit.point = j := by simpa using List.find?_some hfind
    refine ⟨visit, List.mem_of_find?_eq_some hfind, hpoint, fun i hparent => ?_, fun hnone => ?_⟩
    · rw [backtrack, hfind, Option.bind_some, hparent]
    · rw [backtrack, hfind, Option.bind_some, hnone]

end Search

/-- The list of a set of one. -/
theorem PointSet.toList_single (i : Nat) : (single i).toList = [i] := by
  have hperm : (single i).toList.Perm [i] := by
    refine (List.perm_ext_iff_of_nodup ?_ (List.nodup_singleton i)).2 fun j => ?_
    · exact (single i).nodup_toList
    · rw [mem_toList, mem_single, List.mem_singleton]
  exact List.perm_singleton.1 hperm

namespace Graph

open Search

variable {g : Graph} {within : PointSet} {source target j d : Nat} {level later : List Visit}

/-! ### The way back -/

/-- The first level of a search from a point has the point alone. -/
theorem levels_head (g : Graph) (source : Nat) (within : PointSet) :
    (g.levels (.single source) within)[0]? = some [⟨source, none⟩] := by
  have hsome : (PointSet.single source).isEmpty ≠ true := by
    rw [ne_eq, PointSet.isEmpty_iff]
    exact fun hnone => hnone source (PointSet.mem_single.2 rfl)
  rw [levels, if_neg hsome, levelsFrom_head, PointSet.toList_single]
  rfl

/-- In the levels of a graph, each visit is made from the least point of the level before. -/
theorem parent_levels {sources : PointSet} (hlevel : (g.levels sources within)[d]? = some level)
    (hlater : (g.levels sources within)[d + 1]? = some later) :
    ∀ visit ∈ later, LeastParent g.succ level visit := by
  unfold levels at hlevel hlater
  split at hlevel
  · cases hlevel
  · next hsome =>
    rw [if_neg hsome] at hlater
    exact parent_levelsFrom (List.pairwise_map.2 sources.pairwise_toList) hlevel hlater

/-- A point at a distance is in the level of that number. -/
theorem exists_level (h : Distance g.succ within [source] d j) :
    ∃ level, (g.levels (.single source) within)[d]? = some level ∧ j ∈ level.map Visit.point := by
  rw [mem_levels, PointSet.toList_single]
  exact h

/-- A point in a level is at the distance of its number. -/
theorem distance_of_level (hlevel : (g.levels (.single source) within)[d]? = some level)
    (hj : j ∈ level.map Visit.point) : Distance g.succ within [source] d j := by
  rw [← PointSet.toList_single, ← mem_levels]
  exact ⟨level, hlevel, hj⟩

/-- The way back from a point is a path of as many steps as its distance, and of these paths the
first one from the end on. -/
theorem backtrack_levels (h : Distance g.succ within [source] d j) :
    ∃ earlier, Trail g.succ within source j earlier ∧ earlier.length = d ∧
      backtrack ((g.levels (.single source) within).take (d + 1)).reverse j =
        (j :: earlier).reverse ∧
      ∀ other, Trail g.succ within source j other → other.length = d → other ≠ earlier →
        List.Lex (· < ·) earlier other := by
  have htake : ∀ d level, (g.levels (.single source) within)[d]? = some level →
      ((g.levels (.single source) within).take (d + 1)).reverse =
        level :: ((g.levels (.single source) within).take d).reverse := by
    intro d level hlevel
    rw [List.take_add_one, hlevel, List.reverse_append]
    rfl
  induction d generalizing j with
  | zero =>
    obtain rfl : j = source := List.mem_singleton.1 (distance_zero.1 h)
    obtain ⟨visit, hvisit, -, -, hnone⟩ := @exists_backtrack [⟨j, none⟩] j [] List.mem_cons_self
    have hroot : visit.parent = none := by rw [List.mem_singleton.1 hvisit]
    refine ⟨[], .source, rfl, ?_, fun other _ hlength hne => ?_⟩
    · rw [htake 0 _ (levels_head g j within)]
      exact hnone hroot
    · exact absurd (List.length_eq_zero_iff.1 hlength) hne
  | succ d ih =>
    obtain ⟨later, hlater, hj⟩ := exists_level h
    obtain ⟨visit, hvisit, hpoint, hback, -⟩ := @exists_backtrack later j
      ((g.levels (.single source) within).take (d + 1)).reverse hj
    obtain ⟨level, hlevel⟩ : ∃ level, (g.levels (.single source) within)[d]? = some level := by
      have hlt := (List.getElem?_eq_some_iff.1 hlater).1
      exact ⟨_, List.getElem?_eq_getElem (Nat.lt_of_succ_lt hlt)⟩
    obtain ⟨i, hparent, hi, hstep, hleast⟩ := parent_levels hlevel hlater visit hvisit
    rw [hpoint] at hstep hleast
    have hmem : j ∈ within := by
      cases h.1 with
      | step _ _ hmem => exact hmem
    obtain ⟨earlier, htrail, hlength, hrest, hbest⟩ := ih (distance_of_level hlevel hi)
    refine ⟨i :: earlier, .step htrail hstep hmem, by rw [List.length_cons, hlength], ?_, ?_⟩
    · rw [htake _ _ hlater, hback i hparent, hrest, ← List.reverse_cons]
    · intro other hother hotherLength hne
      cases hother with
      | source => cases hotherLength
      | @step k _ rest hrestTrail hkstep _ =>
        -- the other path comes through the same level, and from there on it is compared again
        have hrestLength : rest.length = d := Nat.succ.inj hotherLength
        obtain ⟨level', hlevel', hk⟩ :=
          exists_level (h.pred hrestTrail hrestLength hkstep hmem)
        rw [hlevel] at hlevel'
        cases hlevel'
        rcases Nat.lt_or_eq_of_le (hleast k hk hkstep) with hlt | rfl
        · exact .rel hlt
        · refine .cons (hbest rest hrestTrail hrestLength fun heq => hne ?_)
          rw [heq]

/-- What a search between two numbers returns: a shortest path, and of these the first one from the
end on; or nothing, if there is no path. -/
theorem shortestPath?_cases (g : Graph) (source target : Nat) (within : PointSet) :
    (∃ earlier, g.shortestPath? source target within = some (target :: earlier).reverse ∧
      Trail g.succ within source target earlier ∧
      ∀ other, Trail g.succ within source target other → earlier.length ≤ other.length ∧
        (other.length = earlier.length → other ≠ earlier → List.Lex (· < ·) earlier other)) ∨
    (g.shortestPath? source target within = none ∧
      ∀ other, ¬Trail g.succ within source target other) := by
  by_cases hsome : ∃ d, Distance g.succ within [source] d target
  · obtain ⟨d, hdistance⟩ := hsome
    obtain ⟨level, hlevel, hmem⟩ := exists_level hdistance
    obtain ⟨earlier, htrail, hlength, hback, hbest⟩ := backtrack_levels hdistance
    refine .inl ⟨earlier, ?_, htrail, fun other hother => ⟨?_, fun hsame => ?_⟩⟩
    · rw [shortestPath?, pathTo?_eq_some hlevel hmem, List.append_nil, hback]
      intro m hm level' hlevel' hmem'
      exact hdistance.2 m hm (distance_of_level hlevel' hmem').1
    · rw [hlength]
      exact hdistance.le_of_walk hother.walk
    · exact hbest other hother (hsame.trans hlength)
  · refine .inr ⟨pathTo?_eq_none fun level hlevel hmem => ?_, fun other hother => ?_⟩
    · obtain ⟨d, hd⟩ := List.mem_iff_getElem?.1 hlevel
      exact hsome ⟨d, distance_of_level hd hmem⟩
    · exact hsome hother.walk.exists_distance

/-! ### Paths of points -/

/-- Control may go from one point to another in one step. -/
def Follows (g : Graph) (p q : Point) : Prop :=
  ∃ i j, g.index? p = some i ∧ g.index? q = some j ∧ j ∈ g.succ i

/-- A list of points is a path from one point to another. If some points are allowed only, all its
points after the first are among them. -/
structure Leads (g : Graph) (allowed : Option (List Point)) (source target : Point)
    (path : List Point) : Prop where
  /-- It starts at the source. -/
  head : path.head? = some source
  /-- It ends at the target. -/
  last : path.getLast? = some target
  /-- Each point may follow the one before. -/
  steps : path.IsChain g.Follows
  /-- The points after the first are allowed. -/
  inside : ∀ points ∈ allowed, ∀ point ∈ path.tail, point ∈ points

/-- The numbers of the points of a path, from the end on. -/
def numbersBack (g : Graph) (path : List Point) : List Nat :=
  (path.filterMap g.index?).reverse

/-- A set has the numbers of the points that are allowed. -/
def Admits (g : Graph) (allowed : Option (List Point)) (set : PointSet) : Prop :=
  ∀ point i, g.index? point = some i → (i ∈ set ↔ ∀ points ∈ allowed, point ∈ points)

variable {allowed : Option (List Point)} {set : PointSet} {first last : Point}

/-- Points with the same number are the same. -/
theorem index?_inj {p q : Point} {i : Nat} (hp : g.index? p = some i) (hq : g.index? q = some i) :
    p = q := by
  rw [index?_eq_some] at hp hq
  exact Option.some.inj (hp.symm.trans hq)

/-- The set of all points admits all. -/
theorem admits_all (g : Graph) : g.Admits none g.all := by
  intro point i hindex
  simp [all, lt_size_of_index? hindex]

/-- The set of some points admits these. -/
theorem admits_setOf {points : List Point} (h : g.setOf points = .ok set) :
    g.Admits (some points) set := by
  intro point i hindex
  rw [(setOf_eq_ok h).2 i]
  constructor
  · rintro ⟨other, hother, hsame⟩ _ ⟨⟩
    rwa [index?_inj hindex hsame]
  · intro hpoint
    exact ⟨point, hpoint points rfl, hindex⟩

/-- Points in a row and their numbers determine each other. -/
theorem filterMap_of_numbered {path : List Point} {numbers : List Nat}
    (h : path.map g.index? = numbers.map some) :
    numbers.filterMap g.pointAt? = path ∧ path.filterMap g.index? = numbers := by
  induction path generalizing numbers with
  | nil =>
    obtain rfl : numbers = [] := List.map_eq_nil_iff.1 h.symm
    exact ⟨rfl, rfl⟩
  | cons point path ih =>
    cases numbers with
    | nil => cases h
    | cons i numbers =>
      obtain ⟨hi, hrest⟩ := List.cons.inj h
      obtain ⟨hpath, hnumbers⟩ := ih hrest
      simp [hi, index?_eq_some.1 hi, hpath, hnumbers]

/-- The numbers of a path, read back. -/
theorem numbersBack_eq {path : List Point} {numbers : List Nat}
    (h : path.map g.index? = numbers.reverse.map some) : g.numbersBack path = numbers := by
  rw [numbersBack, (filterMap_of_numbered h).2, List.reverse_reverse]

/-- A path has as many points as numbers. -/
theorem length_eq_of_numbered {path : List Point} {numbers : List Nat}
    (h : path.map g.index? = numbers.reverse.map some) : path.length = numbers.length := by
  simpa using congrArg List.length h

/-- A path with one more point is a path if that point may follow and is allowed. -/
theorem leads_concat {path : List Point} (hne : path ≠ []) :
    g.Leads allowed first last (path ++ [last]) ↔ ∃ previous, g.Leads allowed first previous path ∧
      g.Follows previous last ∧ ∀ points ∈ allowed, last ∈ points := by
  have htail : (path ++ [last]).tail = path.tail ++ [last] := List.tail_append_of_ne_nil hne
  have hhead : (path ++ [last]).head? = path.head? := List.head?_append_of_ne_nil _ hne
  constructor
  · intro h
    have hprevious := List.getLast?_eq_some_getLast hne
    obtain ⟨hsteps, -, hstep⟩ := List.isChain_append.1 h.steps
    refine ⟨path.getLast hne,
      ⟨hhead ▸ h.head, hprevious, hsteps, fun points hpoints point hpoint => ?_⟩,
      hstep _ hprevious last rfl, fun points hpoints => ?_⟩
    · exact h.inside points hpoints point (htail ▸ List.mem_append_left _ hpoint)
    · exact h.inside points hpoints last (htail ▸ List.mem_append_right _ List.mem_cons_self)
  · rintro ⟨previous, h, hstep, hallowed⟩
    refine ⟨hhead ▸ h.head, List.getLast?_concat, ?_, fun points hpoints point hpoint => ?_⟩
    · refine List.isChain_append.2 ⟨h.steps, .singleton last, fun p hp q hq => ?_⟩
      rw [h.last] at hp
      cases hp
      cases hq
      exact hstep
    · rw [htail, List.mem_append, List.mem_singleton] at hpoint
      rcases hpoint with hold | rfl
      · exact h.inside points hpoints point hold
      · exact hallowed points hpoints

/-- A path of points is one of their numbers. -/
theorem Leads.exists_trail (hadmits : g.Admits allowed set) (hsource : g.index? first = some source)
    {path : List Point} (h : g.Leads allowed first last path) :
    ∃ j earlier, g.index? last = some j ∧ Trail g.succ set source j earlier ∧
      path.map g.index? = (j :: earlier).reverse.map some := by
  induction path using List.reverseRecOn generalizing last with
  | nil => cases h.head
  | append_singleton path point ih =>
    obtain rfl : point = last := Option.some.inj (List.getLast?_concat.symm.trans h.last)
    by_cases hne : path = []
    · subst hne
      obtain rfl : point = first := Option.some.inj h.head
      exact ⟨source, [], hsource, .source, by simp [hsource]⟩
    · obtain ⟨previous, hbefore, ⟨i, j, hi, hj, hstep⟩, hallowed⟩ := (leads_concat hne).1 h
      obtain ⟨i', earlier, hi', htrail, hnumbers⟩ := ih hbefore
      obtain rfl : i = i' := Option.some.inj (hi.symm.trans hi')
      refine ⟨j, i :: earlier, hj, .step htrail hstep ((hadmits point j hj).2 hallowed), ?_⟩
      rw [List.reverse_cons, List.map_append, List.map_append, hnumbers]
      simp [hj]

/-- A path of numbers is one of the points that have them. -/
theorem leads_of_trail (hadmits : g.Admits allowed set) (hsource : g.index? first = some source)
    {earlier : List Nat} (h : Trail g.succ set source j earlier) (hlast : g.index? last = some j) :
    ∃ path, g.Leads allowed first last path ∧
      path.map g.index? = (j :: earlier).reverse.map some := by
  induction h generalizing last with
  | source =>
    obtain rfl := index?_inj hsource hlast
    refine ⟨[first], ⟨rfl, rfl, .singleton _, fun _ _ point hpoint => ?_⟩, by simp [hsource]⟩
    cases hpoint
  | @step i j earlier htrail hstep hmem ih =>
    obtain ⟨previous, hprevious⟩ := exists_point (lt_size_of_mem_succ hstep)
    obtain ⟨path, hleads, hnumbers⟩ := ih hprevious
    have hne : path ≠ [] := by
      rintro rfl
      cases hleads.head
    refine ⟨path ++ [last], (leads_concat hne).2 ⟨previous, hleads,
      ⟨i, j, hprevious, hlast, hstep⟩, (hadmits last j hlast).1 hmem⟩, ?_⟩
    rw [List.reverse_cons, List.map_append, List.map_append, hnumbers]
    simp [hlast]

/-- The allowed points are numbers of a set, which the search goes through. -/
theorem path_eq (hsource : g.index? first = some source) (hlast : g.index? last = some target)
    (hallowed : ∀ points ∈ allowed, ∀ point ∈ points, g.contains point = true) :
    ∃ set, g.Admits allowed set ∧ g.path first last allowed =
      .ok ((g.shortestPath? source target set).map (·.filterMap g.pointAt?)) := by
  unfold path
  rw [index_eq_ok.2 hsource, index_eq_ok.2 hlast]
  cases allowed with
  | none => exact ⟨g.all, admits_all g, rfl⟩
  | some points =>
    obtain ⟨set, hset⟩ := exists_setOf fun point hpoint =>
      Option.isSome_iff_exists.1 (hallowed points rfl point hpoint)
    refine ⟨set, admits_setOf hset, ?_⟩
    simp only [hset]
    rfl

/-- **The path between two points is the canonical shortest one.** For two points of a graph, and
some points of it if only these are allowed after the first, the search returns nothing iff no path
leads from one to the other. What it returns is a path that no other is shorter than, and every
other path of its length has greater numbers, if they are compared from the end on. From a point to
itself it is the point alone, whether that is allowed or not. -/
theorem path_canonical (g : Graph) {source target : Point} {allowed : Option (List Point)}
    (hsource : g.contains source = true) (htarget : g.contains target = true)
    (hallowed : ∀ points ∈ allowed, ∀ point ∈ points, g.contains point = true) :
    ∃ result, g.path source target allowed = .ok result ∧
      (result = none ↔ ∀ path, ¬g.Leads allowed source target path) ∧
      (∀ path, result = some path → g.Leads allowed source target path ∧
        ∀ other, g.Leads allowed source target other → path.length ≤ other.length ∧
          (other.length = path.length → other ≠ path →
            List.Lex (· < ·) (g.numbersBack path) (g.numbersBack other))) ∧
      (source = target → result = some [source]) := by
  obtain ⟨i, hi⟩ := Option.isSome_iff_exists.1 hsource
  obtain ⟨j, hj⟩ := Option.isSome_iff_exists.1 htarget
  obtain ⟨set, hadmits, hresult⟩ := path_eq hi hj hallowed
  refine ⟨_, hresult, ?_⟩
  rcases shortestPath?_cases g i j set with
    ⟨earlier, hfound, htrail, hbest⟩ | ⟨hnone, hno⟩
  · obtain ⟨path, hleads, hnumbers⟩ := leads_of_trail hadmits hi htrail hj
    have hpath : (j :: earlier).reverse.filterMap g.pointAt? = path :=
      (filterMap_of_numbered hnumbers).1
    rw [hfound, Option.map_some, hpath]
    refine ⟨iff_of_false (Option.some_ne_none _) fun hno => hno path hleads, ?_,
      fun hsame => ?_⟩
    · rintro _ ⟨⟩
      refine ⟨hleads, fun other hother => ?_⟩
      obtain ⟨j', earlier', hj', htrail', hnumbers'⟩ := hother.exists_trail hadmits hi
      obtain rfl : j = j' := Option.some.inj (hj.symm.trans hj')
      obtain ⟨hle, hlex⟩ := hbest earlier' htrail'
      rw [length_eq_of_numbered hnumbers, length_eq_of_numbered hnumbers', numbersBack_eq hnumbers,
        numbersBack_eq hnumbers', List.length_cons, List.length_cons]
      refine ⟨Nat.succ_le_succ hle, fun hlength hne => .cons (hlex (Nat.succ.inj hlength) ?_)⟩
      rintro rfl
      rw [(filterMap_of_numbered hnumbers').1] at hpath
      exact hne hpath
    · subst hsame
      obtain rfl : i = j := Option.some.inj (hi.symm.trans hj)
      have hshort : earlier = [] := List.length_eq_zero_iff.1 (Nat.le_zero.1 (hbest [] .source).1)
      rw [← hpath, hshort]
      simp [index?_eq_some.1 hi]
  · rw [hnone, Option.map_none]
    refine ⟨iff_of_true rfl fun path hleads => ?_, fun path hpath => ?_, fun hsame => ?_⟩
    · obtain ⟨j', earlier, hj', htrail, -⟩ := hleads.exists_trail hadmits hi
      obtain rfl : j = j' := Option.some.inj (hj.symm.trans hj')
      exact hno earlier htrail
    · cases hpath
    · subst hsame
      obtain rfl : i = j := Option.some.inj (hi.symm.trans hj)
      exact absurd .source (hno [])

end Graph

namespace Sample

/-- Two ways of three steps lead to the end, one through `B` and `E`, the other through `C` and
`D`. -/
def detours : Graph :=
  .build [
    { name := "A", statements := [], terminator := .goto ["B", "C"] },
    { name := "B", statements := [], terminator := .goto ["E"] },
    { name := "C", statements := [], terminator := .goto ["D"] },
    { name := "D", statements := [], terminator := .goto ["F"] },
    { name := "E", statements := [], terminator := .goto ["F"] },
    { name := "F", statements := [], terminator := .ret }]
    "A" (by decide) (by decide) (by decide)

/-- All points but the first. -/
def laterPoints : List Point :=
  [⟨"B", 0⟩, ⟨"C", 0⟩, ⟨"D", 0⟩, ⟨"E", 0⟩, ⟨"F", 0⟩]

/-- The path that is found goes through `C` and `D`. -/
theorem path_detours : detours.path ⟨"A", 0⟩ ⟨"F", 0⟩ laterPoints =
    .ok (some [⟨"A", 0⟩, ⟨"C", 0⟩, ⟨"D", 0⟩, ⟨"F", 0⟩]) := by
  cbv

/-- The other way leads to the end, too. -/
theorem leads_detours : detours.Leads laterPoints ⟨"A", 0⟩ ⟨"F", 0⟩
    [⟨"A", 0⟩, ⟨"B", 0⟩, ⟨"E", 0⟩, ⟨"F", 0⟩] where
  head := rfl
  last := rfl
  steps := .cons_cons ⟨0, 1, rfl, rfl, by decide⟩ (.cons_cons ⟨1, 4, rfl, rfl, by decide⟩
    (.cons_cons ⟨4, 5, rfl, rfl, by decide⟩ (.singleton _)))
  inside := by
    rintro _ ⟨⟩
    decide

end Sample

/-- Of the two ways, the one through `C` and `D` is returned: read from the end on, `D` comes before
`E`, although `B` comes before `C`. -/
theorem Graph.detour_through_lower_end :
    Sample.detours.contains ⟨"A", 0⟩ = true ∧ Sample.detours.contains ⟨"F", 0⟩ = true ∧
      (∀ point ∈ Sample.laterPoints, Sample.detours.contains point = true) ∧
      Sample.detours.path ⟨"A", 0⟩ ⟨"F", 0⟩ Sample.laterPoints =
        .ok (some [⟨"A", 0⟩, ⟨"C", 0⟩, ⟨"D", 0⟩, ⟨"F", 0⟩]) ∧
      List.Lex (· < ·) (Sample.detours.numbersBack [⟨"A", 0⟩, ⟨"C", 0⟩, ⟨"D", 0⟩, ⟨"F", 0⟩])
        (Sample.detours.numbersBack [⟨"A", 0⟩, ⟨"B", 0⟩, ⟨"E", 0⟩, ⟨"F", 0⟩]) := by
  have hpoints : ∀ point ∈ Sample.laterPoints, Sample.detours.contains point = true := by decide
  have hallowed : ∀ points ∈ some Sample.laterPoints, ∀ point ∈ points,
      Sample.detours.contains point = true := by
    rintro _ ⟨⟩
    exact hpoints
  obtain ⟨result, hresult, -, hpath, -⟩ := Sample.detours.path_canonical
    (show Sample.detours.contains ⟨"A", 0⟩ = true by decide)
    (show Sample.detours.contains ⟨"F", 0⟩ = true by decide) hallowed
  cases Sample.path_detours.symm.trans hresult
  obtain ⟨-, hothers⟩ := hpath _ rfl
  obtain ⟨-, hlex⟩ := hothers _ Sample.leads_detours
  exact ⟨by decide, by decide, hpoints, Sample.path_detours, hlex rfl (by decide)⟩

end RegionInference
