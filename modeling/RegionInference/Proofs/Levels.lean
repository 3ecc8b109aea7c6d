import Mathlib.Data.Nat.Find
import RegionInference.Graph.Search
import RegionInference.Proofs.Reach

/-!
# A search visits points by their distance

A search goes through the graph level by level. The level with number `d` holds exactly the points
at distance `d` from the sources, that is, those to which a walk of `d` steps leads and no shorter
one (`Graph.mem_levels`, and `Graph.mem_visits` for the visits of a search). Each level is in the
order of the points (`Search.InOrder`), so visits are made by distance and then by number
(`Graph.pairwise_visits`).

The proof follows the recursion: the search goes on from the next level with the points that are
then unseen, and a walk from the frontier becomes a shorter one from the next level if it is cut at
its last point in that level (`Search.Walk.cut`).
-/

namespace RegionInference

namespace Visit

variable {visit other : Visit} {level : List Visit}

/-- A visit that is put into a level is in it, with those that were. -/
theorem mem_insert : other ∈ visit.insert level ↔ other = visit ∨ other ∈ level := by
  induction level with
  | nil => simp [insert]
  | cons first level ih =>
    rw [insert]
    split
    · rw [List.mem_cons]
    · rw [List.mem_cons, ih, List.mem_cons]
      exact or_left_comm

/-- The same for the points of the visits. -/
theorem mem_map_insert {j : Nat} :
    j ∈ (visit.insert level).map point ↔ j = visit.point ∨ j ∈ level.map point := by
  simp only [List.mem_map, mem_insert, exists_eq_or_imp]
  exact or_congr_left eq_comm

/-- A visit of a new point keeps a level in order. -/
theorem pairwise_insert (h : level.Pairwise fun a b => a.point < b.point)
    (hnew : visit.point ∉ level.map point) :
    (visit.insert level).Pairwise fun a b => a.point < b.point := by
  induction level with
  | nil => exact List.pairwise_singleton _ _
  | cons first level ih =>
    obtain ⟨hfirst, hrest⟩ := List.pairwise_cons.1 h
    rw [List.map_cons, List.mem_cons, not_or] at hnew
    rw [insert]
    split
    · next hle =>
      have hlt : visit.point < first.point := Nat.lt_of_le_of_ne hle hnew.1
      refine List.pairwise_cons.2 ⟨fun other hother => ?_, h⟩
      rcases List.mem_cons.1 hother with rfl | hother
      · exact hlt
      · exact Nat.lt_trans hlt (hfirst other hother)
    · next hgt =>
      refine List.pairwise_cons.2 ⟨fun other hother => ?_, ih hrest hnew.2⟩
      rcases mem_insert.1 hother with rfl | hother
      · exact Nat.lt_of_not_le hgt
      · exact hfirst other hother

end Visit

namespace Search

variable {next : Nat → List Nat} {within unseen : PointSet} {sources : List Nat} {d j : Nat}

/-! ### The next level -/

/-- Meeting points puts those of them on the level that are unseen, and nothing else. -/
theorem mem_meet {parent : Nat} {points : List Nat} {level : List Visit} :
    (j ∈ (meet parent points (level, unseen)).1.map Visit.point ↔
      j ∈ level.map Visit.point ∨ (j ∈ points ∧ j ∈ unseen)) ∧
    (j ∈ (meet parent points (level, unseen)).2 ↔ j ∈ unseen ∧ j ∉ points) := by
  induction points generalizing level unseen with
  | nil => simp [meet]
  | cons i points ih =>
    rw [meet]
    split
    · next hi =>
      obtain ⟨hlevel, hunseen⟩ := @ih (unseen.erase i) (Visit.insert ⟨i, some parent⟩ level)
      rw [hlevel, hunseen, Visit.mem_map_insert, PointSet.mem_erase, List.mem_cons]
      by_cases hj : j = i
      · subst hj
        simp [hi]
      · simp [hj]
    · next hi =>
      obtain ⟨hlevel, hunseen⟩ := @ih unseen level
      rw [hlevel, hunseen, List.mem_cons]
      by_cases hj : j = i
      · subst hj
        simp [hi]
      · simp [hj]

/-- The next level has the unseen points that follow one of the frontier, and they are unseen no
more. -/
theorem mem_expand {frontier : List Visit} :
    (j ∈ (expand next frontier unseen).1.map Visit.point ↔
      j ∈ unseen ∧ ∃ i ∈ frontier.map Visit.point, j ∈ next i) ∧
    (j ∈ (expand next frontier unseen).2 ↔
      j ∈ unseen ∧ ¬∃ i ∈ frontier.map Visit.point, j ∈ next i) := by
  have hfold : ∀ (frontier level : List Visit) (unseen : PointSet),
      let result := frontier.foldl (fun state visit => meet visit.point (next visit.point) state)
        (level, unseen)
      (j ∈ result.1.map Visit.point ↔ j ∈ level.map Visit.point ∨
        (j ∈ unseen ∧ ∃ i ∈ frontier.map Visit.point, j ∈ next i)) ∧
      (j ∈ result.2 ↔ j ∈ unseen ∧ ¬∃ i ∈ frontier.map Visit.point, j ∈ next i) := by
    intro frontier
    induction frontier with
    | nil => simp
    | cons visit frontier ih =>
      intro level unseen
      obtain ⟨hmet, hleft⟩ :=
        @mem_meet unseen j visit.point (next visit.point) level
      generalize hstate : meet visit.point (next visit.point) (level, unseen) = state at hmet hleft
      obtain ⟨level', unseen'⟩ := state
      obtain ⟨hlevel, hunseen⟩ := ih level' unseen'
      simp only [List.foldl_cons, hstate]
      rw [hlevel, hunseen, hmet, hleft]
      simp only [List.map_cons, List.mem_cons, exists_eq_or_imp]
      by_cases hnext : j ∈ next visit.point
      · simp [hnext]
      · simp [hnext]
  unfold expand
  simpa using hfold frontier [] unseen

/-! ### Order -/

/-- The visits of a level are in the order of their points, and the points are seen. -/
structure InOrder (level : List Visit) (unseen : PointSet) : Prop where
  /-- The points of the level increase. -/
  sorted : level.Pairwise fun a b => a.point < b.point
  /-- The points of the level are seen. -/
  seen : ∀ i ∈ level.map Visit.point, i ∉ unseen

/-- Meeting the successors of a point keeps the level in order. -/
theorem InOrder.meet {parent : Nat} {points : List Nat} {level : List Visit}
    (h : InOrder level unseen) :
    InOrder (meet parent points (level, unseen)).1 (meet parent points (level, unseen)).2 := by
  induction points generalizing level unseen with
  | nil => exact h
  | cons i points ih =>
    rw [Search.meet]
    split
    · next hi =>
      refine ih ⟨Visit.pairwise_insert h.sorted fun hmem => h.seen i hmem hi, fun j hj => ?_⟩
      rw [PointSet.mem_erase]
      rintro ⟨hunseen, hne⟩
      exact h.seen j ((Visit.mem_map_insert.1 hj).resolve_left hne) hunseen
    · exact ih h

/-- The next level is in order, whatever the order of the frontier. -/
theorem inOrder_expand (next : Nat → List Nat) (frontier : List Visit) (unseen : PointSet) :
    InOrder (expand next frontier unseen).1 (expand next frontier unseen).2 := by
  have hfold : ∀ (frontier : List Visit) (state : List Visit × PointSet),
      InOrder state.1 state.2 →
      let result := frontier.foldl (fun state visit => meet visit.point (next visit.point) state)
        state
      InOrder result.1 result.2 := by
    intro frontier
    induction frontier with
    | nil => exact fun state h => h
    | cons visit frontier ih => exact fun state h => ih _ h.meet
  exact hfold frontier ([], unseen) ⟨List.Pairwise.nil, fun i hi => absurd hi List.not_mem_nil⟩

/-- All levels of a search are in order if the first one is. -/
theorem sorted_levelsFrom {frontier : List Visit}
    (h : frontier.Pairwise fun a b => a.point < b.point) :
    ∀ level ∈ levelsFrom next frontier unseen, level.Pairwise fun a b => a.point < b.point := by
  fun_induction levelsFrom next frontier unseen with
  | case1 frontier unseen found hnone =>
    intro level hlevel
    rw [List.mem_singleton.1 hlevel]
    exact h
  | case2 frontier unseen found hsome ih =>
    intro level hlevel
    rcases List.mem_cons.1 hlevel with rfl | hlater
    · exact h
    · exact ih (inOrder_expand next frontier unseen).sorted level hlater

/-! ### Walks and distances -/

/-- A walk of some steps leads from a source to a point, and all its points after the source are in
a set. -/
inductive Walk (next : Nat → List Nat) (within : PointSet) (sources : List Nat) :
    Nat → Nat → Prop where
  /-- The walk of no steps. -/
  | source {i : Nat} : i ∈ sources → Walk next within sources 0 i
  /-- One more step. -/
  | step {d i j : Nat} : Walk next within sources d i → j ∈ next i → j ∈ within →
      Walk next within sources (d + 1) j

/-- A walk of `d` steps leads to a point, and no shorter one. -/
def Distance (next : Nat → List Nat) (within : PointSet) (sources : List Nat) (d j : Nat) : Prop :=
  Walk next within sources d j ∧ ∀ m < d, ¬Walk next within sources m j

/-- Where a walk leads, there is a distance. -/
theorem Walk.exists_distance (h : Walk next within sources d j) :
    ∃ m, Distance next within sources m j := by
  classical
  have hsome : ∃ d, Walk next within sources d j := ⟨d, h⟩
  exact ⟨Nat.find hsome, Nat.find_spec hsome, fun m hm => Nat.find_min hsome hm⟩

/-- No walk is shorter than the distance. -/
theorem Distance.le_of_walk {m : Nat} (h : Distance next within sources d j)
    (hwalk : Walk next within sources m j) : d ≤ m :=
  Nat.le_of_not_lt fun hlt => h.2 m hlt hwalk

namespace Walk

variable {frontier : List Visit}

/-- A walk leads to a source or to a point of the set. -/
theorem mem (h : Walk next within sources d j) : j ∈ sources ∨ j ∈ within := by
  cases h with
  | source hmem => exact .inl hmem
  | step _ _ hmem => exact .inr hmem

/-- A walk from the next level is one step of a walk from the frontier. -/
theorem extend (h : Walk next (expand next frontier unseen).2
    ((expand next frontier unseen).1.map Visit.point) d j) :
    Walk next unseen (frontier.map Visit.point) (d + 1) j := by
  induction h with
  | source hmem =>
    obtain ⟨hunseen, i, hi, hstep⟩ := mem_expand.1.1 hmem
    exact .step (.source hi) hstep hunseen
  | step _ hstep hmem ih => exact .step ih hstep (mem_expand.2.1 hmem).1

/-- A walk from the frontier, cut at its last point in the next level, is a shorter one from
there. -/
theorem cut (h : Walk next unseen (frontier.map Visit.point) (d + 1) j) :
    ∃ m ≤ d, Walk next (expand next frontier unseen).2
      ((expand next frontier unseen).1.map Visit.point) m j := by
  induction d generalizing j with
  | zero =>
    cases h with
    | step hwalk hstep hmem =>
      cases hwalk with
      | source hi => exact ⟨0, Nat.le_refl 0, .source (mem_expand.1.2 ⟨hmem, _, hi, hstep⟩)⟩
  | succ d ih =>
    cases h with
    | @step _ i _ hwalk hstep hmem =>
      obtain ⟨m, hm, hcut⟩ := ih hwalk
      by_cases hlevel : ∃ i ∈ frontier.map Visit.point, j ∈ next i
      · exact ⟨0, Nat.zero_le _, .source (mem_expand.1.2 ⟨hmem, hlevel⟩)⟩
      · exact ⟨m + 1, Nat.succ_le_succ hm, .step hcut hstep (mem_expand.2.2 ⟨hmem, hlevel⟩)⟩

end Walk

/-- Distances from the frontier are one more than those from the next level. -/
theorem distance_succ {frontier : List Visit}
    (hseen : ∀ i ∈ frontier.map Visit.point, i ∉ unseen) :
    Distance next unseen (frontier.map Visit.point) (d + 1) j ↔
      Distance next (expand next frontier unseen).2
        ((expand next frontier unseen).1.map Visit.point) d j := by
  constructor
  · rintro ⟨hwalk, hmin⟩
    have hshortest : ∀ m < d, ¬Walk next (expand next frontier unseen).2
        ((expand next frontier unseen).1.map Visit.point) m j :=
      fun m hm hless => hmin (m + 1) (by omega) hless.extend
    obtain ⟨m, hm, hcut⟩ := hwalk.cut
    obtain rfl : m = d := by
      by_contra hne
      exact hshortest m (by omega) hcut
    exact ⟨hcut, hshortest⟩
  · rintro ⟨hwalk, hmin⟩
    refine ⟨hwalk.extend, fun m hm hless => ?_⟩
    cases m with
    | zero =>
      -- the point is on the frontier, but what comes later was unseen
      cases hless with
      | source hmem =>
        refine hseen j hmem ?_
        rcases hwalk.mem with hlevel | hleft
        · exact (mem_expand.1.1 hlevel).1
        · exact (mem_expand.2.1 hleft).1
    | succ m =>
      obtain ⟨m', hm', hcut⟩ := hless.cut
      exact hmin m' (by omega) hcut

/-- At no distance there are the sources. -/
theorem distance_zero : Distance next within sources 0 j ↔ j ∈ sources := by
  constructor
  · rintro ⟨hwalk, -⟩
    cases hwalk with
    | source hmem => exact hmem
  · exact fun hmem => ⟨.source hmem, fun m hm => absurd hm (Nat.not_lt_zero m)⟩

/-- Without sources there are no walks. -/
theorem not_walk_nil : ¬Walk next within [] d j := by
  intro h
  induction h with
  | source hmem => cases hmem
  | step _ _ _ ih => exact ih

/-- The levels of a search hold the points by their distance from the frontier. -/
theorem mem_levelsFrom {frontier : List Visit}
    (hseen : ∀ i ∈ frontier.map Visit.point, i ∉ unseen) :
    (∃ level, (levelsFrom next frontier unseen)[d]? = some level ∧
      j ∈ level.map Visit.point) ↔
      Distance next unseen (frontier.map Visit.point) d j := by
  revert d
  fun_induction levelsFrom next frontier unseen with
  | case1 frontier unseen found hnone =>
    intro d
    cases d with
    | zero => simp [distance_zero]
    | succ d =>
      -- no walk has a first step
      have hempty : (expand next frontier unseen).1 = [] := hnone
      rw [distance_succ hseen, hempty]
      simp [Distance, not_walk_nil]
  | case2 frontier unseen found hsome ih =>
    intro d
    cases d with
    | zero => simp [distance_zero]
    | succ d =>
      rw [distance_succ hseen, List.getElem?_cons_succ]
      refine ih fun i hi hleft => ?_
      exact (mem_expand.2.1 hleft).2 (mem_expand.1.1 hi).2

/-! ### Sources in the set -/

/-- A walk through the sources, cut at its last source, is a walk outside them. -/
theorem Walk.cut_sources {sources within : PointSet}
    (h : Walk next within sources.toList d j) :
    ∃ m ≤ d, Walk next (within.diff sources) sources.toList m j := by
  induction h with
  | source hmem => exact ⟨0, Nat.le_refl 0, .source hmem⟩
  | @step d i j _ hstep hmem ih =>
    obtain ⟨m, hm, hcut⟩ := ih
    by_cases hsource : j ∈ sources
    · exact ⟨0, Nat.zero_le _, .source (PointSet.mem_toList.2 hsource)⟩
    · exact ⟨m + 1, Nat.succ_le_succ hm, .step hcut hstep (PointSet.mem_diff.2 ⟨hmem, hsource⟩)⟩

/-- A walk through a set is one through any greater set. -/
theorem Walk.mono {within' : PointSet} (hsub : ∀ i ∈ within, i ∈ within')
    (h : Walk next within sources d j) : Walk next within' sources d j := by
  induction h with
  | source hmem => exact .source hmem
  | step _ hstep hmem ih => exact .step ih hstep (hsub _ hmem)

/-- It does not matter for distances whether the set has the sources. -/
theorem distance_diff {sources within : PointSet} :
    Distance next (within.diff sources) sources.toList d j ↔
      Distance next within sources.toList d j := by
  have hsub : ∀ i ∈ within.diff sources, i ∈ within := fun i hi => (PointSet.mem_diff.1 hi).1
  constructor
  · rintro ⟨hwalk, hmin⟩
    refine ⟨hwalk.mono hsub, fun m hm hless => ?_⟩
    obtain ⟨m', hm', hcut⟩ := hless.cut_sources
    exact hmin m' (by omega) hcut
  · rintro ⟨hwalk, hmin⟩
    obtain ⟨m, hm, hcut⟩ := hwalk.cut_sources
    obtain rfl : m = d := by
      by_contra hne
      exact hmin m (by omega) (hcut.mono hsub)
    exact ⟨hcut, fun m' hm' hless => hmin m' hm' (hless.mono hsub)⟩

end Search

namespace Graph

open Search

variable {g : Graph} {sources within : PointSet} {d j : Nat}

/-- The levels of a search hold the points by their distance from the sources. -/
theorem mem_levels : (∃ level, (g.levels sources within)[d]? = some level ∧
    j ∈ level.map Visit.point) ↔ Distance g.succ within sources.toList d j := by
  unfold levels
  split
  · next hempty =>
    have hnone : sources.toList = [] := by
      rw [List.eq_nil_iff_forall_not_mem]
      exact fun i hi => PointSet.isEmpty_iff.1 hempty i (PointSet.mem_toList.1 hi)
    rw [hnone]
    simp [Distance, not_walk_nil]
  · have hpoints : (sources.toList.map fun i => (⟨i, none⟩ : Visit)).map Visit.point =
        sources.toList := by
      rw [List.map_map]
      exact List.map_id _
    have hseen : ∀ i ∈ (sources.toList.map fun i => (⟨i, none⟩ : Visit)).map Visit.point,
        i ∉ within.diff sources := by
      rw [hpoints]
      exact fun i hi hout => (PointSet.mem_diff.1 hout).2 (PointSet.mem_toList.1 hi)
    have hlevels := @mem_levelsFrom g.succ (within.diff sources) d j _ hseen
    rwa [hpoints, distance_diff] at hlevels

/-- Each level of a search is in the order of its points. -/
theorem sorted_levels {level : List Visit} (h : level ∈ g.levels sources within) :
    level.Pairwise fun a b => a.point < b.point := by
  unfold levels at h
  split at h
  · cases h
  · exact sorted_levelsFrom (List.pairwise_map.2 sources.pairwise_toList) level h

/-- A search visits each point at its distance from the sources. -/
theorem mem_visits :
    (∃ visit, (visit, d) ∈ g.visits sources within ∧ visit.point = j) ↔
      Distance g.succ within sources.toList d j := by
  rw [← mem_levels]
  unfold visits
  constructor
  · rintro ⟨visit, hvisit, rfl⟩
    obtain ⟨⟨level, number⟩, hlevel, hmem⟩ := List.mem_flatMap.1 hvisit
    obtain ⟨other, hother, heq⟩ := List.mem_map.1 hmem
    cases heq
    exact ⟨level, List.mem_zipIdx_iff_getElem?.1 hlevel, List.mem_map_of_mem hother⟩
  · rintro ⟨level, hlevel, hmem⟩
    obtain ⟨visit, hvisit, rfl⟩ := List.mem_map.1 hmem
    exact ⟨visit, List.mem_flatMap.2 ⟨(level, d), List.mem_zipIdx_iff_getElem?.2 hlevel,
      List.mem_map.2 ⟨visit, hvisit, rfl⟩⟩, rfl⟩

/-- A search makes its visits by distance, and at one distance by number. -/
theorem pairwise_visits (g : Graph) (sources within : PointSet) :
    (g.visits sources within).Pairwise fun a b =>
      a.2 < b.2 ∨ a.2 = b.2 ∧ a.1.point < b.1.point := by
  have hnumbers : ((g.levels sources within).zipIdx.map Prod.snd).Pairwise (· < ·) := by
    rw [List.zipIdx_map_snd]
    exact List.pairwise_lt_range'
  unfold visits
  rw [List.pairwise_flatMap]
  constructor
  · rintro ⟨level, distance⟩ hlevel
    have hmem := List.mem_of_getElem? (List.mem_zipIdx_iff_getElem?.1 hlevel)
    exact List.pairwise_map.2 ((sorted_levels hmem).imp fun hlt => .inr ⟨rfl, hlt⟩)
  · refine (List.pairwise_map.1 hnumbers).imp ?_
    rintro ⟨level, distance⟩ ⟨level', distance'⟩ hlt a ha b hb
    obtain ⟨-, -, rfl⟩ := List.mem_map.1 ha
    obtain ⟨-, -, rfl⟩ := List.mem_map.1 hb
    exact .inl hlt

/-- From a point of a set, walks through the set lead to what is reached within it. -/
theorem exists_walk_iff_reached {i : Nat} (hi : i ∈ within) :
    (∃ d, Walk g.succ within (PointSet.single i).toList d j) ↔ g.ReachedWithin within i j := by
  have hsource : ∀ k, k ∈ (PointSet.single i).toList ↔ k = i := by
    intro k
    rw [PointSet.mem_toList, PointSet.mem_single]
  constructor
  · rintro ⟨d, hwalk⟩
    induction hwalk with
    | source hmem =>
      rw [(hsource _).1 hmem]
      exact .start hi
    | step _ hstep hmem ih => exact .step ih hstep hmem
  · intro hreach
    induction hreach with
    | start => exact ⟨0, .source ((hsource i).2 rfl)⟩
    | step _ hstep hmem ih =>
      obtain ⟨d, hwalk⟩ := ih
      exact ⟨d + 1, .step hwalk hstep hmem⟩

/-- From a point of a set, a search through the set visits what is reached within it. -/
theorem mem_visits_iff_reached {i : Nat} (hi : i ∈ within) :
    j ∈ (g.visits (.single i) within).map (fun (visit, _) => visit.point) ↔
      g.ReachedWithin within i j := by
  rw [← exists_walk_iff_reached hi]
  simp only [List.mem_map, Prod.exists]
  constructor
  · rintro ⟨visit, d, hvisit, heq⟩
    exact ⟨d, (mem_visits.1 ⟨visit, hvisit, heq⟩).1⟩
  · rintro ⟨d, hwalk⟩
    obtain ⟨m, hdistance⟩ := hwalk.exists_distance
    obtain ⟨visit, hvisit, heq⟩ := mem_visits.2 hdistance
    exact ⟨visit, m, hvisit, heq⟩

end Graph

end RegionInference
