import Mathlib
import RegionInference.Loan.Narrative
import RegionInference.Proofs.ConflictRules
import RegionInference.Proofs.LaterUse
import RegionInference.Proofs.ShortestPath
import RegionInference.Proofs.UseSites
import RegionInference.Proofs.Violations

/-!
# Narratives of detected conflicts

The detector looks for uses among the points at which a loan is active; a narrative looks for its
two paths in the whole region of the loan. Both find the same, because a step from the borrow or
from an active point that stays in the region leads to an active point (`Detector.active_closed`).
So every path within the region is one through active points (`Search.Trail.restrict`), a shortest
one is as long as the search through the active points says (`Graph.path_within`), and the narrative
of a detected conflict falls back on nothing (`Detector.narratives_are_witnesses`). What it takes is
that the region can be listed: with a number in it that no point has, there is no narrative at all,
although the points at which the loan is active are points of the graph (`Detector.active_lt_size`).
-/

namespace RegionInference

namespace Search

variable {next : Nat → List Nat} {within within' : PointSet} {source j : Nat} {earlier : List Nat}

/-- A path ends where it starts, or in the set that it goes through. -/
theorem Trail.mem (h : Trail next within source j earlier) : j = source ∨ j ∈ within := by
  cases h with
  | source => exact .inl rfl
  | step _ _ hmem => exact .inr hmem

/-- A path through one set is a path through another one that its steps do not leave. -/
theorem Trail.restrict
    (hclosed : ∀ a b, a = source ∨ a ∈ within' → b ∈ next a → b ∈ within → b ∈ within')
    (h : Trail next within source j earlier) : Trail next within' source j earlier := by
  induction h with
  | source => exact .source
  | step _ hstep hmem ih => exact .step ih hstep (hclosed _ _ ih.mem hstep hmem)

end Search

namespace Graph

open Search

variable {g : Graph} {first last : Point} {region active : PointSet} {source target d : Nat}
  {inside points : List Point}

/-- The points that a set lists admit the numbers in the set. -/
theorem admits_pointsOf (h : g.pointsOf active = .ok points) : g.Admits (some points) active := by
  intro point i hindex
  simp [mem_pointsOf h, hindex]

/-- Between points of the graph, a path within a set is one through the points that the set lists,
and fails where they cannot be listed. -/
theorem pathWithin_eq (hfirst : g.index? first = some source)
    (hlast : g.index? last = some target) : g.pathWithin first last region =
      (g.pointsOf region).bind fun inside => g.path first last inside := by
  simp only [pathWithin, index_eq_ok.2 hfirst, index_eq_ok.2 hlast]
  rfl

/-- Steps within the region, from a point that may start outside it, are a walk through a set that
they do not leave. -/
theorem exists_walk_of_walksWithin
    (hclosed : ∀ a b, a = source ∨ a ∈ active → b ∈ g.succ a → b ∈ region → b ∈ active)
    (h : g.WalksWithin region source target) : ∃ d, Walk g.succ active [source] d target := by
  induction h with
  | single hstep =>
    exact ⟨1, .step (.source List.mem_cons_self) hstep.1 (hclosed _ _ (.inl rfl) hstep.1 hstep.2)⟩
  | tail _ hstep ih =>
    obtain ⟨d, hwalk⟩ := ih
    have hmem := hwalk.mem.imp_left List.mem_singleton.1
    exact ⟨d + 1, .step hwalk hstep.1 (hclosed _ _ hmem hstep.1 hstep.2)⟩

/-- If steps within the region do not leave a part of it, a shortest path in the region is a
shortest path in that part. -/
theorem path_within (hfirst : g.index? first = some source) (hlast : g.index? last = some target)
    (hpart : ∀ a ∈ active, a ∈ region)
    (hclosed : ∀ a b, a = source ∨ a ∈ active → b ∈ g.succ a → b ∈ region → b ∈ active)
    (hinside : g.pointsOf region = .ok inside) (hpoints : g.pointsOf active = .ok points)
    (hdistance : Distance g.succ active [source] d target) :
    ∃ path, g.pathWithin first last region = .ok (some path) ∧
      g.Leads (some points) first last path ∧ path.length = d + 1 := by
  obtain ⟨set, hadmits, hpath⟩ := @path_eq g source target (some inside) first last
    hfirst hlast <| by
      rintro _ ⟨⟩ point hpoint
      obtain ⟨i, -, hindex⟩ := (mem_pointsOf hinside).1 hpoint
      exact Option.isSome_iff_exists.2 ⟨i, hindex⟩
  have hset : ∀ a b, b ∈ g.succ a → (b ∈ set ↔ b ∈ region) := by
    intro a b hstep
    obtain ⟨point, hpoint⟩ := exists_point (succ_lt_size hstep)
    rw [hadmits point b hpoint, admits_pointsOf hinside point b hpoint]
  obtain ⟨nearest, hnearest, hlength, -⟩ := backtrack_levels hdistance
  have hinSet : Trail g.succ set source target nearest :=
    hnearest.restrict fun a b _ hstep hb => (hset a b hstep).2 (hpart b hb)
  rcases shortestPath?_cases g source target set with
    ⟨earlier, hfound, htrail, hbest⟩ | ⟨-, hnone⟩
  · have hinActive : Trail g.succ active source target earlier :=
      htrail.restrict fun a b ha hstep hb => hclosed a b ha hstep ((hset a b hstep).1 hb)
    obtain ⟨path, hleads, hnumbers⟩ :=
      leads_of_trail (admits_pointsOf hpoints) hfirst hinActive hlast
    have hshort : earlier.length = d := by
      apply Nat.le_antisymm
      · rw [← hlength]
        exact (hbest nearest hinSet).1
      · exact hdistance.le_of_walk hinActive.walk
    refine ⟨path, ?_, hleads, ?_⟩
    · rw [pathWithin_eq hfirst hlast, hinside, Except.bind, hpath, hfound, Option.map_some,
        (filterMap_of_numbered hnumbers).1]
    · rw [length_eq_of_numbered hnumbers, List.length_cons, hshort]
  · exact absurd hinSet (hnone nearest)

end Graph

/-- The paths of a narrative witness its conflict: they are found inside the region of the loan, and
go through the listed points at which the loan is active. -/
structure Narrative.Witnesses (narrative : Narrative) (detector : Detector)
    (region active : PointSet) (points : List Point) : Prop where
  /-- The way to the action is the one found inside the region of the loan. -/
  direct : detector.graph.pathWithin narrative.conflict.loan.point narrative.conflict.point region =
    .ok (some narrative.toAction)
  /-- It leads from the borrow to the action, through points at which the loan is active. -/
  toAction : detector.graph.Leads (some points) narrative.conflict.loan.point
    narrative.conflict.point narrative.toAction
  /-- The loan is active at the action. -/
  atAction : narrative.conflict.point ∈ points
  /-- Where the conflict names no use, there is no way to one. -/
  unused : narrative.conflict.use = none → narrative.toUse = none
  /-- Else the way leads from the action to the use, through points at which the loan is active, in
  as many steps as the search that found the use took to get there. -/
  toUse : ∀ use, narrative.conflict.use = some use → ∃ path i visit,
    narrative.toUse = some path ∧
    detector.graph.Leads (some points) narrative.conflict.point use path ∧
    detector.graph.index? narrative.conflict.point = some i ∧
    detector.graph.index? use = some visit.point ∧
    (visit, path.length - 1) ∈ detector.graph.visits (.single i) active

namespace Detector

variable {detector : Detector} {loan : Loan} {conflict : Conflict} {conflicts : List Conflict}
  {region active : PointSet} {inside points : List Point} {start : Nat}

/-- A loan is active at points of the graph only, whatever its region. -/
theorem active_lt_size (hactive : detector.active loan = .ok active) :
    ∀ i ∈ active, i < detector.graph.size := by
  intro i hi
  obtain ⟨start, region, -, -, hwalk⟩ := (mem_active hactive).1 hi
  obtain ⟨before, -, hlast⟩ := Relation.TransGen.tail'_iff.1 hwalk
  exact Graph.succ_lt_size hlast.1

/-- A step inside the region, from the borrow or from a point at which the loan is active, leads to
a point at which the loan is active. -/
theorem active_closed (hactive : detector.active loan = .ok active)
    (hregion : detector.regions.get? loan.lifetime = some region)
    (hstart : detector.graph.index? loan.point = some start) {a b : Nat}
    (ha : a = start ∨ a ∈ active) (hstep : b ∈ detector.graph.succ a) (hb : b ∈ region) :
    b ∈ active := by
  apply (mem_active hactive).2
  refine ⟨start, region, hstart, hregion, ?_⟩
  rcases ha with rfl | ha
  · exact .single ⟨hstep, hb⟩
  · obtain ⟨start', region', hstart', hregion', hwalk⟩ := (mem_active hactive).1 ha
    rw [hstart] at hstart'
    rw [hregion] at hregion'
    cases hstart'
    cases hregion'
    exact hwalk.tail ⟨hstep, hb⟩

/-- The way from the borrow to a point at which the loan is active. -/
theorem path_toAction (hactive : detector.active loan = .ok active)
    (hregion : detector.regions.get? loan.lifetime = some region)
    (hinside : detector.graph.pointsOf region = .ok inside)
    (hpoints : detector.graph.pointsOf active = .ok points) {point : Point} {i : Nat}
    (hindex : detector.graph.index? point = some i) (hi : i ∈ active) :
    ∃ path, detector.graph.pathWithin loan.point point region = .ok (some path) ∧
      detector.graph.Leads (some points) loan.point point path := by
  obtain ⟨start, region', hstart, hregion', hwalk⟩ := (mem_active hactive).1 hi
  rw [hregion] at hregion'
  cases hregion'
  have hclosed := fun a b => @active_closed _ _ _ _ _ hactive hregion hstart a b
  obtain ⟨d, hwalk⟩ := Graph.exists_walk_of_walksWithin hclosed hwalk
  obtain ⟨m, hdistance⟩ := hwalk.exists_distance
  obtain ⟨path, hpath, hleads, -⟩ := Graph.path_within hstart hindex
    (fun a ha => NameMap.regionOf_of_get? hregion ▸ mem_regionOf_active hactive ha) hclosed
    hinside hpoints hdistance
  exact ⟨path, hpath, hleads⟩

/-- The way from a point at which the loan is active to one that a search through such points
visits. -/
theorem path_toUse (hactive : detector.active loan = .ok active)
    (hregion : detector.regions.get? loan.lifetime = some region)
    (hinside : detector.graph.pointsOf region = .ok inside)
    (hpoints : detector.graph.pointsOf active = .ok points) {point use : Point} {i k d : Nat}
    (hindex : detector.graph.index? point = some i) (hi : i ∈ active)
    (hk : detector.graph.index? use = some k)
    (hdistance : Search.Distance detector.graph.succ active [i] d k) :
    ∃ path, detector.graph.pathWithin point use region = .ok (some path) ∧
      detector.graph.Leads (some points) point use path ∧ path.length = d + 1 := by
  obtain ⟨start, -, hstart, -, -⟩ := (mem_active hactive).1 hi
  refine Graph.path_within hindex hk
    (fun a ha => NameMap.regionOf_of_get? hregion ▸ mem_regionOf_active hactive ha)
    (fun a b ha => active_closed hactive hregion hstart (.inr ?_)) hinside hpoints hdistance
  rcases ha with rfl | ha
  · exact hi
  · exact ha

/-- The narrative of a conflict at a point at which the loan is active, if the region of the loan
can be listed. -/
theorem exists_narrate (hactive : detector.active conflict.loan = .ok active)
    (hregion : detector.regions.get? conflict.loan.lifetime = some region)
    (hinside : detector.graph.pointsOf region = .ok inside)
    (hpoints : detector.graph.pointsOf active = .ok points) {i : Nat}
    (hindex : detector.graph.index? conflict.point = some i) (hi : i ∈ active)
    (hnearest : detector.findUse conflict.loan.lifetime conflict.point active = .ok conflict.use) :
    ∃ narrative, conflict.narrate detector.graph detector.regions = .ok narrative ∧
      narrative.conflict = conflict ∧ narrative.Witnesses detector region active points := by
  obtain ⟨toAction, hdirect, hleads⟩ := path_toAction hactive hregion hinside hpoints hindex hi
  have hpoint : conflict.point ∈ points := (Graph.mem_pointsOf hpoints).2 ⟨i, hi, hindex⟩
  rcases nearestUse_closest hindex hnearest with
    ⟨hunused, -⟩ | ⟨use, k, d, huse, hk, hfoundAt, -⟩
  · refine ⟨⟨conflict, toAction, none⟩, ?_, rfl,
      ⟨hdirect, hleads, hpoint, fun _ => rfl, fun use huse => ?_⟩⟩
    · simp only [Conflict.narrate, hregion, hdirect, hunused]
      rfl
    · rw [hunused] at huse
      cases huse
  · have hdistance := hfoundAt.1
    rw [PointSet.toList_single] at hdistance
    obtain ⟨toUse, htoUse, hleadsUse, hlength⟩ :=
      path_toUse hactive hregion hinside hpoints hindex hi hk hdistance
    refine ⟨⟨conflict, toAction, some toUse⟩, ?_, rfl,
      ⟨hdirect, hleads, hpoint, fun hunused => ?_, fun use' huse' => ?_⟩⟩
    · simp only [Conflict.narrate, hregion, hdirect, huse]
      simp only [htoUse]
      rfl
    · rw [huse] at hunused
      cases hunused
    · rw [huse] at huse'
      cases huse'
      obtain ⟨visit, hvisit, rfl⟩ := Graph.mem_visits.2 hfoundAt.1
      exact ⟨toUse, i, visit, rfl, hleadsUse, hindex, hk, by rwa [hlength, Nat.add_sub_cancel]⟩

/-- Without a listing of the region there is no narrative. -/
theorem narrate_eq_error (hregion : detector.regions.get? conflict.loan.lifetime = some region)
    (hstart : detector.graph.index? conflict.loan.point = some start) {i : Nat}
    (hindex : detector.graph.index? conflict.point = some i) {fault : Fault}
    (hlisted : detector.graph.pointsOf region = .error fault) :
    conflict.narrate detector.graph detector.regions = .error fault := by
  simp only [Conflict.narrate, hregion, Graph.pathWithin_eq hstart hindex, hlisted]
  rfl

/-- **The narratives of detected conflicts are witnesses.** Whatever the graph, the regions and the
facts, the narrative of a conflict that was detected is made without a fallback, if the region of
the loan has numbers of points only. It leads from the borrow to the action and, where the conflict
names a use, on to that use; each way is a path of the graph, all of whose points after the borrow
are ones at which the loan is active; and the way to the use has as many steps as the search for the
use made to find it. A region with any other number makes no narrative: the listing of the region
fails at such a number. -/
theorem narratives_are_witnesses (h : detector.detect = .ok conflicts)
    (hmem : conflict ∈ conflicts) :
    ∃ region active points, detector.regions.get? conflict.loan.lifetime = some region ∧
      detector.active conflict.loan = .ok active ∧
      detector.graph.pointsOf active = .ok points ∧
      detector.findUse conflict.loan.lifetime conflict.point active = .ok conflict.use ∧
      ((∀ i ∈ region, i < detector.graph.size) → ∃ narrative,
        conflict.narrate detector.graph detector.regions = .ok narrative ∧
          narrative.conflict = conflict ∧ narrative.Witnesses detector region active points) ∧
      ((¬∀ i ∈ region, i < detector.graph.size) → ∃ i ∈ region, detector.graph.size ≤ i ∧
        conflict.narrate detector.graph detector.regions = .error (.strayIndex i)) := by
  obtain ⟨loan, -, found, hfound, hconflict⟩ := exists_of_mem_detect h hmem
  obtain ⟨active, hactive, -⟩ := exists_of_bind_eq_ok hfound
  obtain ⟨rfl, ⟨i, hindex, hi⟩, hnearest⟩ :=
    ((mem_conflictsOf hactive hfound).1 hconflict).nearestUse
  obtain ⟨start, region, hstart, hregion, -⟩ := (mem_active hactive).1 hi
  obtain ⟨points, hpoints⟩ := Graph.exists_pointsOf (active_lt_size hactive)
  refine ⟨region, active, points, hregion, hactive, hpoints, hnearest, fun hgraph => ?_,
    fun hstray => ?_⟩
  · obtain ⟨inside, hinside⟩ := Graph.exists_pointsOf hgraph
    exact exists_narrate hactive hregion hinside hpoints hindex hi hnearest
  · obtain ⟨number, hnumber, hlarge, hlisted⟩ := Graph.pointsOf_eq_error hstray
    exact ⟨number, hnumber, hlarge, narrate_eq_error hregion hstart hindex hlisted⟩

/-- A conflict is detected if the conflicts contain it. -/
theorem exists_of_contains (h : detector.detect.map (·.contains conflict) = .ok true) :
    ∃ conflicts, detector.detect = .ok conflicts ∧ conflict ∈ conflicts := by
  obtain ⟨conflicts, hdetect, hcontains⟩ := exists_of_map_eq_ok h
  exact ⟨conflicts, hdetect, List.contains_iff_mem.1 hcontains⟩

end Detector

namespace Sample

/-- The end of the storage of `x` in the loop, and the use in the next round. -/
def loopConflict : Conflict where
  loan := ⟨"r", .mutable, ⟨"x", []⟩, ⟨"A", 0⟩⟩
  point := ⟨"B", 3⟩
  access := none
  cause := .useAfterScope
  use := some ⟨"B", 0⟩

/-- Its narrative goes through the loop, and back to its start. -/
def loopNarrative : Narrative where
  conflict := loopConflict
  toAction := [⟨"A", 0⟩, ⟨"A", 1⟩, ⟨"B", 0⟩, ⟨"B", 1⟩, ⟨"B", 2⟩, ⟨"B", 3⟩]
  toUse := some [⟨"B", 3⟩, ⟨"B", 0⟩]

/-- The conflict is detected. -/
theorem exists_loopConflict :
    ∃ conflicts, detector.detect = .ok conflicts ∧ loopConflict ∈ conflicts :=
  Detector.exists_of_contains (by cbv)

/-- The narrative is made. -/
theorem narrate_loopConflict :
    loopConflict.narrate detector.graph detector.regions = .ok loopNarrative := by
  cbv

/-- The same detector, with a number behind the last point in the region of the loan. -/
def strayDetector : Detector :=
  { detector with regions := regions.set "r" ⟨574⟩ }

/-- The conflict is detected there, too. -/
theorem exists_strayConflict :
    ∃ conflicts, strayDetector.detect = .ok conflicts ∧ loopConflict ∈ conflicts :=
  Detector.exists_of_contains (by cbv)

/-- The number behind the last point is the only one in that region. -/
theorem stray_eq {i : Nat} (hi : i ∈ (⟨574⟩ : PointSet))
    (hlarge : strayDetector.graph.size ≤ i) : i = 9 := by
  have hsmall : 2 ^ i ≤ 574 := Nat.ge_two_pow_of_testBit (PointSet.mem_def.1 hi)
  have hlt : i < 10 := (Nat.pow_lt_pow_iff_right (by decide)).1 (hsmall.trans_lt (by decide))
  have hsize : strayDetector.graph.size = 9 := rfl
  omega

end Sample

/-- With the facts written by hand, a conflict at the end of the loop is detected, and its narrative
witnesses it: the region of the loan is inside the graph. With one more number in the region, the
conflict is detected as before, and cannot be narrated. -/
theorem Detector.loop_narrated :
    (∃ conflicts, Sample.detector.detect = .ok conflicts ∧ Sample.loopConflict ∈ conflicts) ∧
      (∀ i ∈ (⟨62⟩ : PointSet), i < Sample.detector.graph.size) ∧
      Sample.loopConflict.narrate Sample.detector.graph Sample.detector.regions =
        .ok Sample.loopNarrative ∧
      Sample.loopNarrative.Witnesses Sample.detector ⟨62⟩ ⟨62⟩
        [⟨"A", 1⟩, ⟨"B", 0⟩, ⟨"B", 1⟩, ⟨"B", 2⟩, ⟨"B", 3⟩] ∧
      (∃ conflicts, Sample.strayDetector.detect = .ok conflicts ∧
        Sample.loopConflict ∈ conflicts) ∧
      Sample.loopConflict.narrate Sample.strayDetector.graph Sample.strayDetector.regions =
        .error (.strayIndex 9) := by
  obtain ⟨conflicts, hdetect, hmem⟩ := Sample.exists_loopConflict
  obtain ⟨region, active, points, hregion, hactive, hpoints, -, hmade, -⟩ :=
    narratives_are_witnesses hdetect hmem
  obtain rfl : (⟨62⟩ : PointSet) = region := Option.some.inj hregion
  have hactive' : Sample.detector.active Sample.loopConflict.loan = .ok ⟨62⟩ := by cbv
  obtain rfl := Except.ok.inj (hactive'.symm.trans hactive)
  obtain rfl : [⟨"A", 1⟩, ⟨"B", 0⟩, ⟨"B", 1⟩, ⟨"B", 2⟩, ⟨"B", 3⟩] = points := Except.ok.inj hpoints
  have hgraph : ∀ i ∈ (⟨62⟩ : PointSet), i < Sample.detector.graph.size :=
    Graph.lt_size_of_pointsOf hpoints
  obtain ⟨narrative, hnarrate, -, hwitnesses⟩ := hmade hgraph
  obtain rfl := Except.ok.inj (Sample.narrate_loopConflict.symm.trans hnarrate)
  refine ⟨⟨conflicts, hdetect, hmem⟩, hgraph, Sample.narrate_loopConflict, hwitnesses,
    Sample.exists_strayConflict, ?_⟩
  obtain ⟨others, hdetect', hmem'⟩ := Sample.exists_strayConflict
  obtain ⟨region', -, -, hregion', -, -, -, -, hfails⟩ := narratives_are_witnesses hdetect' hmem'
  obtain rfl : (⟨574⟩ : PointSet) = region' := Option.some.inj hregion'
  have hstray : ¬∀ i ∈ (⟨574⟩ : PointSet), i < Sample.strayDetector.graph.size :=
    fun hall => absurd (hall 9 (by decide)) (by decide)
  obtain ⟨i, hi, hlarge, hfault⟩ := hfails hstray
  rwa [Sample.stray_eq hi hlarge] at hfault

end RegionInference
