import Mathlib
import RegionInference.Proofs.BlockOrder
import RegionInference.Proofs.Flow
import RegionInference.Proofs.ShortestPath
import RegionInference.Proofs.UseSites

/-!
# The nearest use of a lifetime

A point carries a lifetime if the element there needs a lifetime that it flows into
(`Detector.CarriedAt`). The search for a use goes through the points by their distance from the
start and then by their number, and stops at the first one that carries the lifetime. So the use
found is the least of all such points in this order, however they are reached
(`Detector.findUse_nearest`). The walks to them may start at a point that is not active.
-/

namespace RegionInference

namespace Detector

variable {detector : Detector} {lifetime : String} {active : PointSet} {i d k : Nat}

/-- The element at a point reads or drops a local for which it needs a lifetime that the given one
flows into. -/
def CarriedAt (detector : Detector) (lifetime : String) (k : Nat) : Prop :=
  ∃ element, detector.graph.elementAt? k = some element ∧
    ∃ l, detector.constraints.FlowsInto lifetime l ∧ detector.body.Needs element l

/-- The test for a use looks for what carries the lifetime. -/
theorem usedAt_flowsTo :
    usedAt detector.body (detector.constraints.flowsTo lifetime) k = .ok true ↔
      detector.CarriedAt lifetime k := by
  simp only [usedAt_eq_true, ConstraintSet.mem_flowsTo]
  rfl

/-- Where a walk leads to a point that carries the lifetime, there is a use that is no farther. -/
theorem exists_useAt (hwalk : Search.Walk detector.graph.succ active [i] d k)
    (hcarried : detector.CarriedAt lifetime k) :
    ∃ m ≤ d, detector.UseAt (detector.constraints.flowsTo lifetime) active i m k := by
  rw [← PointSet.toList_single] at hwalk
  obtain ⟨m, hdistance⟩ := hwalk.exists_distance
  exact ⟨m, hdistance.le_of_walk hwalk, hdistance, usedAt_flowsTo.2 hcarried⟩

/-- A use is at the end of a walk, and carries the lifetime. -/
theorem UseAt.walk (h : detector.UseAt (detector.constraints.flowsTo lifetime) active i d k) :
    Search.Walk detector.graph.succ active [i] d k ∧ detector.CarriedAt lifetime k := by
  rw [UseAt, PointSet.toList_single, usedAt_flowsTo] at h
  exact ⟨h.1.1, h.2⟩

/-- **The use found is the nearest one.** From a point of the body, the search returns nothing iff
no walk through active points leads to a point that carries the lifetime. Otherwise it returns such
a point, at the end of a walk that no walk to another such point is shorter than; and if one is as
short, it leads to a point with a greater number. The start itself need not be active. -/
theorem findUse_nearest (detector : Detector) (lifetime : String) {start : Point} {i : Nat}
    (hstart : detector.graph.index? start = some i) (active : PointSet) :
    ∃ use, detector.findUse lifetime start active = .ok use ∧
      (use = none ↔ ∀ d k, Search.Walk detector.graph.succ active [i] d k →
        ¬detector.CarriedAt lifetime k) ∧
      ∀ point, use = some point → ∃ d k, detector.graph.index? point = some k ∧
        Search.Walk detector.graph.succ active [i] d k ∧ detector.CarriedAt lifetime k ∧
        ∀ d' k', Search.Walk detector.graph.succ active [i] d' k' →
          detector.CarriedAt lifetime k' → d < d' ∨ d = d' ∧ k ≤ k' := by
  obtain ⟨use, huse⟩ :=
    exists_nearestUse (detector.constraints.flowsTo lifetime) active hstart
  refine ⟨use, huse, ?_⟩
  rcases nearestUse_closest hstart huse with ⟨rfl, hno⟩ | ⟨point, k, d, rfl, hk, huseAt, hleast⟩
  · refine ⟨iff_of_true rfl fun d k hwalk hcarried => ?_, fun point hpoint => by cases hpoint⟩
    obtain ⟨m, -, huseAt⟩ := exists_useAt hwalk hcarried
    exact hno m k huseAt
  · obtain ⟨hwalk, hcarried⟩ := huseAt.walk
    refine ⟨iff_of_false (Option.some_ne_none _) fun hno => hno d k hwalk hcarried, ?_⟩
    rintro _ ⟨⟩
    refine ⟨d, k, hk, hwalk, hcarried, fun d' k' hwalk' hcarried' => ?_⟩
    -- the other point may be nearer than its walk is long
    obtain ⟨m, hm, huseAt'⟩ := exists_useAt hwalk' hcarried'
    have hle := hleast m k' huseAt'
    omega

end Detector

namespace Sample

/-- The body with two branches. The loan flows into the reference that both of them read. -/
def branchingDetector : Detector where
  body := branching
  regions := ⟨[]⟩
  facts := {}
  constraints :=
    .ofLists branching.graph ["s", "l", "r"] [] [⟨"r", "l", ⟨"A", 1⟩, 1, .assignment⟩]

/-- The end of the first block and the start of each branch. -/
def branchStarts : PointSet :=
  ⟨44⟩

/-- The use that is found is the one in the first branch. -/
theorem findUse_branching :
    branchingDetector.findUse "r" ⟨"A", 1⟩ branchStarts = .ok (some ⟨"B", 0⟩) := by
  cbv

/-- Two steps lead to the other branch, too. -/
theorem walk_branching : Search.Walk branchingDetector.graph.succ branchStarts [1] 2 5 := by
  have hstart : Search.Walk branchingDetector.graph.succ branchStarts [1] 0 1 :=
    .source List.mem_cons_self
  have hend : Search.Walk branchingDetector.graph.succ branchStarts [1] 1 2 :=
    .step hstart (by decide) (by decide)
  exact .step hend (by decide) (by decide)

/-- The lifetime is carried in the other branch, too. -/
theorem carriedAt_branching : branchingDetector.CarriedAt "r" 5 := by
  have hflows : branchingDetector.constraints.FlowsInto "r" "l" :=
    .single ⟨⟨"r", "l", ⟨"A", 1⟩, 1, .assignment⟩, List.mem_cons_self, rfl, rfl⟩
  exact ⟨_, rfl, "l", hflows, .inl ⟨"p", by decide, _, rfl, by decide⟩⟩

end Sample

/-- From a point that is not active, both branches are two steps away. The use in the first one is
found, which has the lower number. -/
theorem Detector.first_branch_found :
    Sample.branchingDetector.graph.index? ⟨"A", 1⟩ = some 1 ∧ 1 ∉ Sample.branchStarts ∧
      Sample.branchingDetector.findUse "r" ⟨"A", 1⟩ Sample.branchStarts =
        .ok (some ⟨"B", 0⟩) ∧
      Sample.branchingDetector.CarriedAt "r" 5 ∧
      ∃ d, Search.Walk Sample.branchingDetector.graph.succ Sample.branchStarts [1] d 3 ∧
        Sample.branchingDetector.CarriedAt "r" 3 ∧ (d < 2 ∨ d = 2 ∧ 3 ≤ 5) := by
  have hstart : Sample.branchingDetector.graph.index? ⟨"A", 1⟩ = some 1 := rfl
  obtain ⟨use, huse, -, hnearest⟩ :=
    findUse_nearest Sample.branchingDetector "r" hstart Sample.branchStarts
  cases Sample.findUse_branching.symm.trans huse
  obtain ⟨d, k, hk, hwalk, hcarried, hleast⟩ := hnearest _ rfl
  obtain rfl : 3 = k := Option.some.inj hk
  exact ⟨hstart, by decide, Sample.findUse_branching, Sample.carriedAt_branching, d, hwalk,
    hcarried, hleast 2 5 Sample.walk_branching Sample.carriedAt_branching⟩

end RegionInference
