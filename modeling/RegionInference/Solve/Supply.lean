import RegionInference.NameMap
import RegionInference.PointSet

/-!
# The supply of points

The supply of some regions is all points that any of them has. When one region takes more points
from the supply, the supply stays as it is and what the regions lack of it becomes less.
-/

namespace RegionInference.Supply

/-- All points in any region. -/
def all : List (String × PointSet) → PointSet
  | [] => ∅
  | (_, region) :: entries => region.union (all entries)

/-- What each region lacks of a set of points, added up. -/
def lack (points : PointSet) : List (String × PointSet) → Nat
  | [] => 0
  | (_, region) :: entries => (points.diff region).bits + lack points entries

/-- What the regions lack of all points in any region. -/
def lackOfAll (regions : NameMap PointSet) : Nat :=
  lack (all regions.entries) regions.entries

/-- A point of one of the regions is among the points of all. -/
theorem mem_all_of_findPair? {entries : List (String × PointSet)} {name : String}
    {region : PointSet} (h : NameMap.findPair? name entries = some region) {i : Nat}
    (hi : i ∈ region) : i ∈ all entries := by
  induction entries with
  | nil => simp [NameMap.findPair?] at h
  | cons entry entries ih =>
    obtain ⟨key, old⟩ := entry
    simp only [NameMap.findPair?] at h
    simp only [all, PointSet.mem_union]
    split at h
    · cases h
      exact .inl hi
    · exact .inr (ih h)

/-- Replacing a region by a greater one adds its points to the supply. -/
theorem mem_all_setEntries {entries : List (String × PointSet)} {name : String}
    {region grown : PointSet} (h : NameMap.findPair? name entries = some region)
    (hle : ∀ i, i ∈ region → i ∈ grown) {i : Nat} :
    i ∈ all (NameMap.setEntries name grown entries) ↔ i ∈ grown ∨ i ∈ all entries := by
  induction entries with
  | nil => simp [NameMap.findPair?] at h
  | cons entry entries ih =>
    obtain ⟨key, old⟩ := entry
    simp only [NameMap.findPair?] at h
    simp only [NameMap.setEntries]
    split at h
    · next hkey =>
      cases h
      simp only [hkey, if_true, all, PointSet.mem_union]
      constructor
      · rintro (h | h) <;> simp [h]
      · rintro (h | h | h)
        · exact .inl h
        · exact .inl (hle i h)
        · exact .inr h
    · next hkey =>
      simp only [hkey, if_false, all, PointSet.mem_union, ih h]
      constructor
      · rintro (h | h | h) <;> simp [h]
      · rintro (h | h | h) <;> simp [h]

/-- Replacing a region by one that has more of the points makes the lack smaller. -/
theorem lack_setEntries_lt {points : PointSet} {entries : List (String × PointSet)} {name : String}
    {region grown : PointSet} (h : NameMap.findPair? name entries = some region)
    (hle : ∀ i, i ∈ region → i ∈ grown) {j : Nat} (hj : j ∈ grown) (hnew : j ∉ region)
    (hsupply : j ∈ points) :
    lack points (NameMap.setEntries name grown entries) < lack points entries := by
  induction entries with
  | nil => simp [NameMap.findPair?] at h
  | cons entry entries ih =>
    obtain ⟨key, old⟩ := entry
    simp only [NameMap.findPair?] at h
    simp only [NameMap.setEntries]
    split at h
    · next hkey =>
      cases h
      simp only [hkey, if_true, lack]
      refine Nat.add_lt_add_right (PointSet.bits_lt_of_ssubset (j := j) ?_ ?_ ?_) _
      · intro i hi
        simp only [PointSet.mem_diff] at hi ⊢
        exact ⟨hi.1, fun hmem => hi.2 (hle i hmem)⟩
      · simp [hsupply, hnew]
      · simp [hj]
    · next hkey =>
      simp only [hkey, if_false, lack]
      exact Nat.add_lt_add_left (ih h) _

/-- A region that grows from the supply lacks less. -/
theorem lackOfAll_set_lt {regions : NameMap PointSet} {name : String} {region grown : PointSet}
    (h : regions.get? name = some region) (hle : ∀ i, i ∈ region → i ∈ grown)
    (hne : grown ≠ region) (hsupply : ∀ i, i ∈ grown → i ∈ all regions.entries) :
    lackOfAll (regions.set name grown) < lackOfAll regions := by
  have hsame : all (regions.set name grown).entries = all regions.entries := by
    refine PointSet.ext fun i => ?_
    rw [NameMap.set, mem_all_setEntries h hle]
    exact ⟨fun hi => hi.elim (hsupply i) id, .inr⟩
  obtain ⟨j, hj, hnew⟩ : ∃ j, j ∈ grown ∧ j ∉ region := by
    refine Classical.byContradiction fun hnone => hne (PointSet.ext fun i => ⟨fun hi => ?_, hle i⟩)
    exact Classical.byContradiction fun hnew => hnone ⟨i, hi, hnew⟩
  rw [lackOfAll, hsame]
  exact lack_setEntries_lt h hle hj hnew (hsupply j hj)

end RegionInference.Supply
