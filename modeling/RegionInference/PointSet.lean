/-!
# Sets of points

Points of a graph are numbered from zero, and a set of them is kept as one natural number whose
binary digits say which numbers belong to it. The view of a set is membership, and each operation
has its membership law. Two further facts serve as measures for loops: a set that loses a member
becomes a smaller number, and a set inside another is not a greater one.
-/

namespace RegionInference

/-- A finite set of point numbers. -/
structure PointSet where
  /-- The number whose binary digit `i` says whether `i` belongs to the set. -/
  bits : Nat
deriving DecidableEq

namespace PointSet

instance : Membership Nat PointSet where
  mem s i := s.bits.testBit i = true

instance (s : PointSet) (i : Nat) : Decidable (i ∈ s) :=
  inferInstanceAs (Decidable (s.bits.testBit i = true))

instance : EmptyCollection PointSet where
  emptyCollection := ⟨0⟩

/-- The set of one point. -/
def single (i : Nat) : PointSet :=
  ⟨1 <<< i⟩

/-- The points `0` to `n - 1`. -/
def below (n : Nat) : PointSet :=
  ⟨(1 <<< n) - 1⟩

/-- The points in either set. -/
def union (s t : PointSet) : PointSet :=
  ⟨s.bits ||| t.bits⟩

/-- The points in both sets. -/
def inter (s t : PointSet) : PointSet :=
  ⟨s.bits &&& t.bits⟩

/-- The points of `s` outside `t`. -/
def diff (s t : PointSet) : PointSet :=
  ⟨s.bits ^^^ (s.bits &&& t.bits)⟩

/-- The set with one more point. -/
def insert (s : PointSet) (i : Nat) : PointSet :=
  s.union (single i)

/-- The set without a point. -/
def erase (s : PointSet) (i : Nat) : PointSet :=
  s.diff (single i)

/-- Whether there is no point in the set. -/
def isEmpty (s : PointSet) : Bool :=
  s.bits == 0

/-- Whether all points of `s` are in `t`. -/
def subset (s t : PointSet) : Bool :=
  (s.diff t).isEmpty

/-- The points in increasing order. -/
def toList (s : PointSet) : List Nat :=
  (List.range (s.bits.log2 + 1)).filter (· ∈ s)

/-- The set of the points of a list. -/
def ofList (points : List Nat) : PointSet :=
  points.foldl insert ∅

/-- How many points there are in the set. -/
def size (s : PointSet) : Nat :=
  s.toList.length

/-- The set as a hexadecimal number. -/
def text (s : PointSet) : String :=
  "0x" ++ String.ofList (Nat.toDigits 16 s.bits)

/-! ### Membership -/

/-- The members are the positions of the bits that are set. -/
theorem mem_def {s : PointSet} {i : Nat} : i ∈ s ↔ s.bits.testBit i = true := Iff.rfl

/-- The empty set has no member. -/
@[simp] theorem not_mem_empty (i : Nat) : i ∉ (∅ : PointSet) := by
  simp [mem_def, EmptyCollection.emptyCollection]

/-- The member of a set of one. -/
@[simp] theorem mem_single {i j : Nat} : j ∈ single i ↔ j = i := by
  simp [mem_def, single, Nat.one_shiftLeft, Nat.testBit_two_pow, eq_comm]

/-- The members of the set of all numbers below a bound. -/
@[simp] theorem mem_below {n i : Nat} : i ∈ below n ↔ i < n := by
  simp [mem_def, below, Nat.one_shiftLeft, Nat.testBit_two_pow_sub_one]

/-- The members of a union. -/
@[simp] theorem mem_union {s t : PointSet} {i : Nat} : i ∈ s.union t ↔ i ∈ s ∨ i ∈ t := by
  simp [mem_def, union, Nat.testBit_or]

/-- The members of an intersection. -/
@[simp] theorem mem_inter {s t : PointSet} {i : Nat} : i ∈ s.inter t ↔ i ∈ s ∧ i ∈ t := by
  simp [mem_def, inter, Nat.testBit_and]

/-- The members of a difference. -/
@[simp] theorem mem_diff {s t : PointSet} {i : Nat} : i ∈ s.diff t ↔ i ∈ s ∧ i ∉ t := by
  simp only [mem_def, diff, Nat.testBit_xor, Nat.testBit_and]
  cases s.bits.testBit i <;> cases t.bits.testBit i <;> simp

/-- The members of a set with one more number. -/
@[simp] theorem mem_insert {s : PointSet} {i j : Nat} : j ∈ s.insert i ↔ j ∈ s ∨ j = i := by
  simp [insert]

/-- The members of a set without a number. -/
@[simp] theorem mem_erase {s : PointSet} {i j : Nat} : j ∈ s.erase i ↔ j ∈ s ∧ j ≠ i := by
  simp [erase]

/-- Sets with the same members are equal. -/
theorem ext {s t : PointSet} (h : ∀ i, i ∈ s ↔ i ∈ t) : s = t := by
  cases s with | mk a => cases t with | mk b =>
  congr 1
  refine Nat.eq_of_testBit_eq fun i => ?_
  have := h i
  simp only [mem_def] at this
  cases ha : a.testBit i <;> cases hb : b.testBit i <;> simp_all

/-- The test for emptiness looks at all members. -/
theorem isEmpty_iff {s : PointSet} : s.isEmpty = true ↔ ∀ i, i ∉ s := by
  constructor
  · intro h i
    have hbits : s.bits = 0 := by simpa [isEmpty] using h
    simp [mem_def, hbits]
  · intro h
    have : s = ∅ := ext fun i => by simp [h i]
    subst this
    rfl

/-- The test for a subset looks at all members. -/
theorem subset_iff {s t : PointSet} : s.subset t = true ↔ ∀ i, i ∈ s → i ∈ t := by
  simp only [subset, isEmpty_iff, mem_diff, not_and, Decidable.not_not]

/-- The list of a set has its members. -/
@[simp] theorem mem_toList {s : PointSet} {i : Nat} : i ∈ s.toList ↔ i ∈ s := by
  simp only [toList, List.mem_filter, List.mem_range, decide_eq_true_eq, and_iff_right_iff_imp]
  intro h
  refine Decidable.byContradiction fun hlt => ?_
  have : s.bits < 2 ^ i :=
    Nat.lt_of_lt_of_le Nat.lt_log2_self (Nat.pow_le_pow_right (by omega) (by omega))
  simp [mem_def, Nat.testBit_lt_two_pow this] at h

/-! ### Measures -/

/-- A subset has a number that is at most as great, so sets can be measured by their numbers. -/
theorem bits_le_of_subset {s t : PointSet} (h : ∀ i, i ∈ s → i ∈ t) : s.bits ≤ t.bits :=
  Nat.le_of_testBit h

/-- A proper subset is a smaller number. -/
theorem bits_lt_of_ssubset {s t : PointSet} {j : Nat} (h : ∀ i, i ∈ s → i ∈ t) (hj : j ∈ t)
    (hj' : j ∉ s) : s.bits < t.bits := by
  refine Nat.lt_of_le_of_ne (bits_le_of_subset h) fun heq => hj' ?_
  rw [mem_def, heq]
  exact hj

/-- Losing a member makes the number smaller. -/
theorem bits_erase_lt {s : PointSet} {i : Nat} (h : i ∈ s) : (s.erase i).bits < s.bits :=
  bits_lt_of_ssubset (fun _ hj => (mem_erase.1 hj).1) h (by simp)

end PointSet

end RegionInference
