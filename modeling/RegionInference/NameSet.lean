/-!
# Sets of names

Finite sets of names, kept as lists in strictly increasing order (by code point), so that equal
sets are equal lists and a set is shown in its order. The view of a set is membership.
-/

namespace RegionInference

/-- The first name of a list that stands in `seen` or earlier in the list. -/
def repeatedName? (seen : List String) : List String → Option String
  | [] => none
  | name :: names =>
    if name ∈ seen then some name else repeatedName? (name :: seen) names

/-- Where no repeated name is found, the names differ from each other and from those seen before. -/
theorem nodup_of_repeatedName? {names seen : List String} (h : repeatedName? seen names = none) :
    names.Nodup ∧ ∀ name ∈ names, name ∉ seen := by
  induction names generalizing seen with
  | nil => simp
  | cons name names ih =>
    simp only [repeatedName?] at h
    split at h
    · simp at h
    · next hnew =>
      obtain ⟨hnodup, hdisj⟩ := ih h
      refine ⟨List.nodup_cons.2 ⟨fun hmem => ?_, hnodup⟩, fun other hother => ?_⟩
      · exact hdisj name hmem (by simp)
      · rcases List.mem_cons.1 hother with rfl | hmem
        · exact hnew
        · exact fun hseen => hdisj other hmem (by simp [hseen])

/-- If names differ from each other and from those seen before, no repeated one is found. -/
theorem repeatedName?_eq_none {names seen : List String} (hnodup : names.Nodup)
    (hnew : ∀ name ∈ names, name ∉ seen) : repeatedName? seen names = none := by
  induction names generalizing seen with
  | nil => rfl
  | cons name names ih =>
    obtain ⟨hname, hnodup⟩ := List.nodup_cons.1 hnodup
    rw [repeatedName?, if_neg (hnew name List.mem_cons_self)]
    refine ih hnodup fun other hother hseen => ?_
    rcases List.mem_cons.1 hseen with rfl | hseen
    · exact hname hother
    · exact hnew other (List.mem_cons_of_mem _ hother) hseen

/-- A finite set of names. -/
structure NameSet where
  /-- The names in increasing order. -/
  toList : List String
  /-- The order is strict, so no name stands twice. -/
  sorted : toList.Pairwise (· < ·)
deriving DecidableEq

namespace NameSet

instance : Membership String NameSet where
  mem s name := name ∈ s.toList

instance (s : NameSet) (name : String) : Decidable (name ∈ s) :=
  inferInstanceAs (Decidable (name ∈ s.toList))

instance : EmptyCollection NameSet where
  emptyCollection := ⟨[], List.Pairwise.nil⟩

/-- The members are the listed names. -/
theorem mem_def {s : NameSet} {name : String} : name ∈ s ↔ name ∈ s.toList := Iff.rfl

/-- The empty set has no member. -/
@[simp] theorem not_mem_empty (name : String) : name ∉ (∅ : NameSet) := by
  simp [mem_def, EmptyCollection.emptyCollection]

/-! ### Insertion -/

/-- Puts a name in its place in an increasing list. -/
def insertSorted (name : String) : List String → List String
  | [] => [name]
  | other :: names =>
    if name < other then name :: other :: names
    else if name = other then other :: names
    else other :: insertSorted name names

/-- Putting a name in its place adds that name and no other. -/
theorem mem_insertSorted {name other : String} {names : List String} :
    other ∈ insertSorted name names ↔ other = name ∨ other ∈ names := by
  induction names with
  | nil => simp [insertSorted]
  | cons head tail ih =>
    simp only [insertSorted]
    split
    · simp
    · split
      · next h => subst h; simp
      · simp only [List.mem_cons, ih]
        constructor
        · rintro (h | h | h) <;> simp [h]
        · rintro (h | h | h) <;> simp [h]

/-- Of two different names one comes first. -/
theorem lt_of_not_lt_of_ne {a b : String} (h : ¬a < b) (hne : a ≠ b) : b < a := by
  refine Decidable.byContradiction fun hba => hne ?_
  exact String.le_antisymm (String.not_lt.1 hba) (String.not_lt.1 h)

/-- Names in their order stay so when a name is put in its place. -/
theorem insertSorted_sorted {name : String} {names : List String}
    (h : names.Pairwise (· < ·)) : (insertSorted name names).Pairwise (· < ·) := by
  induction names with
  | nil => simp [insertSorted]
  | cons head tail ih =>
    obtain ⟨hhead, htail⟩ := List.pairwise_cons.1 h
    simp only [insertSorted]
    split
    · next hlt =>
      refine List.pairwise_cons.2 ⟨fun other hother => ?_, h⟩
      rcases List.mem_cons.1 hother with rfl | hmem
      · exact hlt
      · exact String.lt_trans hlt (hhead other hmem)
    · split
      · exact h
      · next hnlt hne =>
        refine List.pairwise_cons.2 ⟨fun other hother => ?_, ih htail⟩
        rcases mem_insertSorted.1 hother with rfl | hmem
        · exact lt_of_not_lt_of_ne hnlt hne
        · exact hhead other hmem

/-- The set with one more name. -/
def insert (s : NameSet) (name : String) : NameSet :=
  ⟨insertSorted name s.toList, insertSorted_sorted s.sorted⟩

/-- The members of a set with one more name. -/
@[simp] theorem mem_insert {s : NameSet} {name other : String} :
    other ∈ s.insert name ↔ other = name ∨ other ∈ s :=
  mem_insertSorted

/-! ### Other operations -/

/-- The names in either set. -/
def union (s t : NameSet) : NameSet :=
  t.toList.foldl insert s

/-- The set of the names of a list. -/
def ofList (names : List String) : NameSet :=
  names.foldl insert ∅

/-- The names of `s` that are not in `t`. -/
def diff (s t : NameSet) : NameSet :=
  ⟨s.toList.filter (· ∉ t), s.sorted.filter _⟩

/-- Whether all names of `s` are in `t`. -/
def subset (s t : NameSet) : Bool :=
  s.toList.all (· ∈ t)

/-- The members of a set with more names, added one after the other. -/
theorem mem_foldl_insert {names : List String} {s : NameSet} {name : String} :
    name ∈ names.foldl insert s ↔ name ∈ s ∨ name ∈ names := by
  induction names generalizing s with
  | nil => simp
  | cons head tail ih =>
    simp only [List.foldl_cons, ih, mem_insert, List.mem_cons]
    constructor
    · rintro ((h | h) | h) <;> simp [h]
    · rintro (h | h | h) <;> simp [h]

/-- The members of a union. -/
@[simp] theorem mem_union {s t : NameSet} {name : String} :
    name ∈ s.union t ↔ name ∈ s ∨ name ∈ t :=
  mem_foldl_insert

/-- The members of a set made from a list. -/
@[simp] theorem mem_ofList {names : List String} {name : String} :
    name ∈ ofList names ↔ name ∈ names := by
  simp [ofList, mem_foldl_insert]

/-- The members of a difference. -/
@[simp] theorem mem_diff {s t : NameSet} {name : String} :
    name ∈ s.diff t ↔ name ∈ s ∧ name ∉ t := by
  simp [diff, mem_def]

/-- The test for a subset looks at all members. -/
theorem subset_iff {s t : NameSet} : s.subset t = true ↔ ∀ name, name ∈ s → name ∈ t := by
  simp [subset, mem_def]

end NameSet

end RegionInference
