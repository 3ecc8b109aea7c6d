/-!
# Maps from names

Finite maps from names that remember the order in which their names came: a list of pairs, in
which the first pair with a name counts. Setting a name that is present keeps its place.
-/

namespace RegionInference

/-- A finite map from names, in the order in which the names came. -/
structure NameMap (α : Type u) where
  /-- The pairs, first come first. -/
  entries : List (String × α) := []

namespace NameMap

/-- The names, first come first. -/
def keys (map : NameMap α) : List String :=
  map.entries.map Prod.fst

/-- The value in the first pair with the name. -/
def findPair? (name : String) : List (String × α) → Option α
  | [] => none
  | (other, value) :: entries => if name = other then some value else findPair? name entries

/-- The value of a name. -/
def get? (map : NameMap α) (name : String) : Option α :=
  findPair? name map.entries

/-- Whether the map has a value for the name. -/
def contains (map : NameMap α) (name : String) : Bool :=
  (map.get? name).isSome

/-- Puts a value in the pair with the name, or in a new pair at the end. -/
def setEntries (name : String) (value : α) : List (String × α) → List (String × α)
  | [] => [(name, value)]
  | (other, old) :: entries =>
    if name = other then (other, value) :: entries
    else (other, old) :: setEntries name value entries

/-- The map with a value for the name. -/
def set (map : NameMap α) (name : String) (value : α) : NameMap α :=
  ⟨setEntries name value map.entries⟩

/-- The map of the pairs of a list; of pairs with one name the last gives the value. -/
def ofList (pairs : List (String × α)) : NameMap α :=
  pairs.foldl (fun map (name, value) => map.set name value) {}

/-- The map with other values for the same names. -/
def map (f : α → β) (m : NameMap α) : NameMap β :=
  ⟨m.entries.map fun (name, value) => (name, f value)⟩

/-- The map with the values that an operation gives for the values of the names. -/
def mapM {α β : Type} (f : α → Except ε β) (m : NameMap α) : Except ε (NameMap β) :=
  (m.entries.mapM fun (entry : String × α) => (f entry.2).map (entry.1, ·)).map NameMap.mk

/-- A map with a new value has it under its name, and what it had under the others. -/
theorem get?_set (map : NameMap α) (name other : String) (value : α) :
    (map.set name value).get? other = if other = name then some value else map.get? other := by
  obtain ⟨entries⟩ := map
  simp only [set, get?]
  induction entries with
  | nil => simp [setEntries, findPair?]
  | cons entry entries ih =>
    obtain ⟨key, old⟩ := entry
    simp only [setEntries]
    split
    · next hkey =>
      subst hkey
      by_cases h : other = name <;> simp [findPair?, h]
    · next hkey =>
      simp only [findPair?, ih]
      by_cases h : other = key
      · subst h
        simp [Ne.symm hkey]
      · simp [h]

/-- Setting a name that is present changes no name. -/
theorem keys_set_of_mem {map : NameMap α} {name : String} (value : α) (h : name ∈ map.keys) :
    (map.set name value).keys = map.keys := by
  obtain ⟨entries⟩ := map
  simp only [set, keys] at *
  induction entries with
  | nil => simp at h
  | cons entry entries ih =>
    obtain ⟨key, old⟩ := entry
    simp only [setEntries]
    split
    · simp
    · next hkey =>
      simp only [List.map_cons, List.mem_cons] at h
      simp [ih (h.resolve_left hkey)]

end NameMap

end RegionInference
