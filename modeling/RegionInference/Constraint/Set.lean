import RegionInference.Graph.Basic

/-!
# Sets of constraints

The constraints on the regions of one graph, in the order in which they were added. Every
constraint is checked when it is added: its lifetimes have to be declared and its point has to be
one of the graph. A constraint that is there already, or that relates a lifetime with itself, is
not added again. A frozen set takes no more constraints.

Whether a constraint is there already is looked up in the set of the keys that were seen. It is kept
in step with the two lists: a set of constraints carries the proof that the keys in it are those of
its constraints.
-/

namespace RegionInference

/-- A set of keys, told by its members. -/
structure KeySet where
  /-- Whether a key is in the set. -/
  contains : Constraint.Key → Bool

namespace KeySet

/-- The set of no keys. -/
def empty : KeySet :=
  ⟨fun _ => false⟩

/-- The set with one more key. -/
def insert (set : KeySet) (key : Constraint.Key) : KeySet :=
  ⟨fun other => other = key || set.contains other⟩

/-- The set with some more keys. -/
def insertAll (set : KeySet) (keys : List Constraint.Key) : KeySet :=
  keys.foldl insert set

/-- The keys of a set with more keys are the old ones and the new ones. -/
theorem contains_insertAll (set : KeySet) (keys : List Constraint.Key) (key : Constraint.Key) :
    (set.insertAll keys).contains key = true ↔ set.contains key = true ∨ key ∈ keys := by
  induction keys generalizing set with
  | nil => simp [insertAll]
  | cons first keys ih =>
    rw [insertAll, List.foldl_cons, ← insertAll, ih]
    simp only [insert, Bool.or_eq_true, decide_eq_true_eq, List.mem_cons]
    exact ⟨by rintro ((h | h) | h) <;> simp [h], by rintro (h | h | h) <;> simp [h]⟩

end KeySet

/-- The constraints on the regions of a graph. -/
structure ConstraintSet where
  /-- The graph. -/
  graph : Graph
  /-- The declared lifetimes, each once. -/
  lifetimes : List String
  /-- The constraints that a region contains a point, oldest first. -/
  live : List LiveAt := []
  /-- The constraints between regions, oldest first. -/
  outlives : List Outlives := []
  /-- The keys that were seen. -/
  seen : KeySet
  /-- Whether the set takes no more constraints. -/
  frozen : Bool := false
  /-- The keys that were seen are those of the constraints. -/
  seen_iff : ∀ key, seen.contains key = true ↔
    key ∈ live.map LiveAt.key ∨ key ∈ outlives.map Outlives.key

namespace ConstraintSet

/-- The set with no constraints. -/
def new (graph : Graph) (lifetimes : List String) : ConstraintSet where
  graph := graph
  lifetimes := lifetimes.eraseDups
  seen := .empty
  seen_iff := by simp [KeySet.empty]

/-- The set, taking no more constraints. -/
def freeze (set : ConstraintSet) : ConstraintSet :=
  { set with frozen := true }

/-- The set with constraints on points at the end of their list. -/
def appendLive (set : ConstraintSet) (live : List LiveAt) : ConstraintSet :=
  { set with
    live := set.live ++ live
    seen := set.seen.insertAll (live.map LiveAt.key)
    seen_iff key := by
      rw [KeySet.contains_insertAll, set.seen_iff, List.map_append, List.mem_append,
        or_right_comm] }

/-- The set with constraints between regions at the end of their list. -/
def appendOutlives (set : ConstraintSet) (outlives : List Outlives) : ConstraintSet :=
  { set with
    outlives := set.outlives ++ outlives
    seen := set.seen.insertAll (outlives.map Outlives.key)
    seen_iff key := by
      rw [KeySet.contains_insertAll, set.seen_iff, List.map_append, List.mem_append, or_assoc] }

/-- The constraints on points after an append: the old ones, then the new ones. -/
@[simp] theorem live_appendLive (set : ConstraintSet) (live : List LiveAt) :
    (set.appendLive live).live = set.live ++ live := rfl

/-- The constraints between regions after an append: the old ones, then the new ones. -/
@[simp] theorem outlives_appendOutlives (set : ConstraintSet) (outlives : List Outlives) :
    (set.appendOutlives outlives).outlives = set.outlives ++ outlives := rfl

/-- The number of the point of a constraint that may be added. -/
def check (set : ConstraintSet) (point : Point) (lifetimes : List String) : Except Fault Nat :=
  if set.frozen then .error .frozen
  else
    match lifetimes.find? (· ∉ set.lifetimes) with
    | some lifetime => .error (.unknownLifetime lifetime)
    | none => set.graph.index point

/-- Adds the constraint that a region contains a point; the answer tells whether it is new. -/
def addLive (set : ConstraintSet) (lifetime : String) (point : Point)
    (origin : Origin := .liveness) : Except Fault (ConstraintSet × Bool) := do
  let index ← set.check point [lifetime]
  if set.seen.contains (.live lifetime point) then return (set, false)
  else return (set.appendLive [⟨lifetime, point, index, origin⟩], true)

/-- Adds a constraint between two regions; the answer tells whether it is new and says
something. -/
def addOutlives (set : ConstraintSet) (longer shorter : String) (point : Point)
    (origin : Origin := .assignment) : Except Fault (ConstraintSet × Bool) := do
  let index ← set.check point [longer, shorter]
  if longer == shorter then return (set, false)
  else if set.seen.contains (.outlives longer shorter point) then return (set, false)
  else return (set.appendOutlives [⟨longer, shorter, point, index, origin⟩], true)

/-- Adds a constraint of either kind. -/
def add (set : ConstraintSet) : Constraint → Except Fault (ConstraintSet × Bool)
  | .live c => set.addLive c.lifetime c.point c.origin
  | .outlives c => set.addOutlives c.longer c.shorter c.point c.origin

/-- Adds constraints of either kind in turn. -/
def addAll (set : ConstraintSet) (constraints : List Constraint) : Except Fault ConstraintSet :=
  constraints.foldlM (fun set c => (set.add c).map Prod.fst) set

/-- All constraints: those on points, then those between regions. -/
def toList (set : ConstraintSet) : List Constraint :=
  set.live.map .live ++ set.outlives.map .outlives

/-- A set with the same constraints that takes more of them: an empty one to which they are added
again. -/
def copy (set : ConstraintSet) : Except Fault ConstraintSet :=
  (new set.graph set.lifetimes).addAll set.toList

/-- How many constraints there are. -/
def size (set : ConstraintSet) : Nat :=
  set.live.length + set.outlives.length

/-- The constraints that read the region of a lifetime. -/
def readers (set : ConstraintSet) (lifetime : String) : List Outlives :=
  set.outlives.filter (·.shorter == lifetime)

/-- For each lifetime the constraints that read its region. -/
def byShorter (set : ConstraintSet) : List (String × List Outlives) :=
  set.lifetimes.map fun lifetime => (lifetime, set.readers lifetime)

/-- A short description of the set. -/
def summary (set : ConstraintSet) : String :=
  let state := if set.frozen then "frozen" else "open"
  s!"ConstraintSet({set.live.length} live, {set.outlives.length} outlives, {state})"

/-! ### Flow between lifetimes -/

/-- The lifetimes to which the edges from a lifetime lead. -/
def edgesFrom (edges : List (String × String)) (lifetime : String) : List String :=
  (edges.filter (·.1 == lifetime)).map Prod.snd

/-- The edges from other lifetimes, but for those that lead to some lifetimes. -/
def otherEdges (edges : List (String × String)) (lifetime : String) (found : List String) :
    List (String × String) :=
  edges.filter fun edge => edge.1 != lifetime && edge.2 ∉ found

/-- Following the edges of a lifetime leaves fewer edges, unless it has none; then one lifetime
fewer is pending. -/
theorem otherEdges_decreases (edges : List (String × String)) (lifetime : String)
    (pending : List String) (isNew : String → Bool) :
    let found := (edgesFrom edges lifetime).filter isNew
    Prod.Lex (· < ·) (· < ·)
      ((otherEdges edges lifetime found).length, (pending ++ found).length)
      (edges.length, pending.length + 1) := by
  intro found
  rcases Nat.lt_or_eq_of_le (List.length_filter_le
    (fun edge => edge.1 != lifetime && edge.2 ∉ found) edges) with hlt | heq
  · exact Prod.Lex.left _ _ hlt
  · have hnone : found = [] := by
      rw [List.length_filter_eq_length_iff] at heq
      have hfrom : edgesFrom edges lifetime = [] := by
        rw [edgesFrom, List.map_eq_nil_iff, List.filter_eq_nil_iff]
        intro edge hedge
        have hother := heq edge hedge
        simp only [Bool.and_eq_true, bne_iff_ne] at hother
        simpa using hother.1
      simp [found, hfrom]
    rw [otherEdges, heq, hnone, List.append_nil]
    exact Prod.Lex.right _ (Nat.lt_succ_self _)

/-- Adds to the lifetimes seen all that can be reached from the pending ones along edges from a
longer to a shorter lifetime. The edges of a lifetime are used up when it is processed, and those
that lead to a lifetime when it is found. -/
def flow (edges : List (String × String)) (pending : List String) (seen : NameSet) : NameSet :=
  match pending with
  | [] => seen
  | lifetime :: pending =>
    let found := (edgesFrom edges lifetime).filter (· ∉ seen)
    flow (otherEdges edges lifetime found) (pending ++ found) (found.foldl NameSet.insert seen)
termination_by (edges.length, pending.length)
decreasing_by exact otherEdges_decreases edges lifetime pending _

/-- A lifetime and all that it has to outlive, directly or through others. -/
def flowsTo (set : ConstraintSet) (lifetime : String) : NameSet :=
  flow (set.outlives.map fun c => (c.longer, c.shorter)) [lifetime] (NameSet.ofList [lifetime])

end ConstraintSet

end RegionInference
