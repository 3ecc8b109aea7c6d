import Mathlib.Logic.Relation
import RegionInference.Constraint.Set

/-!
# How lifetimes flow into each other

A lifetime flows into itself and into every lifetime that it has to outlive, directly or through
others: `ConstraintSet.FlowsInto` is the reflexive and transitive closure of the constraints between
regions. The search behind `ConstraintSet.flowsTo` finds exactly these
(`ConstraintSet.mem_flowsTo`).

The search uses edges up: those of a lifetime when it is processed, and those that lead to a
lifetime when it is found. So it never has all edges at hand, and what carries the proof is a fact
about the edges that are gone: they lead to lifetimes that have been seen (`ConstraintSet.Flowing`).
-/

namespace RegionInference.ConstraintSet

/-- From some point on, a lifetime has to outlive another one. -/
def Edge (set : ConstraintSet) (a b : String) : Prop :=
  ∃ c ∈ set.outlives, c.longer = a ∧ c.shorter = b

/-- A lifetime is another one, or has to outlive it, directly or through others. -/
def FlowsInto (set : ConstraintSet) : String → String → Prop :=
  Relation.ReflTransGen set.Edge

variable {all edges : List (String × String)} {pending : List String} {seen : NameSet}
  {start l : String}

/-- Where the edges from a lifetime lead. -/
theorem mem_edgesFrom : l ∈ edgesFrom edges start ↔ (start, l) ∈ edges := by
  simp [edgesFrom]

/-- The edges that are left start elsewhere and lead to nothing found. -/
theorem mem_otherEdges {found : List String} {edge : String × String} :
    edge ∈ otherEdges edges l found ↔ edge ∈ edges ∧ edge.1 ≠ l ∧ edge.2 ∉ found := by
  simp [otherEdges]

/-- How far the search from a lifetime along all edges is, given the edges that are left. -/
structure Flowing (all : List (String × String)) (start : String)
    (edges : List (String × String)) (pending : List String) (seen : NameSet) : Prop where
  /-- The search starts with its start. -/
  start_mem : start ∈ seen
  /-- What is left are edges. -/
  subset : ∀ edge ∈ edges, edge ∈ all
  /-- What is not left leads to a lifetime that has been seen. -/
  used : ∀ edge ∈ all, edge ∈ edges ∨ edge.2 ∈ seen
  /-- What is pending has been seen. -/
  seen_of_pending : ∀ l ∈ pending, l ∈ seen
  /-- What has been seen and is not pending leads only to what has been seen. -/
  closed : ∀ l ∈ seen, l ∈ pending ∨ ∀ edge ∈ all, edge.1 = l → edge.2 ∈ seen
  /-- What has been seen can be reached. -/
  reached : ∀ l ∈ seen, Relation.ReflTransGen (fun a b => (a, b) ∈ all) start l

namespace Flowing

/-- Processing a pending lifetime keeps the invariant. -/
theorem process (h : Flowing all start edges (l :: pending) seen) :
    let found := (edgesFrom edges l).filter (· ∉ seen)
    Flowing all start (otherEdges edges l found) (pending ++ found)
      (found.foldl NameSet.insert seen) := by
  intro found
  have hfound : ∀ a, a ∈ found ↔ (l, a) ∈ edges ∧ a ∉ seen := by
    intro a
    rw [List.mem_filter, mem_edgesFrom, decide_eq_true_eq]
  have hseen : ∀ a, a ∈ found.foldl NameSet.insert seen ↔ a ∈ seen ∨ a ∈ found :=
    fun a => NameSet.mem_foldl_insert
  -- every edge from the lifetime leads to what has been seen before or is found now
  have hleads : ∀ a, (l, a) ∈ edges → a ∈ found.foldl NameSet.insert seen := by
    intro a ha
    rw [hseen, hfound]
    by_cases hold : a ∈ seen
    · exact .inl hold
    · exact .inr ⟨ha, hold⟩
  refine ⟨(hseen start).2 (.inl h.start_mem), ?_, ?_, ?_, ?_, ?_⟩
  · intro edge hedge
    exact h.subset edge (mem_otherEdges.1 hedge).1
  · rintro ⟨a, b⟩ hedge
    rcases h.used (a, b) hedge with hleft | hold
    · by_cases hsource : a = l
      · subst hsource
        exact .inr (hleads b hleft)
      · by_cases htarget : b ∈ found
        · exact .inr ((hseen b).2 (.inr htarget))
        · exact .inl (mem_otherEdges.2 ⟨hleft, hsource, htarget⟩)
    · exact .inr ((hseen b).2 (.inl hold))
  · intro a ha
    rcases List.mem_append.1 ha with hold | hnew
    · exact (hseen a).2 (.inl (h.seen_of_pending a (List.mem_cons_of_mem _ hold)))
    · exact (hseen a).2 (.inr hnew)
  · intro a ha
    rcases (hseen a).1 ha with hold | hnew
    · rcases h.closed a hold with hpending | hclosed
      · rcases List.mem_cons.1 hpending with rfl | hrest
        · refine .inr ?_
          rintro ⟨_, b⟩ hedge rfl
          rcases h.used _ hedge with hleft | hb
          · exact hleads b hleft
          · exact (hseen b).2 (.inl hb)
        · exact .inl (List.mem_append_left _ hrest)
      · exact .inr fun edge hedge hsource => (hseen edge.2).2 (.inl (hclosed edge hedge hsource))
    · exact .inl (List.mem_append_right _ hnew)
  · intro a ha
    rcases (hseen a).1 ha with hold | hnew
    · exact h.reached a hold
    · have hstep := h.subset _ ((hfound a).1 hnew).1
      exact (h.reached l (h.seen_of_pending l List.mem_cons_self)).tail hstep

/-- Where nothing is pending, what has been seen is what can be reached. -/
theorem mem_iff (h : Flowing all start edges [] seen) :
    l ∈ seen ↔ Relation.ReflTransGen (fun a b => (a, b) ∈ all) start l := by
  constructor
  · exact h.reached l
  · intro hreach
    induction hreach with
    | refl => exact h.start_mem
    | @tail a b _ hedge ih =>
      exact (h.closed a ih).resolve_left List.not_mem_nil (a, b) hedge rfl

/-- The search keeps the invariant until nothing is pending. -/
theorem mem_flow (h : Flowing all start edges pending seen) :
    l ∈ flow edges pending seen ↔ Relation.ReflTransGen (fun a b => (a, b) ∈ all) start l := by
  fun_induction flow edges pending seen with
  | case1 => exact h.mem_iff
  | case2 edges seen first pending found ih => exact ih h.process

end Flowing

/-- The search for what a lifetime flows into is exact. -/
theorem mem_flowsTo {set : ConstraintSet} {a b : String} :
    b ∈ set.flowsTo a ↔ set.FlowsInto a b := by
  have hstart : Flowing (set.outlives.map fun c => (c.longer, c.shorter)) a
      (set.outlives.map fun c => (c.longer, c.shorter)) [a] (NameSet.ofList [a]) := by
    refine ⟨by simp, fun _ hedge => hedge, fun _ hedge => .inl hedge, by simp, by simp, ?_⟩
    intro l hl
    obtain rfl : l = a := by simpa using hl
    exact .refl
  have hedge :
      (fun a b => (a, b) ∈ set.outlives.map fun c => (c.longer, c.shorter)) = set.Edge := by
    funext a b
    simp [Edge]
  rw [flowsTo, hstart.mem_flow, hedge, FlowsInto]

end RegionInference.ConstraintSet
