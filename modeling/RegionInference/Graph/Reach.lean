import RegionInference.Graph.Basic

/-!
# Reachability within a set

Which points can be reached from a point without leaving a set of points. The search keeps the
points of the set that it has not seen; each point it meets is taken out of them, so the unseen
points bound the search whatever cycles the graph has.
-/

namespace RegionInference

namespace PointSet

/-- Takes those of some points that are in the set out of it: the points taken, and the rest. -/
def withdraw (set : PointSet) : List Nat → List Nat × PointSet
  | [] => ([], set)
  | i :: points =>
    if i ∈ set then
      let (taken, rest) := (set.erase i).withdraw points
      (i :: taken, rest)
    else set.withdraw points

/-- What is withdrawn from a set makes its number smaller. -/
theorem bits_withdraw (set : PointSet) (points : List Nat) :
    (set.withdraw points).2.bits ≤ set.bits ∧
      ((set.withdraw points).1 ≠ [] → (set.withdraw points).2.bits < set.bits) := by
  induction points generalizing set with
  | nil => simp [withdraw]
  | cons i points ih =>
    simp only [withdraw]
    split
    · next h =>
      have hlt := bits_erase_lt h
      have hle := (ih (set.erase i)).1
      have hless := Nat.lt_of_le_of_lt hle hlt
      exact ⟨Nat.le_of_lt hless, fun _ => hless⟩
    · exact ih set

end PointSet

/-- What is left of the unseen points once everything is seen that can be reached from the pending
points through unseen ones. -/
def unreached (next : Nat → List Nat) (pending : List Nat) (unseen : PointSet) : PointSet :=
  match pending with
  | [] => unseen
  | i :: pending =>
    let found := unseen.withdraw (next i)
    unreached next (found.1 ++ pending) found.2
termination_by (unseen.bits, pending.length)
decreasing_by
  have h := unseen.bits_withdraw (next i)
  by_cases hnil : (unseen.withdraw (next i)).1 = []
  · rcases Nat.lt_or_eq_of_le h.1 with hlt | heq
    · exact Prod.Lex.left _ _ hlt
    · simp only [hnil, heq, List.nil_append, List.length_cons]
      exact Prod.Lex.right _ (Nat.lt_succ_self _)
  · exact Prod.Lex.left _ _ (h.2 hnil)

namespace Graph

/-- The points that can be reached from `start` by steps that stay in `barrier`. The start counts
if it is in the barrier; if it is not, nothing is reached. -/
def reachWithin (g : Graph) (start : Nat) (barrier : PointSet) : PointSet :=
  if start ∈ barrier then
    barrier.diff (unreached g.succ [start] (barrier.erase start))
  else ∅

/-- What is reached within a set is in the set. -/
theorem mem_of_mem_reachWithin {g : Graph} {start : Nat} {barrier : PointSet} {i : Nat}
    (h : i ∈ g.reachWithin start barrier) : i ∈ barrier := by
  simp only [reachWithin] at h
  split at h
  · exact (PointSet.mem_diff.1 h).1
  · simp at h

/-- What can be reached from a number by steps that stay in a set. The number is not one to count
from the end, and it has to be that of a point if it is in the set. -/
def reachFrom (g : Graph) (start : Int) (barrier : PointSet) : Except Fault PointSet :=
  if start < 0 then .error .negativeIndex
  else if start.toNat ∈ barrier ∧ g.size ≤ start.toNat then .error (.strayIndex start)
  else .ok (g.reachWithin start.toNat barrier)

/-- The points that can be reached from a point by steps that stay among some points. -/
def pointsReachedWithin (g : Graph) (start : Point) (barrier : List Point) :
    Except Fault (List Point) := do
  let i ← g.index start
  let set ← g.setOf barrier
  g.pointsOf (g.reachWithin i set)

/-- The points that can be reached from a point. -/
def pointsReached (g : Graph) (start : Point) : Except Fault (List Point) := do
  let i ← g.index start
  g.pointsOf (g.reachWithin i g.all)

end Graph

end RegionInference
