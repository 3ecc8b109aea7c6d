import Mathlib.Data.List.Perm.Basic
import Mathlib.Logic.Function.Iterate
import RegionInference.Proofs.PathLiveness
import RegionInference.Proofs.Reach

/-!
# The search within a set, round by round

In each round the search leaves one pending point, and the unseen points that follow it become
pending (`reachRound`). A point becomes pending only once, since it is then seen. So the rounds end,
and there are as many of them as points are reached (`iterate_reachRound`).

What has been reached is what the paths inside the set lead to (`Graph.reachWithin_exact`). The
other laws of the search follow from that.
-/

namespace RegionInference

/-! ### Counting points -/

namespace PointSet

variable {s t : PointSet}

/-- A set has as many points as a list of them without repetitions. -/
theorem size_eq_length {points : List Nat} (hnodup : points.Nodup) (h : ∀ i, i ∈ s ↔ i ∈ points) :
    s.size = points.length := by
  refine List.Perm.length_eq ((List.perm_ext_iff_of_nodup ?_ hnodup).2 fun i => ?_)
  · exact s.nodup_toList
  · rw [mem_toList, h]

/-- A set without one of its members is smaller by one. -/
theorem size_erase {i : Nat} (h : i ∈ s) : s.size = (s.erase i).size + 1 := by
  refine @size_eq_length s (i :: (s.erase i).toList) ?_ fun j => ?_
  · rw [List.nodup_cons, mem_toList, mem_erase]
    exact ⟨fun hi => hi.2 rfl, (s.erase i).nodup_toList⟩
  · rw [List.mem_cons, mem_toList, mem_erase]
    by_cases hj : j = i
    · simp [hj, h]
    · simp [hj]

/-- A set without a subset is smaller by the size of the subset. -/
theorem size_diff (h : ∀ i ∈ t, i ∈ s) : s.size = (s.diff t).size + t.size := by
  have hlength : (s.diff t).size + t.size = ((s.diff t).toList ++ t.toList).length := by
    rw [List.length_append]
    rfl
  rw [hlength]
  refine size_eq_length ?_ fun i => ?_
  · refine List.nodup_append.2 ⟨(s.diff t).nodup_toList, t.nodup_toList,
      fun i hi j hj heq => ?_⟩
    subst heq
    exact (mem_diff.1 (mem_toList.1 hi)).2 (mem_toList.1 hj)
  · rw [List.mem_append, mem_toList, mem_toList, mem_diff]
    by_cases hi : i ∈ t
    · simp [hi, h i hi]
    · simp [hi]

/-- The points that are taken out of a set and those that are left make up the set. -/
theorem size_withdraw (set : PointSet) (points : List Nat) :
    set.size = (set.withdraw points).1.length + (set.withdraw points).2.size := by
  induction points generalizing set with
  | nil => simp [withdraw]
  | cons i points ih =>
    unfold withdraw
    split
    · next hi =>
      dsimp only
      rw [size_erase hi, ih (set.erase i), List.length_cons]
      omega
    · exact ih set

end PointSet

/-! ### Rounds -/

/-- A round of the search: the first pending point is left, and the unseen points that follow it
become pending. -/
def reachRound (next : Nat → List Nat) : List Nat × PointSet → List Nat × PointSet
  | ([], unseen) => ([], unseen)
  | (i :: pending, unseen) =>
    ((unseen.withdraw (next i)).1 ++ pending, (unseen.withdraw (next i)).2)

/-- After some rounds nothing is pending. They are as many as points were pending at the start or
have been seen since. -/
theorem iterate_reachRound (next : Nat → List Nat) (pending : List Nat) (unseen : PointSet) :
    ∃ rounds, rounds + (unreached next pending unseen).size = pending.length + unseen.size ∧
      (reachRound next)^[rounds] (pending, unseen) = ([], unreached next pending unseen) := by
  fun_induction unreached next pending unseen with
  | case1 unseen => exact ⟨0, rfl, rfl⟩
  | case2 unseen i pending found ih =>
    obtain ⟨rounds, hcount, hrounds⟩ := ih
    refine ⟨rounds + 1, ?_, hrounds⟩
    have hfound : unseen.size = found.1.length + found.2.size := unseen.size_withdraw (next i)
    rw [List.length_append] at hcount
    rw [List.length_cons]
    omega

namespace Graph

variable {g : Graph} {start : Nat} {barrier : PointSet}

/-- The search within a set ends after as many rounds as there are points to be reached. -/
theorem iterate_reachWithin (hstart : start ∈ barrier) :
    (reachRound g.succ)^[(g.reachWithin start barrier).size] ([start], barrier.erase start) =
      ([], barrier.diff (g.reachWithin start barrier)) := by
  obtain ⟨rounds, hcount, hrounds⟩ := iterate_reachRound g.succ [start] (barrier.erase start)
  generalize hrest : unreached g.succ [start] (barrier.erase start) = rest at hcount hrounds
  have hreached : g.reachWithin start barrier = barrier.diff rest := by
    rw [reachWithin, if_pos hstart, hrest]
  have hsub : ∀ i ∈ rest, i ∈ barrier := by
    intro i hi
    rw [← hrest, mem_unreached, PointSet.mem_erase] at hi
    exact hi.1.1
  have hrounds' : rounds = (barrier.diff rest).size := by
    have hsize := PointSet.size_diff hsub
    rw [PointSet.size_erase hstart] at hsize
    rw [List.length_singleton] at hcount
    omega
  have hdiff : barrier.diff (barrier.diff rest) = rest := by
    refine PointSet.ext fun i => ?_
    have := hsub i
    simp only [PointSet.mem_diff]
    tauto
  rw [hreached, hdiff, ← hrounds', hrounds]

/-! ### Paths inside the set -/

/-- Where something is reached, a path inside the set leads to it. -/
theorem ReachedWithin.exists_path {j : Nat} (h : g.ReachedWithin barrier start j) :
    ∃ p k, g.IsPath p k ∧ p 0 = start ∧ p k = j ∧ ∀ m ≤ k, p m ∈ barrier := by
  induction h with
  | start hmem =>
    refine ⟨fun _ => start, 0, fun i hi => absurd hi (Nat.not_lt_zero i), rfl, rfl, fun _ _ => hmem⟩
  | @step i j _ hstep hmem ih =>
    obtain ⟨p, k, hpath, hfirst, hlast, hinside⟩ := ih
    -- the path goes on after its last point
    refine ⟨fun m => if m ≤ k then p m else j, k + 1, fun m hm => ?_,
      (if_pos (Nat.zero_le k)).trans hfirst, if_neg (Nat.not_succ_le_self k), fun m hm => ?_⟩
    · dsimp only
      by_cases hmk : m < k
      · rw [if_pos (Nat.succ_le_of_lt hmk), if_pos (Nat.le_of_lt hmk)]
        exact hpath m hmk
      · obtain rfl : m = k := by omega
        rw [if_neg (Nat.not_succ_le_self m), if_pos (Nat.le_refl m), hlast]
        exact hstep
    · dsimp only
      split
      · next hmk => exact hinside m hmk
      · exact hmem

/-- From a point that is reached, what has been reached lets be reached what the whole set does. -/
theorem reachWithin_resume {j : Nat} (hj : j ∈ g.reachWithin start barrier) :
    g.reachWithin j (g.reachWithin start barrier) = g.reachWithin j barrier := by
  refine PointSet.ext fun i => ⟨reachWithin_mono fun _ => mem_of_mem_reachWithin, fun hi => ?_⟩
  rw [mem_reachWithin] at hi ⊢
  induction hi with
  | start => exact .start hj
  | step _ hstep hmem ih =>
    exact .step ih hstep (mem_reachWithin.2 (.step (mem_reachWithin.1 ih.mem) hstep hmem))

/-- **The search within a set is exact.** From a start in the set, nothing is pending after as many
rounds as there are points reached. A point is reached iff a path leads to it from the start, all of
whose points are in the set. So what is reached is in the set, it is nothing iff the start is
outside the set, it is more within a greater set, and searching again from a point that is reached,
within what is reached, reaches no others: it reaches what the whole set lets be reached from
there. -/
theorem reachWithin_exact (g : Graph) (start : Nat) (barrier : PointSet) :
    (start ∈ barrier →
      (reachRound g.succ)^[(g.reachWithin start barrier).size] ([start], barrier.erase start) =
        ([], barrier.diff (g.reachWithin start barrier))) ∧
    (∀ j, j ∈ g.reachWithin start barrier ↔
      ∃ p k, g.IsPath p k ∧ p 0 = start ∧ p k = j ∧ ∀ m ≤ k, p m ∈ barrier) ∧
    (∀ j ∈ g.reachWithin start barrier, j ∈ barrier) ∧
    (g.reachWithin start barrier = ∅ ↔ start ∉ barrier) ∧
    (∀ greater : PointSet, (∀ i ∈ barrier, i ∈ greater) →
      ∀ j ∈ g.reachWithin start barrier, j ∈ g.reachWithin start greater) ∧
    (∀ j ∈ g.reachWithin start barrier,
      g.reachWithin j (g.reachWithin start barrier) = g.reachWithin j barrier ∧
      ∀ i ∈ g.reachWithin j (g.reachWithin start barrier), i ∈ g.reachWithin start barrier) := by
  refine ⟨iterate_reachWithin, fun j => ⟨fun h => (mem_reachWithin.1 h).exists_path, ?_⟩,
    fun _ => mem_of_mem_reachWithin, ⟨fun hnone hstart => ?_, fun hstart => ?_⟩,
    fun _ hsub _ => reachWithin_mono hsub,
    fun j hj => ⟨reachWithin_resume hj, fun _ => mem_of_mem_reachWithin⟩⟩
  · rintro ⟨p, k, hpath, rfl, rfl, hinside⟩
    exact hpath.mem_reachWithin (Nat.zero_le k) (Nat.le_refl k) fun m _ hm => hinside m hm
  · have hmem : start ∈ g.reachWithin start barrier := mem_reachWithin.2 (.start hstart)
    rw [hnone] at hmem
    exact PointSet.not_mem_empty start hmem
  · rw [reachWithin, if_neg hstart]

end Graph

namespace Sample

/-- The points of the loop that control enters, and the last one of the other loop. -/
def loopPoints : PointSet :=
  .ofList [2, 3, 4, 5, 8]

end Sample

/-- Round the loop, a point that comes before the start is reached. Within all points it is reached
too, and from it, within what is reached, the start is. -/
theorem Graph.loop_reached_within :
    4 ∈ Sample.loopPoints ∧ Sample.loopPoints.subset Sample.graph.all = true ∧
      3 ∈ Sample.graph.reachWithin 4 Sample.loopPoints ∧
      3 ∈ Sample.graph.reachWithin 4 Sample.graph.all ∧
      4 ∈ Sample.graph.reachWithin 3 (Sample.graph.reachWithin 4 Sample.loopPoints) := by
  obtain ⟨-, hpaths, -, -, hmono, hresume⟩ := Sample.graph.reachWithin_exact 4 Sample.loopPoints
  have hsub : Sample.loopPoints.subset Sample.graph.all = true := by decide
  have hround : 3 ∈ Sample.graph.reachWithin 4 Sample.loopPoints :=
    (hpaths 3).2 ⟨([4, 5, 2, 3].getD · 0), 3, by unfold IsPath; decide, rfl, rfl, by decide⟩
  refine ⟨by decide, hsub, hround, hmono _ (PointSet.subset_iff.1 hsub) 3 hround, ?_⟩
  rw [(hresume 3 hround).1]
  exact ((Sample.graph.reachWithin_exact 3 Sample.loopPoints).2.1 4).2
    ⟨(3 + ·), 1, by unfold IsPath; decide, rfl, rfl, by decide⟩

end RegionInference
