import Mathlib
import RegionInference.Proofs.History
import RegionInference.Proofs.RoundLimit

/-!
# How many rounds solving takes

A worklist that is filled again from inside its loop need not get shorter, so its length alone does
not bound the rounds. What is counted is the length of the worklist together with what may still
come onto it. A constraint comes back when the region that it reads has grown, and each growth takes
one of the points of the graph from those that the region lacks. So each constraint may still come
back as often as the region that it reads lacks a point (`Problem.pendingReads`), a growth takes
from this at least as much as it puts onto the worklist (`Problem.pendingReads_move`), and a round
takes one constraint off it. In the same way each region that is solved for may still grow as often
as it lacks a point (`Problem.pendingGrowth`).

Both counts are bounded when solving starts, and nothing is left on the worklist when it ends. This
gives bounds for the rounds and for the growths that depend on the size of the problem only
(`Problem.rounds_bounded`). Points outside the graph, which initial regions may have, are never
added and do not count.
-/

namespace RegionInference

/-! ### Counting -/

/-- How many points of a graph a region lacks. -/
def Graph.lacks (g : Graph) (region : PointSet) : Nat :=
  ((Finset.range g.size).filter (· ∉ region)).card

namespace Graph

variable {g : Graph} {region grown : PointSet}

/-- A region lacks no more points than there are. -/
theorem lacks_le (g : Graph) (region : PointSet) : g.lacks region ≤ g.size := by
  simpa [lacks] using Finset.card_filter_le (Finset.range g.size) (· ∉ region)

/-- A region that has got a point of the graph lacks less. -/
theorem lacks_lt (hsub : ∀ i ∈ region, i ∈ grown) {j : Nat} (hj : j < g.size) (hgot : j ∈ grown)
    (hnew : j ∉ region) : g.lacks grown < g.lacks region := by
  apply Finset.card_lt_card
  rw [Finset.ssubset_iff_of_subset]
  · exact ⟨j, by simp [hj, hnew], by simp [hgot]⟩
  · intro i
    simp only [Finset.mem_filter, Finset.mem_range]
    rintro ⟨hi, hlack⟩
    exact ⟨hi, fun hmem => hlack (hsub i hmem)⟩

end Graph

/-- A sum of counts, of which none rises and some fall, falls by the number of these. -/
theorem sum_add_length_filter_le {f g : α → Nat} {p : α → Bool} {items : List α}
    (hle : ∀ a ∈ items, f a ≤ g a) (hlt : ∀ a ∈ items, p a = true → f a < g a) :
    (items.map f).sum + (items.filter p).length ≤ (items.map g).sum := by
  induction items with
  | nil => simp
  | cons a items ih =>
    have hrest := ih (fun b hb => hle b (List.mem_cons_of_mem _ hb))
      (fun b hb => hlt b (List.mem_cons_of_mem _ hb))
    have hfirst := hle a List.mem_cons_self
    rw [List.map_cons, List.map_cons, List.sum_cons, List.sum_cons]
    cases hp : p a with
    | false =>
      rw [List.filter_cons_of_neg (by simp [hp])]
      omega
    | true =>
      have hless := hlt a List.mem_cons_self hp
      rw [List.filter_cons_of_pos hp, List.length_cons]
      omega

/-- A sum of counts up to a bound. -/
theorem sum_map_le {f : α → Nat} {bound : Nat} {items : List α} (h : ∀ a ∈ items, f a ≤ bound) :
    (items.map f).sum ≤ items.length * bound := by
  simpa using List.sum_le_card_nsmul (items.map f) bound (by simpa using h)

/-- Appending items adds no more than their number, and takes nothing away. -/
theorem length_enqueue [DecidableEq α] (work items : List α) :
    work.length ≤ (enqueue work items).length ∧
      (enqueue work items).length ≤ work.length + items.length := by
  induction items generalizing work with
  | nil => simp [enqueue]
  | cons item items ih =>
    rw [enqueue]
    have hrest := ih (if item ∈ work then work else work ++ [item])
    split at hrest
    · next hmem =>
      rw [if_pos hmem, List.length_cons]
      omega
    · next hmem =>
      rw [if_neg hmem, List.length_cons]
      rw [List.length_append, List.length_singleton] at hrest
      omega

namespace Problem

variable {problem : Problem} {initial : NameMap PointSet} {state next final : State}
  {c : Constraint} {grew : Bool}

/-- The lifetimes that are solved for. -/
def freeLifetimes (problem : Problem) : List String :=
  problem.constraints.lifetimes.filter fun l => !problem.isFixed l

/-- How often regions may still grow. -/
def pendingGrowth (problem : Problem) (regions : NameMap PointSet) : Nat :=
  (problem.freeLifetimes.map fun l => problem.constraints.graph.lacks (regions.regionOf l)).sum

/-- How often constraints may still come onto the worklist. -/
def pendingReads (problem : Problem) (regions : NameMap PointSet) : Nat :=
  (problem.constraints.outlives.map fun c =>
    problem.constraints.graph.lacks (regions.regionOf c.shorter)).sum

/-- The most rounds that solving can take: each constraint between regions once, and once more for
each point of the graph. -/
def mostRounds (problem : Problem) : Nat :=
  problem.constraints.outlives.length * (problem.constraints.graph.size + 1)

/-! ### What a growth takes from the counts -/

/-- When a region has grown, each region lacks no more than before, and that one lacks less. -/
theorem lacks_move (hbuilt : problem.constraints.Built) (hc : c ∈ problem.constraints.toList)
    (hmoves : problem.Moves state c next true) (l : String) :
    problem.constraints.graph.lacks (next.regions.regionOf l) ≤
        problem.constraints.graph.lacks (state.regions.regionOf l) ∧
      (l = c.target → problem.constraints.graph.lacks (next.regions.regionOf l) <
        problem.constraints.graph.lacks (state.regions.regionOf l)) := by
  cases hmoves with
  | @grow region hregion hfree hnew =>
    obtain ⟨j, hneeded, hout⟩ := hnew
    have hj : j < problem.constraints.graph.size :=
      ((Constraint.mem_needed hbuilt hc).1 hneeded).lt_size
    dsimp only
    rw [NameMap.regionOf_set]
    by_cases hl : l = c.target
    · rw [if_pos hl, hl, NameMap.regionOf_of_get? hregion]
      have hless := Graph.lacks_lt (fun i hi => PointSet.mem_union.2 (.inl hi)) hj
        (PointSet.mem_union.2 (.inr hneeded)) hout
      exact ⟨hless.le, fun _ => hless⟩
    · rw [if_neg hl]
      exact ⟨le_rfl, fun h => absurd h hl⟩

/-- A growth counts for one, and takes at least one from the growths that may still come. -/
theorem pendingGrowth_move (hbuilt : problem.constraints.Built)
    (hc : c ∈ problem.constraints.toList) (hmoves : problem.Moves state c next grew) :
    next.applications + problem.pendingGrowth next.regions ≤
      state.applications + problem.pendingGrowth state.regions := by
  cases grew with
  | false =>
    cases hmoves
    exact le_rfl
  | true =>
    have hlacks := lacks_move hbuilt hc hmoves
    have hsum : problem.pendingGrowth next.regions +
        (problem.freeLifetimes.filter (· == c.target)).length ≤
          problem.pendingGrowth state.regions :=
      sum_add_length_filter_le (fun l _ => (hlacks l).1) fun l _ hl =>
        (hlacks l).2 (by simpa using hl)
    cases hmoves with
    | grow hregion hfree hnew =>
      have htarget : c.target ∈ problem.freeLifetimes.filter (· == c.target) := by
        simp [freeLifetimes, hbuilt.target_mem hc, hfree]
      have hpos := List.length_pos_of_mem htarget
      dsimp only at hsum ⊢
      omega

/-- A growth takes from the reads that may still come at least as many as there are constraints that
read the region. -/
theorem pendingReads_move (hbuilt : problem.constraints.Built)
    (hc : c ∈ problem.constraints.toList) (hmoves : problem.Moves state c next true) :
    problem.pendingReads next.regions + (problem.constraints.readers c.target).length ≤
      problem.pendingReads state.regions := by
  have hlacks := lacks_move hbuilt hc hmoves
  apply sum_add_length_filter_le
  · intro reader _
    exact (hlacks reader.shorter).1
  · intro reader _ hreads
    exact (hlacks reader.shorter).2 (by simpa using hreads)

/-! ### The passes -/

/-- What has been counted of a run, and what may still come. -/
structure Counted (problem : Problem) (state : State) : Prop where
  /-- The growths so far, and those that may still come. -/
  applications : state.applications + problem.pendingGrowth state.regions ≤
    problem.freeLifetimes.length * problem.constraints.graph.size
  /-- The rounds so far, those that are due, and those that may still come. -/
  rounds : state.rounds + state.work.length + problem.pendingReads state.regions ≤
    problem.mostRounds
  /-- Each constraint between regions has had its round, or is due. -/
  due : problem.constraints.outlives.length ≤ state.rounds + state.work.length

/-- Where solving starts, every constraint between regions is due, and no region has grown. -/
theorem counted_of_start (h : problem.start initial = .ok state) : problem.Counted state := by
  rw [fresh_of_start h]
  refine ⟨?_, ?_, by simp⟩
  · show 0 + problem.pendingGrowth state.regions ≤ _
    rw [Nat.zero_add]
    exact sum_map_le fun l _ => Graph.lacks_le _ _
  · show 0 + problem.constraints.outlives.length + problem.pendingReads state.regions ≤ _
    have hreads : problem.pendingReads state.regions ≤
        problem.constraints.outlives.length * problem.constraints.graph.size :=
      sum_map_le fun c _ => Graph.lacks_le _ _
    rw [mostRounds, Nat.mul_succ]
    omega

/-- Applying a constraint on a point keeps the counts. -/
theorem Counted.live (h : problem.Counted state) (hbuilt : problem.constraints.Built)
    {c : LiveAt} (hc : c ∈ problem.constraints.live)
    (hgrow : problem.grow state (.live c) = .ok (next, grew)) : problem.Counted next := by
  have hlisted := ConstraintSet.mem_toList_live.2 hc
  have hmoves := moves_of_grow hgrow
  have happlications := pendingGrowth_move hbuilt hlisted hmoves
  have hreads : problem.pendingReads next.regions ≤ problem.pendingReads state.regions := by
    cases grew with
    | false =>
      cases hmoves
      exact le_rfl
    | true =>
      exact le_trans (Nat.le_add_right _ _) (pendingReads_move hbuilt hlisted hmoves)
  refine ⟨le_trans happlications h.applications, ?_, ?_⟩
  · have hrounds := h.rounds
    rw [rounds_of_grow hgrow, work_of_grow hgrow]
    omega
  · rw [rounds_of_grow hgrow, work_of_grow hgrow]
    exact h.due

/-- So does a round: it takes one constraint off the worklist, and what it puts onto it is taken
from the reads that may still come. -/
theorem Counted.advance (h : problem.Counted state) (hbuilt : problem.constraints.Built)
    {c : Outlives} {work : List Outlives} (hwork : state.work = c :: work)
    (hc : c ∈ problem.constraints.outlives)
    (hadvance : problem.advance state c work = .ok next) : problem.Counted next := by
  have hrounds := rounds_of_advance hadvance
  obtain ⟨grown, grew, hgrow, rfl⟩ := advance_eq_ok hadvance
  have hlisted := ConstraintSet.mem_toList_outlives.2 hc
  have hmoves := moves_of_grow hgrow
  have happlications := pendingGrowth_move hbuilt hlisted hmoves
  have hkept : grown.work = work := work_of_grow hgrow
  obtain ⟨hgrowth, hcount, hdue⟩ := h
  rw [hwork, List.length_cons] at hcount hdue
  cases grew with
  | false =>
    simp only [Bool.false_eq_true, if_false] at hrounds ⊢
    have hsame : grown.regions = state.regions := by
      cases hmoves
      rfl
    refine ⟨le_trans happlications hgrowth, ?_, ?_⟩
    · rw [hrounds, hkept, hsame]
      omega
    · rw [hrounds, hkept]
      omega
  | true =>
    simp only [if_true] at hrounds ⊢
    have hreads := pendingReads_move hbuilt hlisted hmoves
    have hlength := length_enqueue work (problem.constraints.readers c.longer)
    dsimp only [Constraint.target] at hrounds hreads
    refine ⟨le_trans happlications hgrowth, ?_, ?_⟩
    · dsimp only
      rw [hrounds, hkept]
      omega
    · dsimp only
      rw [hrounds, hkept]
      omega

/-- The counts hold where solving ends. -/
theorem counted_of_solve (hbuilt : problem.constraints.Built) {solution : Solution}
    (h : problem.solve initial = .ok solution) :
    ∃ final, problem.Counted final ∧ final.solution = solution := by
  obtain ⟨first, second, final, hfirst, hsecond, hfinal, hsolution⟩ := steps_of_solve h
  have hlive : problem.Counted second := by
    refine foldlM_keeps (P := problem.Counted) (fun c hc other _ hother hgrown => ?_)
      (counted_of_start hfirst) hsecond
    obtain ⟨⟨grown, grew⟩, hgrow, rfl⟩ := exists_of_map_eq_ok hgrown
    exact hother.live hbuilt hc hgrow
  have hwork : second.work = problem.constraints.outlives := by
    rw [(progress_runLive hbuilt (progress_start hfirst) hsecond).2]
    exact (start_eq_ok hfirst).2.2.1
  refine ⟨final, ?_, hsolution⟩
  exact run_keeps (fun state next c work hlist hc hadvance hstate =>
    hstate.advance hbuilt hlist hc hadvance) (fun c hc => hwork ▸ hc) hfinal hlive

/-- What solving fails with where violations are recorded has nothing to do with a limit. -/
theorem solve_bounded_of_error (hlimit : problem.options.maxRounds = none)
    (hstrict : problem.options.strict = false) {fault : Fault}
    (h : problem.solve initial = .error fault) (limit : Int) (raise : Bool) :
    (problem.bounded limit raise).solve initial = .error fault := by
  cases hfind : problem.declared.keys.find? (· ∉ problem.constraints.lifetimes) with
  | some l =>
    rw [solve_of_unknown hfind] at h
    rw [← h]
    exact @solve_of_unknown (problem.bounded limit raise) initial l hfind
  | none =>
    rw [solve_of_known hfind] at h
    rw [@solve_of_known (problem.bounded limit raise) initial hfind]
    cases hfirst : problem.start initial with
    | error fault' =>
      rw [hfirst] at h
      have hsame : (problem.bounded limit raise).start initial = .error fault' := hfirst
      rw [hsame]
      exact h
    | ok first =>
      -- from where solving starts nothing can fail
      obtain ⟨second, hsecond⟩ := exists_runLive hstrict first
      obtain ⟨final, hfinal, -⟩ := exists_run hlimit hstrict second
      have hok : (problem.start initial >>= problem.runLive >>= problem.run) = .ok final := by
        rw [hfirst]
        show problem.runLive first >>= problem.run = _
        rw [hsecond]
        exact hfinal
      rw [hok] at h
      cases h

/-- **The rounds and the growths of solving are bounded by the size of the problem.** Without a
limit and with violations recorded, solving returns iff what is declared fits the constraints. It
takes a round for each constraint between regions at least, and at most one more for each of them
and each point of the graph; each lifetime that is solved for grows at most once for each point. So
a limit that is no less than this bound is never reached: under it solving comes to the same,
whether reaching it would be a fault or not. -/
theorem rounds_bounded (problem : Problem) (initial : NameMap PointSet)
    (hbuilt : problem.constraints.Built) (hlimit : problem.options.maxRounds = none)
    (hstrict : problem.options.strict = false) :
    (problem.WellDeclared ↔ ∃ solution, problem.solve initial = .ok solution) ∧
    (∀ solution, problem.solve initial = .ok solution →
      solution.converged = true ∧
      problem.constraints.outlives.length ≤ solution.rounds ∧
      solution.rounds ≤
        problem.constraints.outlives.length * (problem.constraints.graph.size + 1) ∧
      solution.applications ≤ problem.freeLifetimes.length * problem.constraints.graph.size) ∧
    ∀ limit : Int,
      (problem.constraints.outlives.length * (problem.constraints.graph.size + 1) : Nat) ≤ limit →
        ∀ raise, (problem.bounded limit raise).solve initial = problem.solve initial := by
  have hbounds : ∀ solution, problem.solve initial = .ok solution →
      solution.converged = true ∧
      problem.constraints.outlives.length ≤ solution.rounds ∧
      solution.rounds ≤
        problem.constraints.outlives.length * (problem.constraints.graph.size + 1) ∧
      solution.applications ≤ problem.freeLifetimes.length * problem.constraints.graph.size := by
    intro solution hsolution
    have hconverged := converged_of_solve hlimit hstrict hsolution
    obtain ⟨final, ⟨happlications, hrounds, hdue⟩, rfl⟩ := counted_of_solve hbuilt hsolution
    have hwork : final.work.length = 0 := by
      rw [List.isEmpty_iff.1 hconverged]
      rfl
    rw [mostRounds] at hrounds
    refine ⟨hconverged, ?_, ?_, ?_⟩
    · show _ ≤ final.rounds
      omega
    · show final.rounds ≤ _
      omega
    · show final.applications ≤ _
      omega
  refine ⟨⟨fun h => ?_, ?_⟩, hbounds, fun limit hle raise => ?_⟩
  · obtain ⟨solution, hsolution, -⟩ := h.exists_solve initial hlimit hstrict
    exact ⟨solution, hsolution⟩
  · rintro ⟨solution, hsolution⟩
    exact wellDeclared_of_solve hsolution
  · cases hsolve : problem.solve initial with
    | error fault => exact solve_bounded_of_error hlimit hstrict hsolve limit raise
    | ok solution =>
      obtain ⟨-, -, hrounds, -⟩ := hbounds solution hsolve
      exact solve_bounded_of_le hlimit hstrict hsolve (by omega) raise

end Problem

/-- The sample has two constraints between regions and two lifetimes that are solved for, in a graph
of nine points. It takes three rounds, and a limit of twenty is not reached. -/
theorem Problem.widening_rounds_bounded :
    Sample.wideningProblem.constraints.Built ∧
      Sample.wideningProblem.options.maxRounds = none ∧
      Sample.wideningProblem.options.strict = false ∧
      ∃ solution, Sample.wideningProblem.solve = .ok solution ∧ solution.rounds = 3 ∧
        2 ≤ solution.rounds ∧ solution.rounds ≤ 2 * (9 + 1) ∧ solution.applications ≤ 2 * 9 ∧
        (Sample.wideningProblem.bounded 20 true).solve = .ok solution := by
  obtain ⟨-, hbounds, hlimits⟩ :=
    rounds_bounded Sample.wideningProblem {} Sample.widening_built rfl rfl
  have hsolve : Sample.wideningProblem.solve = .ok _ :=
    solve_of_runFor rfl (by decide) Sample.run_widening rfl
  obtain ⟨-, hleast, hmost, hgrowths⟩ := hbounds _ hsolve
  have hbounded := hlimits 20 (by decide) true
  rw [hsolve] at hbounded
  exact ⟨Sample.widening_built, rfl, rfl, _, hsolve, rfl, hleast, hmost, hgrowths, hbounded⟩

end RegionInference
