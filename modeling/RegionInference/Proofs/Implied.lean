import Mathlib
import RegionInference.Proofs.Totality
import RegionInference.Proofs.WarmStart

/-!
# Constraints that others imply

A constraint that the solution already meets can be added without changing a region. The solution
then meets the larger problem, so the least regions of that one are inside it
(`Problem.Meets.of_addOutlives`); the larger problem says no less, so they also contain it
(`Problem.Progress.regions_eq_of_addOutlives`). The run itself is not looked at: the new constraint
has its own rounds, and puts others back onto the worklist at other times.

Two kinds of constraints are met in this way. Demands at one point compose through a region that is
solved for: what is reached within the smallest region stays in the middle one
(`Graph.reachWithin_subset_trans`). And a demand at a point is one at every point that is reached
from there within the shorter region (`Graph.mem_reachWithin_trans`). A placeholder in the middle
does not compose, since its region may fail the constraint on it. This is
`Problem.implied_outlives_adds_nothing`.
-/

namespace RegionInference

/-- What is reached from a point that is itself reached within a set is reached within it. -/
theorem Graph.mem_reachWithin_trans {g : Graph} {barrier : PointSet} {p q j : Nat}
    (hq : q ∈ g.reachWithin p barrier) (hj : j ∈ g.reachWithin q barrier) :
    j ∈ g.reachWithin p barrier := by
  rw [mem_reachWithin] at hj
  induction hj with
  | start => exact hq
  | step _ hstep hmem ih => exact mem_reachWithin.2 (.step (mem_reachWithin.1 ih) hstep hmem)

namespace ConstraintSet

variable {set next : ConstraintSet} {longer shorter : String} {point : Point} {origin : Origin}
  {added : Bool}

/-- One region is to outlive another one from a point on. -/
def Demands (set : ConstraintSet) (longer shorter : String) (point : Point) : Prop :=
  ∃ c ∈ set.outlives, c.longer = longer ∧ c.shorter = shorter ∧ c.point = point

/-- A built set demands something only of its own lifetimes and points. -/
theorem Built.of_demands (h : set.Built) (hdemands : set.Demands longer shorter point) :
    longer ∈ set.lifetimes ∧ shorter ∈ set.lifetimes ∧
      ∃ i, set.graph.index? point = some i := by
  obtain ⟨c, hc, rfl, rfl, rfl⟩ := hdemands
  obtain ⟨hlonger, hshorter, hindex⟩ := h.admits _ (mem_toList_outlives.2 hc)
  exact ⟨hlonger, hshorter, c.index, hindex⟩

/-- Adding a constraint leaves the graph and the lifetimes as they are. -/
theorem addOutlives_frame
    (hadd : set.addOutlives longer shorter point origin = .ok (next, added)) :
    next.graph = set.graph ∧ next.lifetimes = set.lifetimes := by
  obtain ⟨-, i, -, ⟨rfl, -⟩ | rfl⟩ := addOutlives_cases hadd
  · exact ⟨rfl, rfl⟩
  · exact ⟨rfl, rfl⟩

/-- A set says no more than what it becomes when a constraint is added. -/
theorem part_of_addOutlives
    (hadd : set.addOutlives longer shorter point origin = .ok (next, added)) : set.Part next := by
  obtain ⟨-, i, -, ⟨rfl, -⟩ | rfl⟩ := addOutlives_cases hadd
  · exact ⟨rfl, fun _ hl => hl, fun c hc => ⟨c, hc, rfl, rfl⟩, fun c hc => ⟨c, hc, rfl, rfl, rfl⟩⟩
  · refine ⟨rfl, fun _ hl => hl, fun c hc => ⟨c, hc, rfl, rfl⟩, fun c hc => ?_⟩
    exact ⟨c, List.mem_append_left _ hc, rfl, rfl, rfl⟩

end ConstraintSet

namespace Problem

variable {problem other : Problem} {initial : NameMap PointSet} {longer shorter : String}
  {point : Point} {origin : Origin} {added : Bool} {next : ConstraintSet}

/-- An assignment has what a constraint between two regions asks for, if the longer one is solved
for. -/
def Grants (problem : Problem) (R : String → PointSet) (longer shorter : String) (point : Point) :
    Prop :=
  problem.isFixed longer = false → ∀ i, problem.constraints.graph.index? point = some i →
    ∀ j ∈ problem.constraints.graph.reachWithin i (R shorter), j ∈ R longer

/-- What meets a problem grants its constraints. -/
theorem Meets.grants {R : String → PointSet} (h : problem.Meets initial R)
    (hdemands : problem.constraints.Demands longer shorter point) :
    problem.Grants R longer shorter point := by
  obtain ⟨c, hc, rfl, rfl, rfl⟩ := hdemands
  exact h.outlives c hc

/-- Demands at one point compose through a region that is solved for. -/
theorem Grants.trans {R : String → PointSet} {a b c : String}
    (hab : problem.Grants R a b point) (hbc : problem.Grants R b c point)
    (hfree : problem.isFixed b = false) : problem.Grants R a c point := by
  intro ha i hi
  exact Graph.reachWithin_subset_trans (hab ha i hi) (hbc hfree i hi)

/-- A demand at a point is one at every point that is reached from there within the shorter
region. -/
theorem Grants.transport {R : String → PointSet} {later : Point} {p q : Nat}
    (h : problem.Grants R longer shorter point)
    (hp : problem.constraints.graph.index? point = some p)
    (hq : problem.constraints.graph.index? later = some q)
    (hreach : q ∈ problem.constraints.graph.reachWithin p (R shorter)) :
    problem.Grants R longer shorter later := by
  intro hfree i hi j hj
  rw [hq] at hi
  cases hi
  exact h hfree p hp j (Graph.mem_reachWithin_trans hreach hj)

/-- What meets a problem and grants a constraint meets the problem with the constraint added. -/
theorem Meets.of_addOutlives {R : String → PointSet} (h : problem.Meets initial R)
    (hadd : problem.constraints.reopen.addOutlives longer shorter point origin = .ok (next, added))
    (hconstraints : other.constraints = next) (hdeclared : other.declared = problem.declared)
    (hgrants : problem.Grants R longer shorter point) : other.Meets initial R := by
  obtain ⟨constraints, declared, options⟩ := other
  subst hconstraints hdeclared
  obtain ⟨-, i, -, ⟨rfl, -⟩ | rfl⟩ := ConstraintSet.addOutlives_cases hadd
  · exact ⟨h.placeholder, h.start, h.live, h.outlives⟩
  · refine ⟨h.placeholder, h.start, h.live, fun c hc => ?_⟩
    rcases List.mem_append.1 hc with hold | hnew
    · exact h.outlives c hold
    · rw [List.mem_singleton.1 hnew]
      exact hgrants

/-- Adding a constraint that the solution grants leaves the solution as it is. -/
theorem Progress.regions_eq_of_addOutlives {regions regions' : NameMap PointSet}
    {violations violations' : List Violation}
    (h : Progress problem initial [] regions violations) (hbuilt : problem.constraints.Built)
    (h' : Progress other initial [] regions' violations')
    (hadd : problem.constraints.reopen.addOutlives longer shorter point origin = .ok (next, added))
    (hconstraints : other.constraints = next) (hdeclared : other.declared = problem.declared)
    (hgrants : problem.Grants regions.regionOf longer shorter point) : regions' = regions := by
  have hbuilt' : other.constraints.Built := by
    rw [hconstraints]
    exact hbuilt.reopen.addOutlives hadd
  have hlifetimes : other.constraints.lifetimes = problem.constraints.lifetimes := by
    rw [hconstraints]
    exact (ConstraintSet.addOutlives_frame hadd).2
  have hpart : problem.constraints.Part other.constraints := by
    have hopen := ConstraintSet.part_of_addOutlives hadd
    rw [hconstraints]
    exact ⟨hopen.graph, hopen.lifetimes, hopen.live, hopen.outlives⟩
  have hmeets := (h.meets hbuilt).of_addOutlives hadd hconstraints hdeclared hgrants
  have hmeets' := (h'.meets hbuilt').of_part hpart fun l => by rw [hdeclared]
  refine NameMap.eq_of_regionOf ?_ ?_ fun l hl => ?_
  · rw [h'.keys, h.keys, hlifetimes]
  · rw [h'.keys]
    exact hbuilt'.nodup_lifetimes
  · rw [h'.keys] at hl
    refine PointSet.ext fun i => ⟨h'.least _ hmeets l hl i, ?_⟩
    exact h.least _ hmeets' l (hlifetimes ▸ hl) i

/-- Adding a constraint changes no region of a solution. The set takes it once it is open again;
then, whatever the options, a run that converges ends with the same regions, and one that has no
limit and records its violations does converge. -/
def AddsNothing (problem : Problem) (initial : NameMap PointSet) (solution : Solution)
    (longer shorter : String) (point : Point) : Prop :=
  ∀ origin, ∃ next added,
    problem.constraints.reopen.addOutlives longer shorter point origin = .ok (next, added) ∧
    ∀ options : SolveOptions,
      (options.maxRounds = none → options.strict = false →
        ∃ solution', solve { problem with constraints := next, options } initial = .ok solution' ∧
          solution'.converged = true) ∧
      ∀ solution', solve { problem with constraints := next, options } initial = .ok solution' →
        solution'.converged = true → solution'.regions = solution.regions

/-- A constraint that the solution grants adds nothing. -/
theorem addsNothing_of_grants {solution : Solution} (hbuilt : problem.constraints.Built)
    (hsolve : problem.solve initial = .ok solution) (hconverged : solution.converged = true)
    (hlonger : longer ∈ problem.constraints.lifetimes)
    (hshorter : shorter ∈ problem.constraints.lifetimes)
    (hpoint : ∃ i, problem.constraints.graph.index? point = some i)
    (hgrants : problem.Grants solution.regions.regionOf longer shorter point) :
    problem.AddsNothing initial solution longer shorter point := by
  intro origin
  obtain ⟨next, added, hadd⟩ := @ConstraintSet.exists_addOutlives
    problem.constraints.reopen longer shorter point origin rfl hlonger hshorter hpoint
  refine ⟨next, added, hadd, fun options => ⟨fun hlimit hstrict => ?_, ?_⟩⟩
  · have hdeclared := wellDeclared_of_solve hsolve
    obtain ⟨hgraph, hlifetimes⟩ := ConstraintSet.addOutlives_frame hadd
    have hdeclared' : WellDeclared { problem with constraints := next, options } := by
      constructor
      · show ∀ l ∈ problem.declared.keys, l ∈ next.lifetimes
        rw [hlifetimes]
        exact hdeclared.known
      · show ∀ l ∈ next.lifetimes, ∀ lifetime, problem.declared.get? l = some lifetime →
          lifetime.isPlaceholder = true → lifetime.Placed next.graph
        rw [hlifetimes, hgraph]
        exact hdeclared.placed
    exact hdeclared'.exists_solve initial hlimit hstrict
  · intro solution' hsolve' hconverged'
    obtain ⟨work, hwork, hprogress⟩ := progress_of_solve hbuilt hsolve
    obtain ⟨work', hwork', hprogress'⟩ :=
      progress_of_solve (hbuilt.reopen.addOutlives hadd) hsolve'
    rw [hwork hconverged] at hprogress
    rw [hwork' hconverged'] at hprogress'
    exact hprogress.regions_eq_of_addOutlives hbuilt hprogress' hadd rfl rfl hgrants

/-- **Implied constraints add nothing.** Take a converged run. If one region is to outlive a second
one from a point on, and the second, which is solved for, a third one from there on, then that the
first outlives the third from there on can be added without changing a region. If one region is to
outlive another from a point on, so can that it does from any point that is reached from there
within the solved region of the other. -/
theorem implied_outlives_adds_nothing (problem : Problem) (initial : NameMap PointSet)
    (solution : Solution) (hbuilt : problem.constraints.Built)
    (hsolve : problem.solve initial = .ok solution) (hconverged : solution.converged = true) :
    (∀ a b c point, problem.constraints.Demands a b point →
      problem.constraints.Demands b c point → problem.isFixed b = false →
        problem.AddsNothing initial solution a c point) ∧
    ∀ a b point later p q, problem.constraints.Demands a b point →
      problem.constraints.graph.index? point = some p →
      problem.constraints.graph.index? later = some q →
      q ∈ problem.constraints.graph.reachWithin p (solution.regions.regionOf b) →
        problem.AddsNothing initial solution a b later := by
  have hmeets : problem.Meets initial solution.regions.regionOf := by
    obtain ⟨work, hwork, hprogress⟩ := progress_of_solve hbuilt hsolve
    rw [hwork hconverged] at hprogress
    exact hprogress.meets hbuilt
  constructor
  · intro a b c point hab hbc hfree
    obtain ⟨ha, -, hpoint⟩ := hbuilt.of_demands hab
    obtain ⟨-, hc, -⟩ := hbuilt.of_demands hbc
    apply addsNothing_of_grants hbuilt hsolve hconverged ha hc hpoint
    exact (hmeets.grants hab).trans (hmeets.grants hbc) hfree
  · intro a b point later p q hab hp hq hreach
    obtain ⟨ha, hb, -⟩ := hbuilt.of_demands hab
    apply addsNothing_of_grants hbuilt hsolve hconverged ha hb ⟨q, hq⟩
    exact (hmeets.grants hab).transport hp hq hreach

end Problem

/-! ### A chain of three regions -/

namespace Sample

/-- `a` outlives `b` and `b` outlives `c` from one point on; `c` is live there and at the next one,
and the placeholder `s`, which is to outlive `a`, covers only the first. -/
def relay : ConstraintSet :=
  .ofLists graph ["s", "a", "b", "c"]
    [⟨"c", ⟨"B", 2⟩, 4, .liveness⟩, ⟨"c", ⟨"B", 3⟩, 5, .liveness⟩]
    [⟨"s", "a", ⟨"B", 2⟩, 4, .obligation⟩, ⟨"a", "b", ⟨"B", 2⟩, 4, .assignment⟩,
      ⟨"b", "c", ⟨"B", 2⟩, 4, .assignment⟩]

/-- It can be built. -/
theorem relay_built : relay.Built := by
  have hadd : (ConstraintSet.new graph ["s", "a", "b", "c"]).addAll relay.toList = .ok relay := rfl
  exact (ConstraintSet.Built.new _ _).addAll hadd

/-- What is to be solved. -/
def relayProblem : Problem :=
  { constraints := relay, declared }

/-- Where solving ends: both points have come to `b` and from there to `a`. -/
def relayEnd : Problem.State where
  regions := ⟨[("s", ⟨16⟩), ("a", ⟨48⟩), ("b", ⟨48⟩), ("c", ⟨48⟩)]⟩
  work := []
  violations := [⟨.outlives ⟨"s", "a", ⟨"B", 2⟩, 4, .obligation⟩, ⟨32⟩⟩]
  rounds := 5
  applications := 4

/-- Where solving ends, after five rounds. -/
theorem run_relay :
    (relayProblem.start {} >>= relayProblem.runLive >>= relayProblem.runFor 5) = .ok relayEnd := by
  cbv

end Sample

/-- In the sample `a` may be asked to outlive `c`, and to outlive `b` from the next point on. -/
theorem Problem.relay_takes_implied : ∃ solution,
    Sample.relay.Built ∧ Sample.relayProblem.solve {} = .ok solution ∧
      solution.converged = true ∧
      Sample.relayProblem.AddsNothing {} solution "a" "c" ⟨"B", 2⟩ ∧
      Sample.relayProblem.AddsNothing {} solution "a" "b" ⟨"B", 3⟩ := by
  have hsolve := Problem.solve_of_runFor rfl (by decide) Sample.run_relay rfl
  obtain ⟨htrans, htransport⟩ :=
    implied_outlives_adds_nothing Sample.relayProblem {} _ Sample.relay_built hsolve rfl
  have hab : Sample.relay.Demands "a" "b" ⟨"B", 2⟩ :=
    ⟨⟨"a", "b", ⟨"B", 2⟩, 4, .assignment⟩, by decide, rfl, rfl, rfl⟩
  have hbc : Sample.relay.Demands "b" "c" ⟨"B", 2⟩ :=
    ⟨⟨"b", "c", ⟨"B", 2⟩, 4, .assignment⟩, by decide, rfl, rfl, rfl⟩
  refine ⟨_, Sample.relay_built, hsolve, rfl, htrans "a" "b" "c" _ hab hbc (by decide), ?_⟩
  apply htransport "a" "b" _ ⟨"B", 3⟩ 4 5 hab (by decide) (by decide)
  exact Graph.mem_reachWithin.2 (.step (.start (by decide)) (by decide) (by decide))

end RegionInference
