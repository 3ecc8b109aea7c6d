import Mathlib
import RegionInference.Proofs.LeastSolution

/-!
# Violations of fixed regions

While regions grow, what a constraint needs outside a fixed region is recorded, and the record of a
constraint grows with the regions that it reads. There is one record for each constraint that has
any (`Problem.Recording`), whatever the order in which constraints are processed.

When solving has converged, the constraints with a record are those that the regions fail, and a
record has exactly what the constraint requires under the final regions and the fixed region lacks
(`Problem.violations_are_failures`).
-/

namespace RegionInference

/-! ### Points in their order -/

namespace Graph

variable {g : Graph}

/-- A number is listed as the point that has it. -/
theorem listedAt_eq_ok {i : Nat} {point : Point} :
    g.listedAt i = .ok point ↔ g.index? point = some i := by
  rw [listedAt, index?_eq_some]
  cases g.pointAt? i <;> simp

/-- A number that cannot be listed is the number of no point. -/
theorem listedAt_eq_error {i : Nat} {fault : Fault} (h : g.listedAt i = .error fault) :
    g.size ≤ i ∧ fault = .strayIndex i := by
  constructor
  · by_contra hsmall
    obtain ⟨point, hindex⟩ := exists_point (Nat.lt_of_not_le hsmall)
    rw [listedAt_eq_ok.2 hindex] at h
    cases h
  · unfold listedAt at h
    split at h
    · cases h
    · exact (Except.error.inj h).symm

/-- The points that a set lists are those whose numbers it has. -/
theorem mem_pointsOf {set : PointSet} {points : List Point} (h : g.pointsOf set = .ok points)
    {point : Point} : point ∈ points ↔ ∃ i ∈ set, g.index? point = some i := by
  constructor
  · intro hpoint
    obtain ⟨i, hi, hlisted⟩ := exists_of_mem_results h hpoint
    exact ⟨i, PointSet.mem_toList.1 hi, listedAt_eq_ok.1 hlisted⟩
  · rintro ⟨i, hi, hindex⟩
    obtain ⟨other, hother, hlisted⟩ := exists_of_mem_mapM h (PointSet.mem_toList.2 hi)
    rw [listedAt_eq_ok.2 hindex] at hlisted
    cases hlisted
    exact hother

/-- A set can be listed if it has numbers of points only. -/
theorem exists_pointsOf {set : PointSet} (h : ∀ i ∈ set, i < g.size) :
    ∃ points, g.pointsOf set = .ok points := by
  refine exists_mapM fun i hi => ?_
  obtain ⟨point, hindex⟩ := exists_point (h i (PointSet.mem_toList.1 hi))
  exact ⟨point, listedAt_eq_ok.2 hindex⟩

/-- A set that can be listed has numbers of points only. -/
theorem lt_size_of_pointsOf {set : PointSet} {points : List Point}
    (h : g.pointsOf set = .ok points) : ∀ i ∈ set, i < g.size := by
  intro i hi
  obtain ⟨point, -, hlisted⟩ := exists_of_mem_mapM h (PointSet.mem_toList.2 hi)
  exact lt_size_of_index? (listedAt_eq_ok.1 hlisted)

/-- A set with another number cannot be listed, and such a number is told. -/
theorem pointsOf_eq_error {set : PointSet} (h : ¬∀ i ∈ set, i < g.size) :
    ∃ i ∈ set, g.size ≤ i ∧ g.pointsOf set = .error (.strayIndex i) := by
  cases hlisted : g.pointsOf set with
  | ok points => exact absurd (lt_size_of_pointsOf hlisted) h
  | error fault =>
    obtain ⟨i, hi, hfault⟩ := exists_of_mapM_eq_error hlisted
    obtain ⟨hlarge, rfl⟩ := listedAt_eq_error hfault
    exact ⟨i, PointSet.mem_toList.1 hi, hlarge, rfl⟩

/-- A list has the points whose numbers have a property, in the order of the numbers. -/
def Lists (g : Graph) (points : List Point) (P : Nat → Prop) : Prop :=
  ∃ numbers : List Nat, numbers.Pairwise (· < ·) ∧ points.map g.index? = numbers.map some ∧
    ∀ i, i ∈ numbers ↔ P i

/-- The points of a set are listed in their order. -/
theorem lists_pointsOf {set : PointSet} {points : List Point} (h : g.pointsOf set = .ok points) :
    g.Lists points (· ∈ set) := by
  refine ⟨set.toList, set.pairwise_toList, ?_, fun i => PointSet.mem_toList⟩
  replace h := mapM_eq_ok.1 h
  generalize set.toList = numbers at h
  induction h with
  | nil => rfl
  | cons hlisted _ ih => rw [List.map_cons, List.map_cons, listedAt_eq_ok.1 hlisted, ih]

/-- The property that a list is for can be given in other words. -/
theorem Lists.congr {points : List Point} {P Q : Nat → Prop} (h : g.Lists points P)
    (hiff : ∀ i, P i ↔ Q i) : g.Lists points Q := by
  obtain ⟨numbers, hsorted, hpoints, hmem⟩ := h
  exact ⟨numbers, hsorted, hpoints, fun i => (hmem i).trans (hiff i)⟩

/-- What is reached from a point of the graph is in the graph. -/
theorem ReachedWithin.lt_size {barrier : PointSet} {i j : Nat} (hi : i < g.size)
    (h : g.ReachedWithin barrier i j) : j < g.size := by
  cases h with
  | start => exact hi
  | step _ hsucc => exact succ_lt_size hsucc

end Graph

/-! ### What constraints require -/

namespace Constraint

/-- A constraint requires a point of the region of its target: the point at which a lifetime is
live, or what can be reached from a point without leaving the shorter region. -/
def Requires (g : Graph) (R : String → PointSet) : Constraint → Nat → Prop
  | .live c, i => g.index? c.point = some i
  | .outlives c, i => ∃ q, g.index? c.point = some q ∧ g.ReachedWithin (R c.shorter) q i

variable {set : ConstraintSet} {R : String → PointSet} {c : Constraint} {i : Nat}

/-- The computed points of a constraint are those that it requires. -/
theorem mem_needed (hbuilt : set.Built) (hc : c ∈ set.toList) :
    i ∈ c.needed set.graph R ↔ c.Requires set.graph R i := by
  have hadmits := hbuilt.admits c hc
  cases c with
  | live c =>
    have hindex : set.graph.index? c.point = some c.index := hadmits.2
    simp only [needed, Requires]
    rw [PointSet.mem_single, hindex, Option.some.injEq]
    exact eq_comm
  | outlives c =>
    have hindex : set.graph.index? c.point = some c.index := hadmits.2.2
    simp only [needed, Requires]
    rw [Graph.mem_reachWithin, hindex]
    constructor
    · intro h
      exact ⟨c.index, rfl, h⟩
    · rintro ⟨q, hq, h⟩
      cases hq
      exact h

/-- Only points of the graph are required. -/
theorem Requires.lt_size {g : Graph} (h : c.Requires g R i) : i < g.size := by
  cases c with
  | live c => exact Graph.lt_size_of_index? h
  | outlives c =>
    obtain ⟨q, hq, hreached⟩ := h
    exact hreached.lt_size (Graph.lt_size_of_index? hq)

end Constraint

/-- A fixed region has points of the graph only. -/
theorem Lifetime.Spans.lt_size {lifetime : Lifetime} {g : Graph} {i : Nat}
    (h : lifetime.Spans g i) : i < g.size := by
  unfold Spans at h
  split at h
  · exact h
  · obtain ⟨point, -, hindex⟩ := h
    exact Graph.lt_size_of_index? hindex

/-- A constraint fails if its target lacks something that it needs. -/
theorem ConstraintSet.mem_failing {set : ConstraintSet} {regions : NameMap PointSet}
    {c : Constraint} :
    c ∈ set.failing regions ↔ c ∈ set.toList ∧
      ∃ i ∈ c.needed set.graph regions.regionOf, i ∉ regions.regionOf c.target := by
  unfold failing
  rw [List.mem_filter, Bool.not_eq_true', ← Bool.not_eq_true, PointSet.subset_iff]
  refine and_congr_right fun _ => ?_
  push Not
  rfl

namespace Problem

/-! ### One record for each constraint -/

/-- Recording a violation adds a record at the end, unless the constraint has one. -/
theorem map_constraint_recordViolation (violation : Violation) (violations : List Violation) :
    (recordViolation violation violations).map Violation.constraint =
      if violation.constraint ∈ violations.map Violation.constraint then
        violations.map Violation.constraint
      else violations.map Violation.constraint ++ [violation.constraint] := by
  induction violations with
  | nil => simp [recordViolation]
  | cons other violations ih =>
    rw [recordViolation]
    by_cases hsame : other.constraint = violation.constraint
    · simp [hsame]
    · rw [if_neg hsame, List.map_cons, ih, List.map_cons]
      have hne : violation.constraint ≠ other.constraint := Ne.symm hsame
      by_cases hmem : violation.constraint ∈ violations.map Violation.constraint
      · rw [if_pos hmem, if_pos (List.mem_cons_of_mem _ hmem)]
      · rw [if_neg hmem, if_neg (List.not_mem_cons_of_ne_of_not_mem hne hmem)]
        rfl

/-- With one record for each constraint, what is recorded for a constraint is in its record. -/
theorem recorded_eq {violations : List Violation}
    (hnodup : (violations.map Violation.constraint).Nodup) {violation : Violation}
    (h : violation ∈ violations) : recorded violations violation.constraint = violation.extra := by
  unfold recorded
  induction violations with
  | nil => cases h
  | cons other violations ih =>
    rw [List.map_cons, List.nodup_cons] at hnodup
    rcases List.mem_cons.1 h with rfl | hrest
    · simp
    · have hne : other.constraint ≠ violation.constraint := by
        intro heq
        apply hnodup.1
        rw [heq]
        exact List.mem_map_of_mem hrest
      rw [List.find?_cons_of_neg (by simpa using hne)]
      exact ih hnodup.2 hrest

/-- What the records are at any time: there is one for each constraint that has any, and it is a
constraint of the set, on a fixed region, that needs some point more. -/
structure Recording (problem : Problem) (violations : List Violation) : Prop where
  /-- No constraint has two records. -/
  nodup : (violations.map Violation.constraint).Nodup
  /-- The constraint is one of the set. -/
  listed : ∀ c ∈ violations.map Violation.constraint, c ∈ problem.constraints.toList
  /-- The region is fixed. -/
  fixed : ∀ c ∈ violations.map Violation.constraint, problem.isFixed c.target = true
  /-- There is a point in the record. -/
  some : ∀ c ∈ violations.map Violation.constraint, ∃ i, i ∈ recorded violations c

variable {problem : Problem} {initial : NameMap PointSet} {solution : Solution}

/-- Recording a violation keeps what the records are. -/
theorem Recording.record {violations : List Violation} (h : Recording problem violations)
    {c : Constraint} {extra : PointSet} (hc : c ∈ problem.constraints.toList)
    (hfixed : problem.isFixed c.target = true) (hsome : ∃ i, i ∈ extra) :
    Recording problem (recordViolation ⟨c, extra⟩ violations) := by
  have hmem : ∀ other,
      other ∈ (recordViolation ⟨c, extra⟩ violations).map Violation.constraint →
        other = c ∨ other ∈ violations.map Violation.constraint := by
    intro other hother
    rw [map_constraint_recordViolation] at hother
    split at hother
    · exact .inr hother
    · rw [List.mem_append, List.mem_singleton] at hother
      exact hother.symm
  refine ⟨?_, ?_, ?_, ?_⟩
  · rw [map_constraint_recordViolation]
    split
    · exact h.nodup
    · next hnew =>
      rw [List.nodup_append]
      refine ⟨h.nodup, List.nodup_singleton _, ?_⟩
      rintro old hold _ hadded rfl
      rw [List.mem_singleton] at hadded
      exact hnew (hadded ▸ hold)
  · intro other hother
    rcases hmem other hother with rfl | hold
    · exact hc
    · exact h.listed other hold
  · intro other hother
    rcases hmem other hother with rfl | hold
    · exact hfixed
    · exact h.fixed other hold
  · intro other hother
    rcases hmem other hother with rfl | hold
    · obtain ⟨i, hi⟩ := hsome
      exact ⟨i, (recorded_recordViolation _ _ _).2 (.inr ⟨rfl, hi⟩)⟩
    · obtain ⟨i, hi⟩ := h.some other hold
      exact ⟨i, (recorded_recordViolation _ _ _).2 (.inl hi)⟩

/-- When solving has ended, there is one record for each constraint that has any. -/
theorem recording_of_solve (h : problem.solve initial = .ok solution) :
    Recording problem solution.violations := by
  refine solve_keeps (Q := fun _ violations => Recording problem violations) ?_ ?_ h
  · intro state hstart
    rw [(start_eq_ok hstart).2.1]
    exact ⟨List.nodup_nil, by simp, by simp, by simp⟩
  · intro state next c grew hc hgrow hstate
    rcases violations_of_grow hgrow with hsame | ⟨extra, hsome, hfixed, hrecorded⟩
    · rwa [hsame]
    · rw [hrecorded]
      exact hstate.record hc hfixed hsome

/-! ### Records and failures -/

/-- When nothing is pending, what is recorded for a constraint on a fixed region is what it needs
and the region lacks. -/
theorem Progress.mem_recorded {regions : NameMap PointSet} {violations : List Violation}
    (h : Progress problem initial [] regions violations) {c : Constraint}
    (hc : c ∈ problem.constraints.toList) (hfixed : problem.isFixed c.target = true) {i : Nat} :
    i ∈ Problem.recorded violations c ↔
      i ∈ c.needed problem.constraints.graph regions.regionOf ∧ i ∉ regions.regionOf c.target := by
  constructor
  · exact h.recorded c hfixed i
  · rintro ⟨hneeded, hout⟩
    exact ((h.settled c hc).resolve_left List.not_mem_nil).fixed hfixed i hneeded hout

/-- When nothing is pending, the constraints with a record are those that the regions fail. -/
theorem Progress.mem_violations_iff {regions : NameMap PointSet} {violations : List Violation}
    (h : Progress problem initial [] regions violations) (hrecording : Recording problem violations)
    {c : Constraint} :
    c ∈ violations.map Violation.constraint ↔ c ∈ problem.constraints.failing regions := by
  rw [ConstraintSet.mem_failing]
  constructor
  · intro hc
    have hlisted := hrecording.listed c hc
    obtain ⟨i, hi⟩ := hrecording.some c hc
    exact ⟨hlisted, i, (h.mem_recorded hlisted (hrecording.fixed c hc)).1 hi⟩
  · rintro ⟨hlisted, i, hneeded, hout⟩
    have hsettled := (h.settled c hlisted).resolve_left List.not_mem_nil
    cases hfixed : problem.isFixed c.target with
    | false => exact absurd (hsettled.free hfixed i hneeded) hout
    | true =>
      -- the point is recorded, so there is a record
      have hi := hsettled.fixed hfixed i hneeded hout
      unfold Problem.recorded at hi
      cases hfind : violations.find? (·.constraint = c) with
      | none =>
        rw [hfind] at hi
        exact absurd hi (PointSet.not_mem_empty i)
      | some violation =>
        have hsame : violation.constraint = c := by simpa using List.find?_some hfind
        rw [← hsame]
        exact List.mem_map_of_mem (List.mem_of_find?_eq_some hfind)

/-- The region of a placeholder is what its declaration spans. -/
theorem Progress.mem_placeholder {pending : List Constraint} {regions : NameMap PointSet}
    {violations : List Violation} (h : Progress problem initial pending regions violations)
    {l : String} (hl : l ∈ problem.constraints.lifetimes) {lifetime : Lifetime}
    (hget : problem.declared.get? l = some lifetime) (hkind : lifetime.isPlaceholder = true)
    {i : Nat} : i ∈ regions.regionOf l ↔ lifetime.Spans problem.constraints.graph i := by
  have hregion := h.fixed l hl (isFixed_eq_true.2 ⟨lifetime, hget, hkind⟩)
  rw [initialRegion_of_fixed hget hkind] at hregion
  exact Lifetime.mem_fixedRegion hkind hregion

/-- If the initial regions have points of the graph only, so do the regions: the assignment of all
points to the free lifetimes meets the problem, and the regions are below it. -/
theorem Progress.lt_size {pending : List Constraint} {regions : NameMap PointSet}
    {violations : List Violation} (h : Progress problem initial pending regions violations)
    (hinitial : ∀ l, ∀ i ∈ initial.regionOf l, i < problem.constraints.graph.size) (l : String) :
    ∀ i ∈ regions.regionOf l, i < problem.constraints.graph.size := by
  intro i hi
  have hl : l ∈ problem.constraints.lifetimes := h.keys ▸ NameMap.mem_keys_of_regionOf hi
  cases hfixed : problem.isFixed l with
  | true =>
    obtain ⟨lifetime, hget, hkind⟩ := isFixed_eq_true.1 hfixed
    exact ((h.mem_placeholder hl hget hkind).1 hi).lt_size
  | false =>
    have hmeets : problem.Meets initial fun l =>
        if problem.isFixed l then regions.regionOf l else problem.constraints.graph.all := by
      refine ⟨?_, ?_, ?_, ?_⟩
      · intro l hl lifetime hget hkind i
        rw [if_pos (isFixed_eq_true.2 ⟨lifetime, hget, hkind⟩)]
        exact h.mem_placeholder hl hget hkind
      · intro l _ hfree i hi
        rw [hfree]
        exact PointSet.mem_below.2 (hinitial l i hi)
      · intro c _ hfree i hi
        rw [hfree]
        exact PointSet.mem_below.2 (Graph.lt_size_of_index? hi)
      · intro c _ hfree i hi j hj
        rw [hfree]
        have hreached := Graph.mem_reachWithin.1 hj
        exact PointSet.mem_below.2 (hreached.lt_size (Graph.lt_size_of_index? hi))
    have hall := h.least _ hmeets l hl i hi
    rw [hfixed] at hall
    exact PointSet.mem_below.1 hall

/-- Only points of the graph are recorded. -/
theorem lt_size_of_mem_extra (hbuilt : problem.constraints.Built)
    (hsolve : problem.solve initial = .ok solution) {violation : Violation}
    (h : violation ∈ solution.violations) :
    ∀ i ∈ violation.extra, i < problem.constraints.graph.size := by
  obtain ⟨work, -, hprogress⟩ := progress_of_solve hbuilt hsolve
  have hrecording := recording_of_solve hsolve
  have hmem := List.mem_map_of_mem (f := Violation.constraint) h
  intro i hi
  rw [← recorded_eq hrecording.nodup h] at hi
  have hneeded := (hprogress.recorded _ (hrecording.fixed _ hmem) i hi).1
  exact ((Constraint.mem_needed hbuilt (hrecording.listed _ hmem)).1 hneeded).lt_size

/-- **Violations are exactly the failures of the solution.** When solving has converged, the
constraints that have a record are those that the regions fail, and none has two records. The
record of a constraint is held against the placeholder that the constraint would extend, and lists
in their order the points that the constraint requires under the final regions and that are outside
the fixed region. Without placeholders no constraint fails. -/
theorem violations_are_failures (problem : Problem) (initial : NameMap PointSet)
    (solution : Solution) (hbuilt : problem.constraints.Built)
    (hsolve : problem.solve initial = .ok solution) (hconverged : solution.converged = true) :
    (∀ c, c ∈ solution.violations.map Violation.constraint ↔
      c ∈ problem.constraints.failing solution.regions) ∧
    (solution.violations.map Violation.constraint).Nodup ∧
    (∀ violation ∈ solution.violations, violation.lifetime = violation.constraint.target ∧
      ∃ lifetime, problem.declared.get? violation.lifetime = some lifetime ∧
        lifetime.isPlaceholder = true ∧
        ∃ points, problem.constraints.graph.pointsOf violation.extra = .ok points ∧
          problem.constraints.graph.Lists points fun i =>
            violation.constraint.Requires problem.constraints.graph solution.regions.regionOf i ∧
              ¬lifetime.Spans problem.constraints.graph i) ∧
    ((∀ l lifetime, problem.declared.get? l = some lifetime → lifetime.isPlaceholder = false) →
      problem.constraints.failing solution.regions = []) := by
  obtain ⟨work, hwork, hprogress⟩ := progress_of_solve hbuilt hsolve
  rw [hwork hconverged] at hprogress
  have hrecording := recording_of_solve hsolve
  have hiff := fun c : Constraint => hprogress.mem_violations_iff hrecording (c := c)
  refine ⟨hiff, hrecording.nodup, ?_, ?_⟩
  · intro violation hviolation
    have hmem := List.mem_map_of_mem (f := Violation.constraint) hviolation
    have hc := hrecording.listed _ hmem
    have hfixed := hrecording.fixed _ hmem
    obtain ⟨lifetime, hget, hkind⟩ := isFixed_eq_true.1 hfixed
    have hextra : ∀ i, i ∈ violation.extra ↔
        violation.constraint.Requires problem.constraints.graph solution.regions.regionOf i ∧
          ¬lifetime.Spans problem.constraints.graph i := by
      intro i
      rw [← recorded_eq hrecording.nodup hviolation, hprogress.mem_recorded hc hfixed,
        Constraint.mem_needed hbuilt hc,
        hprogress.mem_placeholder (hbuilt.target_mem hc) hget hkind]
    obtain ⟨points, hpoints⟩ := Graph.exists_pointsOf fun i hi => ((hextra i).1 hi).1.lt_size
    exact ⟨rfl, lifetime, hget, hkind, points, hpoints,
      (Graph.lists_pointsOf hpoints).congr hextra⟩
  · intro hfree
    rw [List.eq_nil_iff_forall_not_mem]
    intro c hc
    obtain ⟨lifetime, hget, hkind⟩ := isFixed_eq_true.1 (hrecording.fixed c ((hiff c).2 hc))
    rw [hfree _ _ hget] at hkind
    cases hkind

end Problem

/-! ### A record that catches up -/

namespace Sample

/-- The placeholder `s` outlives `b`, which outlives `c` and is live only where `s` is fixed. -/
def chain : ConstraintSet :=
  .ofLists graph ["s", "b", "c"]
    [⟨"b", ⟨"B", 2⟩, 4, .liveness⟩, ⟨"c", ⟨"B", 2⟩, 4, .liveness⟩, ⟨"c", ⟨"B", 3⟩, 5, .liveness⟩]
    [⟨"s", "b", ⟨"B", 2⟩, 4, .obligation⟩, ⟨"b", "c", ⟨"B", 2⟩, 4, .assignment⟩]

/-- It can be built. -/
theorem chain_built : chain.Built := by
  have hadd : (ConstraintSet.new graph ["s", "b", "c"]).addAll chain.toList = .ok chain := rfl
  exact (ConstraintSet.Built.new _ _).addAll hadd

/-- Where solving ends after three rounds: the first finds nothing against `s`, the last one does,
since `b` has grown. -/
def chainEnd : Problem.State where
  regions := ⟨[("s", ⟨16⟩), ("b", ⟨48⟩), ("c", ⟨48⟩)]⟩
  work := []
  violations := [⟨.outlives ⟨"s", "b", ⟨"B", 2⟩, 4, .obligation⟩, ⟨32⟩⟩]
  rounds := 3
  applications := 4

/-- Solving ends there. -/
theorem run_chain :
    (Problem.start { constraints := chain, declared } {} >>=
      Problem.runLive { constraints := chain, declared } >>=
        Problem.runFor { constraints := chain, declared } 3) = .ok chainEnd := by
  cbv

end Sample

/-- In the sample the constraint on `s` fails, and the second point at which `c` is live is held
against it. -/
theorem Problem.placeholder_misses_late_point : ∃ solution,
    Problem.solve { constraints := Sample.chain, declared := Sample.declared } = .ok solution ∧
      solution.converged = true ∧
      .outlives ⟨"s", "b", ⟨"B", 2⟩, 4, .obligation⟩ ∈ Sample.chain.failing solution.regions ∧
      ∃ violation ∈ solution.violations, violation.lifetime = "s" ∧
        Sample.graph.pointsOf violation.extra = .ok [⟨"B", 3⟩] := by
  have hsolve := Problem.solve_of_runFor rfl (by decide) Sample.run_chain rfl
  refine ⟨_, hsolve, rfl, ?_⟩
  have hviolations := violations_are_failures _ _ _ Sample.chain_built hsolve rfl
  refine ⟨(hviolations.1 _).1 (by decide), _, List.mem_cons_self, ?_, rfl⟩
  exact (hviolations.2.2.1 _ List.mem_cons_self).1

end RegionInference
