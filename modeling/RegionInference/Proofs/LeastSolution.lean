import RegionInference.Proofs.PathLiveness
import RegionInference.Proofs.Solving

/-!
# Solving gives the least regions, whatever the order

Solving without a limit on its rounds succeeds iff what is declared fits the constraints, and then
its regions are the least assignment that meets the problem (`Problem.solve_least`). Two sets that
say the same of the same lifetimes are met by the same assignments, since each says no more than the
other (`Problem.Meets.of_part`), and there is only one least among them. So the regions depend
neither on the order in which constraints were added nor on that of the lifetimes.
-/

namespace RegionInference

/-- Two sets say the same of the same lifetimes, in whatever order and for whatever reasons. -/
structure ConstraintSet.Agree (a b : ConstraintSet) : Prop where
  /-- The graphs are the same. -/
  graph : a.graph = b.graph
  /-- The lifetimes are the same. -/
  lifetimes : ∀ l, l ∈ a.lifetimes ↔ l ∈ b.lifetimes
  /-- The constraints on points are the same. -/
  live : ∀ l point, (∃ c ∈ a.live, c.lifetime = l ∧ c.point = point) ↔
    ∃ c ∈ b.live, c.lifetime = l ∧ c.point = point
  /-- The constraints between regions are the same. -/
  outlives : ∀ longer shorter point,
    (∃ c ∈ a.outlives, c.longer = longer ∧ c.shorter = shorter ∧ c.point = point) ↔
      ∃ c ∈ b.outlives, c.longer = longer ∧ c.shorter = shorter ∧ c.point = point

/-- A set says no more than another one, of lifetimes that the other one has. -/
structure ConstraintSet.Part (part whole : ConstraintSet) : Prop where
  /-- The graphs are the same. -/
  graph : part.graph = whole.graph
  /-- The other set has the lifetimes. -/
  lifetimes : ∀ l ∈ part.lifetimes, l ∈ whole.lifetimes
  /-- It has the constraints on points. -/
  live : ∀ c ∈ part.live, ∃ c' ∈ whole.live, c'.lifetime = c.lifetime ∧ c'.point = c.point
  /-- It has the constraints between regions. -/
  outlives : ∀ c ∈ part.outlives, ∃ c' ∈ whole.outlives,
    c'.longer = c.longer ∧ c'.shorter = c.shorter ∧ c'.point = c.point

/-- Agreement goes both ways. -/
theorem ConstraintSet.Agree.symm {a b : ConstraintSet} (h : a.Agree b) : b.Agree a where
  graph := h.graph.symm
  lifetimes l := (h.lifetimes l).symm
  live l point := (h.live l point).symm
  outlives longer shorter point := (h.outlives longer shorter point).symm

/-- A set that agrees with another one is a part of it. -/
theorem ConstraintSet.Agree.part {a b : ConstraintSet} (h : a.Agree b) : b.Part a where
  graph := h.graph.symm
  lifetimes l := (h.lifetimes l).2
  live c hc := (h.live c.lifetime c.point).2 ⟨c, hc, rfl, rfl⟩
  outlives c hc := (h.outlives c.longer c.shorter c.point).2 ⟨c, hc, rfl, rfl, rfl⟩

namespace Problem

variable {problem other : Problem} {initial : NameMap PointSet}

/-- What is declared fits the constraints: it is about their lifetimes, and the fixed regions lie in
their graph. -/
structure WellDeclared (problem : Problem) : Prop where
  /-- Every declared lifetime is one of the constraints. -/
  known : ∀ l ∈ problem.declared.keys, l ∈ problem.constraints.lifetimes
  /-- Every placeholder has a fixed region. -/
  placed : ∀ l ∈ problem.constraints.lifetimes, ∀ lifetime,
    problem.declared.get? l = some lifetime → lifetime.isPlaceholder = true →
      lifetime.Placed problem.constraints.graph

/-- What can be solved is well declared. -/
theorem wellDeclared_of_solve {solution : Solution} (h : problem.solve initial = .ok solution) :
    problem.WellDeclared := by
  obtain ⟨hknown, first, -, -, hfirst, -⟩ := solve_eq_ok h
  refine ⟨hknown, fun l hl lifetime hget hkind => ?_⟩
  have hregion := (start_eq_ok hfirst).2.2.2 l hl
  rw [initialRegion_of_fixed hget hkind] at hregion
  exact (Lifetime.exists_fixedRegion hkind).1 ⟨_, hregion⟩

/-- What is well declared can be solved: without a limit and without strictness nothing stops the
run. -/
theorem WellDeclared.exists_solve (h : problem.WellDeclared) (initial : NameMap PointSet)
    (hlimit : problem.options.maxRounds = none) (hstrict : problem.options.strict = false) :
    ∃ solution, problem.solve initial = .ok solution ∧ solution.converged = true := by
  obtain ⟨first, hfirst⟩ := exists_start initial h.placed
  obtain ⟨second, hsecond⟩ := exists_runLive hstrict first
  obtain ⟨final, hfinal, hwork⟩ := exists_run hlimit hstrict second
  exact ⟨_, solve_of_steps h.known hfirst hsecond hfinal, by rw [hwork]; rfl⟩

/-- Without a limit on the rounds and without strictness, solving converges. -/
theorem converged_of_solve {solution : Solution} (hlimit : problem.options.maxRounds = none)
    (hstrict : problem.options.strict = false) (h : problem.solve initial = .ok solution) :
    solution.converged = true := by
  obtain ⟨solution', hsolution', hconverged⟩ :=
    (wellDeclared_of_solve h).exists_solve initial hlimit hstrict
  rw [h] at hsolution'
  cases hsolution'
  exact hconverged

/-! ### The least assignment -/

/-- Where nothing is pending, the regions meet the problem. -/
theorem Progress.meets {regions : NameMap PointSet} {violations : List Violation}
    (h : Progress problem initial [] regions violations) (hbuilt : problem.constraints.Built) :
    problem.Meets initial regions.regionOf := by
  have hsettled : ∀ c ∈ problem.constraints.toList,
      problem.Settled regions.regionOf violations c := by
    intro c hc
    exact (h.settled c hc).resolve_left (List.not_mem_nil)
  refine ⟨?_, h.start, ?_, ?_⟩
  · intro l hl lifetime hget hkind i
    have hfixed := h.fixed l hl (isFixed_eq_true.2 ⟨lifetime, hget, hkind⟩)
    rw [initialRegion_of_fixed hget hkind] at hfixed
    exact Lifetime.mem_fixedRegion hkind hfixed
  · intro c hc hfree i hi
    have hmem := ConstraintSet.mem_toList_live.2 hc
    refine (hsettled _ hmem).free hfree i ?_
    have hindex := (hbuilt.admits _ hmem).2
    rw [hindex] at hi
    cases hi
    exact PointSet.mem_single.2 rfl
  · intro c hc hfree i hi j hj
    have hmem := ConstraintSet.mem_toList_outlives.2 hc
    refine (hsettled _ hmem).free hfree j ?_
    have hindex := (hbuilt.admits _ hmem).2.2
    rw [hindex] at hi
    cases hi
    exact hj

/-- Outside the lifetimes of the problem there are no regions. -/
theorem Progress.get?_eq_none {pending : List Constraint} {regions : NameMap PointSet}
    {violations : List Violation} (h : Progress problem initial pending regions violations)
    {l : String} (hl : l ∉ problem.constraints.lifetimes) : regions.get? l = none := by
  rw [Option.eq_none_iff_forall_ne_some]
  intro region hregion
  have hmem := NameMap.mem_keys_of_get? hregion
  rw [h.keys] at hmem
  exact hl hmem

/-- What meets a problem meets one that says less. -/
theorem Meets.of_part {R : String → PointSet} (h : problem.Meets initial R)
    (hpart : other.constraints.Part problem.constraints)
    (hdeclared : ∀ l, other.declared.get? l = problem.declared.get? l) :
    other.Meets initial R := by
  have hfixed : ∀ l, other.isFixed l = problem.isFixed l := by
    intro l
    rw [isFixed, isFixed, hdeclared]
  refine ⟨?_, ?_, ?_, ?_⟩
  · intro l hl lifetime hget hkind i
    rw [hdeclared] at hget
    rw [hpart.graph]
    exact h.placeholder l (hpart.lifetimes l hl) lifetime hget hkind i
  · intro l hl hfree i hi
    rw [hfixed] at hfree
    exact h.start l (hpart.lifetimes l hl) hfree i hi
  · intro c hc hfree i hi
    obtain ⟨c', hc', hlifetime, hpoint⟩ := hpart.live c hc
    rw [hfixed, ← hlifetime] at hfree
    rw [hpart.graph, ← hpoint] at hi
    rw [← hlifetime]
    exact h.live c' hc' hfree i hi
  · intro c hc hfree i hi
    obtain ⟨c', hc', hlonger, hshorter, hpoint⟩ := hpart.outlives c hc
    rw [hfixed, ← hlonger] at hfree
    rw [hpart.graph, ← hpoint] at hi
    rw [← hlonger, ← hshorter, hpart.graph]
    exact h.outlives c' hc' hfree i hi

/-- What is declared fits sets that say the same. -/
theorem WellDeclared.of_agree (h : problem.WellDeclared)
    (hagree : problem.constraints.Agree other.constraints)
    (hdeclared : ∀ l, other.declared.get? l = problem.declared.get? l) : other.WellDeclared := by
  constructor
  · intro l hl
    obtain ⟨lifetime, hget⟩ := NameMap.exists_get?_of_mem hl
    rw [hdeclared] at hget
    exact (hagree.lifetimes l).1 (h.known l (NameMap.mem_keys_of_get? hget))
  · intro l hl lifetime hget hkind
    rw [hdeclared] at hget
    rw [← hagree.graph]
    exact h.placed l ((hagree.lifetimes l).2 hl) lifetime hget hkind

/-- Least assignments for sets that say the same are the same. -/
theorem Progress.get?_eq_of_agree {regions regions' : NameMap PointSet}
    {violations violations' : List Violation}
    (h : Progress problem initial [] regions violations) (hbuilt : problem.constraints.Built)
    (h' : Progress other initial [] regions' violations') (hbuilt' : other.constraints.Built)
    (hagree : problem.constraints.Agree other.constraints)
    (hdeclared : ∀ l, other.declared.get? l = problem.declared.get? l) (l : String) :
    regions'.get? l = regions.get? l := by
  by_cases hl : l ∈ problem.constraints.lifetimes
  · have hl' := (hagree.lifetimes l).1 hl
    obtain ⟨region, hregion⟩ := NameMap.exists_get?_of_mem (h.keys.symm ▸ hl)
    obtain ⟨region', hregion'⟩ := NameMap.exists_get?_of_mem (h'.keys.symm ▸ hl')
    -- each of the two is below the other
    have hmeets := (h'.meets hbuilt').of_part hagree.symm.part fun l => (hdeclared l).symm
    have hmeets' := (h.meets hbuilt).of_part hagree.part hdeclared
    have hle := h.least _ hmeets l hl
    have hge := h'.least _ hmeets' l hl'
    rw [NameMap.regionOf_of_get? hregion, NameMap.regionOf_of_get? hregion'] at hle hge
    rw [hregion, hregion', PointSet.ext fun i => ⟨hge i, hle i⟩]
  · rw [h.get?_eq_none hl, h'.get?_eq_none fun hl' => hl ((hagree.lifetimes l).2 hl')]

/-- **Solving gives the least regions, whatever the order.** Without a limit on the rounds and
without strictness, solving succeeds iff what is declared fits the constraints. Its regions meet the
problem and are below every other assignment that does. A set that says the same of the same
lifetimes, added in another order, has the same regions. -/
theorem solve_least (problem : Problem) (initial : NameMap PointSet)
    (hbuilt : problem.constraints.Built) (hlimit : problem.options.maxRounds = none)
    (hstrict : problem.options.strict = false) :
    (problem.WellDeclared ↔ ∃ solution, problem.solve initial = .ok solution) ∧
    ∀ solution, problem.solve initial = .ok solution →
      solution.converged = true ∧ solution.regions.keys = problem.constraints.lifetimes ∧
      problem.Meets initial solution.regions.regionOf ∧
      (∀ R, problem.Meets initial R → ∀ l, ∀ i ∈ solution.regions.regionOf l, i ∈ R l) ∧
      ∀ other : Problem, other.constraints.Built →
        problem.constraints.Agree other.constraints →
        (∀ l, other.declared.get? l = problem.declared.get? l) →
        other.options.maxRounds = none → other.options.strict = false →
        ∃ solution', other.solve initial = .ok solution' ∧
          ∀ l, solution'.regions.get? l = solution.regions.get? l := by
  constructor
  · constructor
    · intro h
      obtain ⟨solution, hsolution, -⟩ := h.exists_solve initial hlimit hstrict
      exact ⟨solution, hsolution⟩
    · rintro ⟨solution, hsolution⟩
      exact wellDeclared_of_solve hsolution
  · intro solution hsolution
    have hdeclared := wellDeclared_of_solve hsolution
    obtain ⟨solution', hsolution', hconverged⟩ :=
      hdeclared.exists_solve initial hlimit hstrict
    rw [hsolution] at hsolution'
    cases hsolution'
    obtain ⟨work, hwork, hprogress⟩ := progress_of_solve hbuilt hsolution
    rw [hwork hconverged] at hprogress
    refine ⟨hconverged, hprogress.keys, hprogress.meets hbuilt, ?_, ?_⟩
    · intro R hR l i hi
      by_cases hl : l ∈ problem.constraints.lifetimes
      · exact hprogress.least R hR l hl i hi
      · rw [NameMap.regionOf, hprogress.get?_eq_none hl] at hi
        exact absurd hi (PointSet.not_mem_empty i)
    · intro other hbuilt' hagree hsame hlimit' hstrict'
      obtain ⟨solution', hsolution', hconverged'⟩ :=
        (hdeclared.of_agree hagree hsame).exists_solve initial hlimit' hstrict'
      obtain ⟨work', hwork', hprogress'⟩ := progress_of_solve hbuilt' hsolution'
      rw [hwork' hconverged'] at hprogress'
      exact ⟨solution', hsolution',
        hprogress.get?_eq_of_agree hbuilt hprogress' hbuilt' hagree hsame⟩

end Problem

/-! ### A sample problem -/

namespace Sample

/-- In the loop `b` is live at two points. From the first of them on `a` outlives it, and so does
the placeholder `s`. -/
def constraints : ConstraintSet :=
  .ofLists graph ["s", "a", "b"]
    [⟨"b", ⟨"B", 2⟩, 4, .liveness⟩, ⟨"b", ⟨"B", 3⟩, 5, .liveness⟩]
    [⟨"a", "b", ⟨"B", 2⟩, 4, .assignment⟩, ⟨"s", "b", ⟨"B", 2⟩, 4, .obligation⟩]

/-- The sample can be built. -/
theorem constraints_built : constraints.Built := by
  have hadd : (ConstraintSet.new graph ["s", "a", "b"]).addAll constraints.toList =
    .ok constraints := rfl
  exact (ConstraintSet.Built.new _ _).addAll hadd

/-- The same, added the other way round. -/
def reordered : ConstraintSet :=
  (((ConstraintSet.new graph ["b", "a", "s", "b"]).appendOutlives
    [⟨"s", "b", ⟨"B", 2⟩, 4, .obligation⟩, ⟨"a", "b", ⟨"B", 2⟩, 4, .callReturn⟩]).appendLive
    [⟨"b", ⟨"B", 3⟩, 5, .liveness⟩, ⟨"b", ⟨"B", 2⟩, 4, .obligation⟩]).freeze

/-- It can be built in the other order, and then frozen. -/
theorem reordered_built : reordered.Built := by
  have hadd : ∃ set, (ConstraintSet.new graph ["b", "a", "s", "b"]).addAll
      (reordered.outlives.map .outlives ++ reordered.live.map .live) = .ok set ∧
        set.freeze = reordered := ⟨_, rfl, rfl⟩
  obtain ⟨set, hset, hfrozen⟩ := hadd
  exact hfrozen ▸ ((ConstraintSet.Built.new _ _).addAll hset).freeze

/-- The two say the same. -/
theorem constraints_agree : constraints.Agree reordered where
  graph := rfl
  lifetimes l := by
    change l ∈ ["s", "a", "b"] ↔ l ∈ ["b", "a", "s"]
    simp only [List.mem_cons, List.not_mem_nil, or_false]
    tauto
  live l point := by
    simp only [constraints, reordered, ConstraintSet.ofLists, ConstraintSet.new,
      ConstraintSet.freeze, ConstraintSet.appendLive, ConstraintSet.appendOutlives,
      List.nil_append, List.mem_cons, List.not_mem_nil, or_false, exists_eq_or_imp, exists_eq_left]
    exact or_comm
  outlives longer shorter point := by
    simp only [constraints, reordered, ConstraintSet.ofLists, ConstraintSet.new,
      ConstraintSet.freeze, ConstraintSet.appendLive, ConstraintSet.appendOutlives,
      List.nil_append, List.mem_cons, List.not_mem_nil, or_false, exists_eq_or_imp, exists_eq_left]
    exact or_comm

/-- The placeholder covers one point of the loop. -/
def declared : NameMap Lifetime :=
  ⟨[("s", { name := "s", kind := .placeholder, fixed := some [⟨"B", 2⟩] })]⟩

end Sample

/-- Both sample sets can be solved and have the same regions, and `a` has the second point at which
`b` is live. -/
theorem Problem.solve_least_of_reordered :
    ∃ solution solution',
      Problem.solve { constraints := Sample.constraints, declared := Sample.declared } =
        .ok solution ∧
      Problem.solve { constraints := Sample.reordered, declared := Sample.declared } =
        .ok solution' ∧
      (∀ l, solution'.regions.get? l = solution.regions.get? l) ∧
      5 ∈ solution.regions.regionOf "a" := by
  have hleast := solve_least { constraints := Sample.constraints, declared := Sample.declared } {}
    Sample.constraints_built rfl rfl
  obtain ⟨solution, hsolution⟩ := hleast.1.1 ⟨by decide, by
    intro l _ lifetime hget _ _
    have hplaceholder : lifetime.fixed.getD [] = [⟨"B", 2⟩] := by
      simp only [Sample.declared, NameMap.get?, NameMap.findPair?] at hget
      split at hget
      · cases hget
        rfl
      · cases hget
    intro point hpoint
    rw [hplaceholder, List.mem_singleton] at hpoint
    subst hpoint
    exact ⟨4, rfl⟩⟩
  obtain ⟨-, -, hmeets, -, hother⟩ := hleast.2 solution hsolution
  obtain ⟨solution', hsolution', hsame⟩ :=
    hother { constraints := Sample.reordered, declared := Sample.declared } Sample.reordered_built
      Sample.constraints_agree (fun _ => rfl) rfl rfl
  refine ⟨solution, solution', hsolution, hsolution', hsame, ?_⟩
  have hfirst : 4 ∈ solution.regions.regionOf "b" :=
    hmeets.live ⟨"b", ⟨"B", 2⟩, 4, .liveness⟩ (by decide) (by decide) 4 (by decide)
  have hsecond : 5 ∈ solution.regions.regionOf "b" :=
    hmeets.live ⟨"b", ⟨"B", 3⟩, 5, .liveness⟩ (by decide) (by decide) 5 (by decide)
  refine hmeets.outlives ⟨"a", "b", ⟨"B", 2⟩, 4, .assignment⟩ (by decide) (by decide) 4 (by decide)
    5 ?_
  rw [Graph.mem_reachWithin]
  exact .step (.start hfirst) (by decide) hsecond

end RegionInference
