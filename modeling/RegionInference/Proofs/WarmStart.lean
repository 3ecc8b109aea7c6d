import Mathlib
import RegionInference.Proofs.Additions
import RegionInference.Proofs.Strictness

/-!
# Warm starts

Solving may start from given regions. If those are inside the least solution, the solution from them
meets what the least one meets and the other way round, so the two are the same, although the runs
that lead there are not (`Problem.Progress.regions_eq`). With equal regions the same constraints
fail by the same points, so the records are the same up to their order
(`Problem.Progress.mem_violations`).

The solution of a part of the constraints is inside that of all of them, so it is such a start. The
solution itself is one from which no region grows: then each constraint between regions is taken off
the worklist once and nothing comes back onto it (`Problem.Resting`). This is
`Problem.warm_start_reaches_least`.
-/

namespace RegionInference

/-! ### Regions by name -/

/-- Maps with the same names, each of them once, and the same regions are the same. -/
theorem NameMap.eq_of_regionOf {a b : NameMap PointSet} (hkeys : a.keys = b.keys)
    (hnodup : a.keys.Nodup) (h : ∀ l ∈ a.keys, a.regionOf l = b.regionOf l) : a = b := by
  obtain ⟨entries⟩ := a
  obtain ⟨others⟩ := b
  congr
  induction entries generalizing others with
  | nil => exact (List.map_eq_nil_iff.1 hkeys.symm).symm
  | cons entry entries ih =>
    obtain ⟨l, region⟩ := entry
    cases others with
    | nil => simp [keys] at hkeys
    | cons other others =>
      obtain ⟨l', region'⟩ := other
      simp only [keys, List.map_cons, List.cons.injEq] at hkeys
      obtain ⟨rfl, hkeys⟩ := hkeys
      simp only [keys, List.map_cons, List.nodup_cons] at hnodup
      have hhead : region = region' := by
        simpa [regionOf, get?, findPair?] using h l (by simp [keys])
      rw [hhead, ih hnodup.2 others hkeys fun name hname => ?_]
      have hne : name ≠ l := by
        rintro rfl
        exact hnodup.1 hname
      have hrest := h name (List.mem_cons_of_mem _ hname)
      simpa [regionOf, get?, findPair?, hne] using hrest

namespace Problem

variable {problem part : Problem} {initial initial' regions regions' : NameMap PointSet}
  {violations violations' : List Violation} {cold : Solution}

/-! ### Starts inside the solution -/

/-- Regions to start from are inside others where they count: at the lifetimes that are solved
for. -/
def StartsIn (problem : Problem) (initial regions : NameMap PointSet) : Prop :=
  ∀ l ∈ problem.constraints.lifetimes, problem.isFixed l = false →
    ∀ i ∈ initial.regionOf l, i ∈ regions.regionOf l

/-- Starting from nothing is starting below any regions. -/
theorem startsIn_empty (problem : Problem) (regions : NameMap PointSet) :
    problem.StartsIn {} regions := by
  intro l _ _ i hi
  exact absurd hi (PointSet.not_mem_empty i)

/-- Where nothing is pending, the regions contain all that comes of a start inside them. -/
theorem Progress.regionOf_subset (h : Progress problem initial [] regions violations)
    (hbuilt : problem.constraints.Built) {pending : List Constraint}
    (h' : Progress problem initial' pending regions' violations')
    (hstart : problem.StartsIn initial' regions) :
    ∀ l ∈ problem.constraints.lifetimes, ∀ i ∈ regions'.regionOf l, i ∈ regions.regionOf l :=
  h'.least _ { h.meets hbuilt with start := hstart }

/-- The solution from a start that is inside the least solution is the least solution. -/
theorem Progress.regions_eq (h : Progress problem {} [] regions violations)
    (hbuilt : problem.constraints.Built) (h' : Progress problem initial [] regions' violations')
    (hstart : problem.StartsIn initial regions) : regions' = regions := by
  refine NameMap.eq_of_regionOf (h'.keys.trans h.keys.symm) ?_ fun l hl => ?_
  · rw [h'.keys]
    exact hbuilt.nodup_lifetimes
  · rw [h'.keys] at hl
    refine PointSet.ext fun i => ⟨h.regionOf_subset hbuilt h' hstart l hl i, ?_⟩
    exact h'.regionOf_subset hbuilt h (startsIn_empty problem regions') l hl i

/-- Where nothing is pending, the regions determine the records. -/
theorem Progress.mem_violations (h : Progress problem initial [] regions violations)
    (hrecording : Recording problem violations) {violation : Violation} :
    violation ∈ violations ↔ violation.constraint ∈ problem.constraints.failing regions ∧
      ∀ i, i ∈ violation.extra ↔
        i ∈ violation.constraint.needed problem.constraints.graph regions.regionOf ∧
          i ∉ regions.regionOf violation.constraint.target := by
  have hextra : ∀ other ∈ violations, ∀ i, i ∈ other.extra ↔
      i ∈ other.constraint.needed problem.constraints.graph regions.regionOf ∧
        i ∉ regions.regionOf other.constraint.target := by
    intro other hother i
    have hmem := List.mem_map_of_mem (f := Violation.constraint) hother
    rw [← recorded_eq hrecording.nodup hother]
    exact h.mem_recorded (hrecording.listed _ hmem) (hrecording.fixed _ hmem)
  rw [← h.mem_violations_iff hrecording]
  constructor
  · intro hviolation
    exact ⟨List.mem_map_of_mem hviolation, hextra violation hviolation⟩
  · rintro ⟨hconstraint, hpoints⟩
    obtain ⟨other, hother, hsame⟩ := List.mem_map.1 hconstraint
    have hequal : other.extra = violation.extra := by
      refine PointSet.ext fun i => ?_
      rw [hextra other hother i, hpoints i, hsame]
    obtain ⟨c, extra⟩ := violation
    rw [← show other = ⟨c, extra⟩ from congr (congrArg Violation.mk hsame) hequal]
    exact hother

/-- Where violations are recorded, solving from a start that is inside the least solution gives the
same regions and records. -/
theorem exists_warm_of_recording (hbuilt : problem.constraints.Built)
    (hlimit : problem.options.maxRounds = none) (hstrict : problem.options.strict = false)
    (hcold : problem.solve {} = .ok cold) (hstart : problem.StartsIn initial cold.regions) :
    ∃ warm, problem.solve initial = .ok warm ∧ warm.converged = true ∧
      warm.regions = cold.regions ∧
      ∀ violation, violation ∈ warm.violations ↔ violation ∈ cold.violations := by
  obtain ⟨warm, hwarm, hconverged⟩ :=
    (wellDeclared_of_solve hcold).exists_solve initial hlimit hstrict
  obtain ⟨work, hwork, hprogress⟩ := progress_of_solve hbuilt hcold
  obtain ⟨work', hwork', hprogress'⟩ := progress_of_solve hbuilt hwarm
  rw [hwork (converged_of_solve hlimit hstrict hcold)] at hprogress
  rw [hwork' hconverged] at hprogress'
  have hregions := hprogress.regions_eq hbuilt hprogress' hstart
  refine ⟨warm, hwarm, hconverged, hregions, fun violation => ?_⟩
  rw [hprogress'.mem_violations (recording_of_solve hwarm),
    hprogress.mem_violations (recording_of_solve hcold), hregions]

/-- So it does where violations are raised, if the least solution has none. -/
theorem exists_warm (hbuilt : problem.constraints.Built)
    (hlimit : problem.options.maxRounds = none) (hcold : problem.solve {} = .ok cold)
    (hstart : problem.StartsIn initial cold.regions) :
    ∃ warm, problem.solve initial = .ok warm ∧ warm.converged = true ∧
      warm.regions = cold.regions ∧
      ∀ violation, violation ∈ warm.violations ↔ violation ∈ cold.violations := by
  cases hstrict : problem.options.strict with
  | false => exact exists_warm_of_recording hbuilt hlimit hstrict hcold hstart
  | true =>
    have hpaired := fun initial => @paired_solve problem initial (.inl hlimit)
    rw [withStrict_eq hstrict] at hpaired
    obtain ⟨hrecorded, hnone⟩ := (hpaired {}).eq_ok_iff.1 hcold
    obtain ⟨warm, hwarm, hconverged, hregions, hviolations⟩ :=
      @exists_warm_of_recording (problem.withStrict false) initial _ hbuilt hlimit rfl hrecorded
        hstart
    refine ⟨warm, (hpaired initial).eq_ok_iff.2 ⟨hwarm, ?_⟩, hconverged, hregions, hviolations⟩
    rw [List.eq_nil_iff_forall_not_mem]
    intro violation hmem
    rw [hviolations, hnone] at hmem
    exact absurd hmem List.not_mem_nil

/-- The solution of a part of the constraints is inside that of all of them, also if it was stopped
by a limit. -/
theorem startsIn_of_part {old : Solution} (hbuilt : problem.constraints.Built)
    (hprogress : Progress problem {} [] regions violations)
    (hbuilt' : part.constraints.Built) (hpart : part.constraints.Part problem.constraints)
    (hdeclared : part.declared = problem.declared) (hold : part.solve {} = .ok old) :
    problem.StartsIn old.regions regions := by
  obtain ⟨work, -, hprogress'⟩ := progress_of_solve hbuilt' hold
  intro l _ _ i hi
  have hl := NameMap.mem_keys_of_regionOf hi
  rw [hprogress'.keys] at hl
  have hmeets := (hprogress.meets hbuilt).of_part hpart fun l => by rw [hdeclared]
  exact hprogress'.least _ hmeets l hl i hi

/-! ### Starting from the solution -/

/-- Solving gets nowhere: the regions are as they were, and each constraint is taken off the
worklist once. -/
structure Resting (problem : Problem) (regions : NameMap PointSet) (state : State) : Prop where
  /-- No region has changed. -/
  regions : state.regions = regions
  /-- None has grown. -/
  applications : state.applications = 0
  /-- Nothing is noted of growth. -/
  history : state.history = []
  /-- Nothing has come back onto the worklist. -/
  rounds : state.rounds + state.work.length = problem.constraints.outlives.length

/-- Applying a constraint that is met, or one on a fixed region, adds to the records at most. -/
theorem grow_of_meets {state next : State} {c : Constraint} {grew : Bool}
    (hmeets : problem.Meets initial state.regions.regionOf) (hbuilt : problem.constraints.Built)
    (hc : c ∈ problem.constraints.toList) (h : problem.grow state c = .ok (next, grew)) :
    grew = false ∧ next = { state with violations := next.violations } := by
  cases hregion : state.regions.get? c.target with
  | none =>
    rw [grow, hregion] at h
    cases h
    exact ⟨rfl, rfl⟩
  | some region =>
    cases hfixed : problem.isFixed c.target with
    | true =>
      rw [grow_of_fixed hregion hfixed] at h
      obtain ⟨grown, hgrown, heq⟩ := exists_of_map_eq_ok h
      cases heq
      rcases growFixed_eq_ok hgrown with ⟨-, rfl⟩ | ⟨-, rfl⟩
      · exact ⟨rfl, rfl⟩
      · exact ⟨rfl, rfl⟩
    | false =>
      have hneeded := hmeets.needed hbuilt hc hfixed
      rw [NameMap.regionOf_of_get? hregion] at hneeded
      have hsame :
          region.union (c.needed problem.constraints.graph state.region) = region := by
        refine PointSet.ext fun i => ?_
        rw [PointSet.mem_union]
        exact ⟨fun hi => hi.elim id (hneeded i), .inl⟩
      rw [grow_of_free hregion hfixed, if_pos hsame] at h
      cases h
      exact ⟨rfl, rfl⟩

section Resting

variable {state next final : State}

/-- The pass over the constraints on points gets nowhere from regions that meet the problem. -/
theorem Resting.runLive (h : problem.Resting regions state)
    (hmeets : problem.Meets initial regions.regionOf) (hbuilt : problem.constraints.Built)
    (hrun : problem.runLive state = .ok next) : problem.Resting regions next := by
  refine foldlM_keeps (P := problem.Resting regions) (fun c hc other _ hother hgrown => ?_) h hrun
  obtain ⟨⟨grown, grew⟩, hgrow, rfl⟩ := exists_of_map_eq_ok hgrown
  obtain ⟨-, heq⟩ := grow_of_meets (by rwa [hother.regions]) hbuilt
    (ConstraintSet.mem_toList_live.2 hc) hgrow
  rw [heq]
  exact ⟨hother.regions, hother.applications, hother.history, hother.rounds⟩

/-- So do the rounds. -/
theorem Resting.advance {c : Outlives} {work : List Outlives} (h : problem.Resting regions state)
    (hmeets : problem.Meets initial regions.regionOf) (hbuilt : problem.constraints.Built)
    (hwork : state.work = c :: work) (hc : c ∈ problem.constraints.outlives)
    (hadvance : problem.advance state c work = .ok next) : problem.Resting regions next := by
  obtain ⟨grown, grew, hgrow, rfl⟩ := advance_eq_ok hadvance
  obtain ⟨rfl, heq⟩ := grow_of_meets (by rwa [h.regions]) hbuilt
    (ConstraintSet.mem_toList_outlives.2 hc) hgrow
  have hrounds := h.rounds
  rw [hwork, List.length_cons] at hrounds
  rw [heq]
  refine ⟨h.regions, h.applications, h.history, ?_⟩
  show state.rounds + 1 + work.length = problem.constraints.outlives.length
  omega

end Resting

/-- Given the solution, solving starts with it; what is given for a placeholder is not read. -/
theorem regions_of_start {first : State} (hbuilt : problem.constraints.Built)
    (h : Progress problem {} [] regions violations) (hfirst : problem.start regions = .ok first) :
    first.regions = regions := by
  obtain ⟨hkeys, -, -, hregion⟩ := start_eq_ok hfirst
  refine NameMap.eq_of_regionOf (hkeys.trans h.keys.symm) ?_ fun l hl => ?_
  · rw [hkeys]
    exact hbuilt.nodup_lifetimes
  · rw [hkeys] at hl
    have hstart := hregion l hl
    cases hfixed : problem.isFixed l with
    | false =>
      rw [initialRegion_of_free hfixed] at hstart
      exact (Except.ok.inj hstart).symm
    | true =>
      have hcold := h.fixed l hl hfixed
      obtain ⟨lifetime, hget, hkind⟩ := isFixed_eq_true.1 hfixed
      rw [initialRegion_of_fixed hget hkind] at hstart hcold
      exact Except.ok.inj (hstart.symm.trans hcold)

/-- Solving that starts from the solution gets nowhere. -/
theorem resting_of_solve {again : Solution} (hbuilt : problem.constraints.Built)
    (h : Progress problem {} [] regions violations) (hagain : problem.solve regions = .ok again)
    (hconverged : again.converged = true) :
    again.applications = 0 ∧ again.history = [] ∧
      again.rounds = problem.constraints.outlives.length := by
  obtain ⟨first, second, final, hfirst, hsecond, hfinal, rfl⟩ := steps_of_solve hagain
  have hmeets := h.meets hbuilt
  have hstart : problem.Resting regions first := by
    have hregions := regions_of_start hbuilt h hfirst
    rw [fresh_of_start hfirst]
    exact ⟨hregions, rfl, rfl, Nat.zero_add _⟩
  have hlive := hstart.runLive hmeets hbuilt hsecond
  have hwork : second.work = problem.constraints.outlives := by
    rw [(progress_runLive hbuilt (progress_start hfirst) hsecond).2]
    exact (start_eq_ok hfirst).2.2.1
  have hend : problem.Resting regions final :=
    run_keeps (fun state next c work hlist hc hadvance hstate =>
      hstate.advance hmeets hbuilt hlist hc hadvance) (fun c hc => hwork ▸ hc) hfinal hlive
  refine ⟨hend.applications, hend.history, ?_⟩
  have hrounds := hend.rounds
  rw [List.isEmpty_iff.1 hconverged] at hrounds
  exact hrounds

/-- **A warm start reaches the least solution.** Without a limit, solving from regions that are
inside the least solution, as far as lifetimes are concerned that are solved for, returns the same
regions and the same records up to their order. The solution of any part of the constraints under
the same declarations is inside the least solution, whatever its own options. Solving from the
solution itself applies each constraint between regions once, and no region grows. -/
theorem warm_start_reaches_least (problem : Problem) (cold : Solution)
    (hbuilt : problem.constraints.Built) (hlimit : problem.options.maxRounds = none)
    (hcold : problem.solve {} = .ok cold) :
    (∀ initial, problem.StartsIn initial cold.regions →
      ∃ warm, problem.solve initial = .ok warm ∧ warm.regions = cold.regions ∧
        ∀ violation, violation ∈ warm.violations ↔ violation ∈ cold.violations) ∧
    (∀ part : Problem, part.constraints.Built → part.constraints.Part problem.constraints →
      part.declared = problem.declared → ∀ old, part.solve {} = .ok old →
        problem.StartsIn old.regions cold.regions) ∧
    ∃ again, problem.solve cold.regions = .ok again ∧ again.regions = cold.regions ∧
      again.applications = 0 ∧ again.history = [] ∧
      again.rounds = problem.constraints.outlives.length := by
  obtain ⟨cold', hcold', hconverged, hregions, -⟩ :=
    exists_warm hbuilt hlimit hcold (startsIn_empty problem cold.regions)
  rw [hcold] at hcold'
  cases hcold'
  obtain ⟨work, hwork, hprogress⟩ := progress_of_solve hbuilt hcold
  rw [hwork hconverged] at hprogress
  refine ⟨fun initial hstart => ?_, fun part hbuilt' hpart hdeclared old hold => ?_, ?_⟩
  · obtain ⟨warm, hwarm, -, hsame⟩ := exists_warm hbuilt hlimit hcold hstart
    exact ⟨warm, hwarm, hsame⟩
  · exact startsIn_of_part hbuilt hprogress hbuilt' hpart hdeclared hold
  · obtain ⟨again, hagain, hend, hsame, -⟩ :=
      exists_warm hbuilt hlimit hcold fun _ _ _ _ hi => hi
    exact ⟨again, hagain, hsame, resting_of_solve hbuilt hprogress hagain hend⟩

end Problem

/-! ### A start between the constraints on points and the solution -/

namespace Sample

/-- Regions to start the sample from: the point that `b` gets from `c` in its solution, and for the
placeholder `s` a region that is not its own. -/
def warmth : NameMap PointSet :=
  ⟨[("s", ⟨511⟩), ("b", ⟨64⟩)]⟩

/-- They are within the solution, but for the placeholder. -/
theorem warmth_startsIn : wideningProblem.StartsIn warmth wideningEnd.regions := by
  intro l hl hfree
  apply PointSet.subset_iff.1
  have hl' : l = "s" ∨ l = "b" ∨ l = "c" := by
    have hlisted : l ∈ ["s", "b", "c"] := hl
    simpa using hlisted
  rcases hl' with rfl | rfl | rfl
  · cases hfree
  · decide
  · decide

/-- The sample without its constraints between regions. -/
def narrow : ConstraintSet :=
  .ofLists graph widening.lifetimes widening.live []

/-- It can be built. -/
theorem narrow_built : narrow.Built := by
  have hadd : (ConstraintSet.new graph ["s", "b", "c"]).addAll narrow.toList = .ok narrow := rfl
  exact (ConstraintSet.Built.new _ _).addAll hadd

/-- What is to be solved without them. -/
def narrowProblem : Problem :=
  { constraints := narrow, declared }

/-- It is a part of the sample. -/
theorem narrow_part : narrow.Part widening where
  graph := rfl
  lifetimes _ hl := hl
  live c hc := ⟨c, hc, rfl, rfl⟩
  outlives _ hc := absurd hc List.not_mem_nil

end Sample

/-- The sample is solved from elsewhere with the same regions, it can be solved from what its
constraints on points need, and from its solution in two rounds. -/
theorem Problem.widening_solved_from_elsewhere :
    ∃ cold, Sample.wideningProblem.constraints.Built ∧
      Sample.wideningProblem.options.maxRounds = none ∧
      Sample.wideningProblem.solve {} = .ok cold ∧
      (∃ warm, Sample.wideningProblem.solve Sample.warmth = .ok warm ∧
        warm.regions = cold.regions ∧
        ∀ violation, violation ∈ warm.violations ↔ violation ∈ cold.violations) ∧
      (∃ old warm, Sample.narrowProblem.solve {} = .ok old ∧
        Sample.wideningProblem.solve old.regions = .ok warm ∧ warm.regions = cold.regions) ∧
      ∃ again, Sample.wideningProblem.solve cold.regions = .ok again ∧
        again.regions = cold.regions ∧ again.applications = 0 ∧ again.rounds = 2 := by
  have hcold : Sample.wideningProblem.solve {} = .ok Sample.wideningEnd.solution :=
    Problem.solve_of_runFor rfl (by decide) Sample.run_widening rfl
  obtain ⟨hwarm, hpart, again, hagain, hregions, happlications, -, hrounds⟩ :=
    warm_start_reaches_least Sample.wideningProblem _ Sample.widening_built rfl hcold
  have hdeclared := wellDeclared_of_solve hcold
  have hdeclared' : Sample.narrowProblem.WellDeclared := ⟨hdeclared.known, hdeclared.placed⟩
  obtain ⟨old, hold, -⟩ := hdeclared'.exists_solve {} rfl rfl
  obtain ⟨warm, hsolved, hsame, -⟩ := hwarm old.regions
    (hpart Sample.narrowProblem Sample.narrow_built Sample.narrow_part rfl old hold)
  exact ⟨_, Sample.widening_built, rfl, hcold, hwarm Sample.warmth Sample.warmth_startsIn,
    ⟨old, warm, hold, hsolved, hsame⟩, again, hagain, hregions, happlications, hrounds⟩

end RegionInference
