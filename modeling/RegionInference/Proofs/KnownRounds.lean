import RegionInference.Proofs.Analysis

/-!
# Analyses in a known number of rounds

The loop of the solver has no bound, so an analysis of a given body cannot be evaluated as it
stands. Where some number of rounds is enough, the analysis comes to what an analysis with that many
rounds does (`Body.analyze_of_analyzeFor`), and that one can be evaluated.
-/

namespace RegionInference

/-- What an analysis comes to. -/
structure Outcome where
  /-- The regions. -/
  regions : NameMap PointSet
  /-- The constraints that fixed regions fail. -/
  violations : List Violation
  /-- The conflicts. -/
  conflicts : List Conflict

namespace Body

/-- Analyses a body with the default settings, solving for some rounds at most. The answer also
tells whether nothing was left to do and every declared lifetime is one of the constraints. -/
def analyzeFor (body : Body) (rounds : Nat) : Except Fault (Outcome × Bool) := do
  let liveness ← Liveness.run body
  let constraints ← ConstraintSet.ofBody body liveness
  let problem : Problem := { constraints, declared := body.declared }
  let final ← problem.start {} >>= problem.runLive >>= problem.runFor rounds
  let conflicts ← body.conflicts constraints final.regions
  return (⟨final.regions, final.violations, conflicts⟩,
    final.work.isEmpty && problem.declared.keys.all (· ∈ constraints.lifetimes))

/-- If the rounds are enough, the analysis comes to the same. -/
theorem analyze_of_analyzeFor {body : Body} {rounds : Nat} {outcome : Outcome}
    (h : body.analyzeFor rounds = .ok (outcome, true)) :
    ∃ report, body.analyze = .ok report ∧ report.converged = true ∧
      report.regions = outcome.regions ∧ report.violations = outcome.violations ∧
      report.conflicts = outcome.conflicts := by
  unfold analyzeFor at h
  obtain ⟨liveness, hlive, h⟩ := exists_of_bind_eq_ok h
  obtain ⟨set, hset, h⟩ := exists_of_bind_eq_ok h
  obtain ⟨final, hfinal, h⟩ := exists_of_bind_eq_ok h
  obtain ⟨conflicts, hconflicts, h⟩ := exists_of_bind_eq_ok h
  simp only [pure, Except.pure, Except.ok.injEq, Prod.mk.injEq, Bool.and_eq_true,
    List.isEmpty_iff, List.all_eq_true, decide_eq_true_eq] at h
  obtain ⟨rfl, hend, hknown⟩ := h
  have hsolved := Problem.solve_of_runFor rfl hknown hfinal hend
  obtain ⟨report, hreport, hregions, hviolations, hconverged⟩ :=
    @exists_analyze body {} _ _ _ _ hlive hset hsolved hconflicts
  refine ⟨report, hreport, hconverged, hregions, hviolations, ?_⟩
  obtain ⟨liveness', set', solution', hanalyzed⟩ := analyze_eq_ok hreport
  cases hlive.symm.trans hanalyzed.live
  cases hset.symm.trans hanalyzed.generated
  cases hsolved.symm.trans hanalyzed.solved
  exact Except.ok.inj ((hanalyzed.checked rfl).symm.trans hconflicts)

end Body

end RegionInference
