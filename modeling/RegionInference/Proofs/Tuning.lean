import Mathlib
import RegionInference.Proofs.BlockOrder

/-!
# Settings that do not show in the report

Two settings say how an analysis is carried out and not what it is about: the order in which the
blocks are processed for liveness, and whether each growth of a region is checked and noted. The
report does not depend on them (`Body.report_ignores_tuning`).

A growth never fails its check, since a region grows by what is added to it. So a solver that checks
does what one that does not check does, but for its notes: without them the two go through the same
states (`Problem.run_forget`), and return the same (`Problem.solve_forget`).

The facts of liveness do not depend on the order, as long as no limit stops it. The constraints are
made point by point of these facts, so they come out the same and in the same order
(`ConstraintSet.ofBody_congr`), and all later phases start from them.
-/

namespace RegionInference

/-- The settings with another order and with growth checked or not. -/
def Settings.tuned (settings : Settings) (order : Order) (checkGrowth : Bool) : Settings :=
  { settings with order, solve := { settings.solve with checkGrowth } }

/-! ### Steps that commute with a map -/

section Commuting

variable {φ : α → α'} {ψ : β → β'}

/-- A map goes through a chain of two steps, if the second step commutes with it. -/
theorem map_bind {f : α → Except ε β} {g : α' → Except ε β'}
    (h : ∀ a, (f a).map ψ = g (φ a)) (result : Except ε α) :
    (result >>= f).map ψ = result.map φ >>= g := by
  cases result with
  | error e => rfl
  | ok a => exact h a

/-- It goes through steps taken in turn, if each step commutes with it. -/
theorem map_foldlM {f : α → γ → Except ε α} {g : α' → γ → Except ε α'}
    (h : ∀ a c, (f a c).map φ = g (φ a) c) (items : List γ) (a : α) :
    (items.foldlM f a).map φ = items.foldlM g (φ a) := by
  induction items generalizing a with
  | nil => rfl
  | cons c items ih =>
    rw [List.foldlM_cons, List.foldlM_cons, ← h]
    exact map_bind ih _

end Commuting

/-! ### Solving without notes -/

/-- The solution without notes of growth. -/
def Solution.forget (solution : Solution) : Solution :=
  { solution with history := [] }

namespace Problem

/-- The state without notes of growth. -/
def State.forget (state : State) : State :=
  { state with history := [] }

/-- The problem with growth neither checked nor noted. -/
def unchecked (problem : Problem) : Problem :=
  { problem with options := { problem.options with checkGrowth := false } }

/-- What a fixed region lacks is recorded in the same way without a history. -/
theorem growFixed_forget (problem : Problem) (state : State) (violation : Violation) :
    (problem.growFixed state violation).map State.forget =
      problem.unchecked.growFixed state.forget violation := by
  unfold growFixed
  by_cases hempty : violation.extra.isEmpty = true
  · rw [if_pos hempty, if_pos hempty]
    rfl
  · rw [if_neg hempty, if_neg hempty]
    by_cases hstrict : problem.options.strict = true
    · have hstrict' : problem.unchecked.options.strict = true := hstrict
      rw [if_pos hstrict, if_pos hstrict']
      rfl
    · have hstrict' : ¬ problem.unchecked.options.strict = true := hstrict
      rw [if_neg hstrict, if_neg hstrict']
      rfl

/-- A growth passes its check, and only its note tells that there was one. -/
theorem growFree_forget (problem : Problem) (state : State) (growth : Growth)
    (hgrowth : growth.before.subset growth.after = true) :
    (problem.growFree state growth).map State.forget =
      problem.unchecked.growFree state.forget growth := by
  unfold growFree
  rw [hgrowth]
  simp [Except.map, State.forget, unchecked]

/-- Applying a constraint. -/
theorem grow_forget (problem : Problem) (state : State) (c : Constraint) :
    (problem.grow state c).map (fun result => (result.1.forget, result.2)) =
      problem.unchecked.grow state.forget c := by
  cases hregion : state.regions.get? c.target with
  | none =>
    have hregion' : state.forget.regions.get? c.target = none := hregion
    rw [grow, hregion, grow, hregion']
    rfl
  | some region =>
    have hregion' : state.forget.regions.get? c.target = some region := hregion
    cases hfixed : problem.isFixed c.target with
    | true =>
      have hfixed' : problem.unchecked.isFixed c.target = true := hfixed
      have hforget := growFixed_forget problem state
        ⟨c, (c.needed problem.constraints.graph state.region).diff region⟩
      rw [grow_of_fixed hregion hfixed, grow_of_fixed hregion' hfixed']
      refine Eq.trans ?_ (congrArg (Except.map (·, false)) hforget)
      cases problem.growFixed state _ <;> rfl
    | false =>
      have hfixed' : problem.unchecked.isFixed c.target = false := hfixed
      have hforget := growFree_forget problem state
        ⟨c.target, region, region.union (c.needed problem.constraints.graph state.region)⟩
        (PointSet.subset_iff.2 fun i hi => PointSet.mem_union.2 (.inl hi))
      rw [grow_of_free hregion hfixed, grow_of_free hregion' hfixed']
      by_cases hsame : region.union (c.needed problem.constraints.graph state.region) = region
      · have hsame' : region.union (c.needed problem.unchecked.constraints.graph
            state.forget.region) = region := hsame
        rw [if_pos hsame, if_pos hsame']
        rfl
      · have hsame' : ¬ region.union (c.needed problem.unchecked.constraints.graph
            state.forget.region) = region := hsame
        rw [if_neg hsame, if_neg hsame']
        refine Eq.trans ?_ (congrArg (Except.map (·, true)) hforget)
        cases problem.growFree state _ <;> rfl

/-- A round. -/
theorem advance_forget (problem : Problem) (state : State) (c : Outlives) (work : List Outlives) :
    (problem.advance state c work).map State.forget =
      problem.unchecked.advance state.forget c work := by
  show (problem.grow { state with work, rounds := state.rounds + 1 } (.outlives c) >>= _).map _ =
    problem.unchecked.grow (State.forget { state with work, rounds := state.rounds + 1 })
      (.outlives c) >>= _
  rw [← grow_forget]
  refine map_bind ?_ _
  rintro ⟨grown, grew⟩
  cases grew <;> rfl

/-- The pass over the constraints on points. -/
theorem runLive_forget (problem : Problem) (state : State) :
    (problem.runLive state).map State.forget = problem.unchecked.runLive state.forget := by
  refine map_foldlM (fun state c => ?_) _ state
  rw [← grow_forget]
  cases problem.grow state (.live c) <;> rfl

/-- A run. -/
theorem run_forget (problem : Problem) (state : State) :
    (problem.run state).map State.forget = problem.unchecked.run state.forget := by
  fun_induction problem.run state with
  | case1 state hwork =>
    rw [@run_of_nil problem.unchecked state.forget hwork]
    rfl
  | case2 state c work hwork fault hreached =>
    have hsome : state.forget.work ≠ [] := hwork ▸ List.cons_ne_nil c work
    rw [@run_of_limit_fault problem.unchecked state.forget fault hsome hreached]
    rfl
  | case3 state c work hwork limit hreached hraise =>
    have hsome : state.forget.work ≠ [] := hwork ▸ List.cons_ne_nil c work
    rw [@run_of_limit_error problem.unchecked state.forget limit hsome hreached hraise]
    rfl
  | case4 state c work hwork limit hreached hraise =>
    rw [@run_of_limit problem.unchecked state.forget limit hreached
      (Bool.eq_false_of_not_eq_true hraise)]
    rfl
  | case5 state c work hwork hreached fault hadvance =>
    have hnext := advance_forget problem state c work
    rw [hadvance] at hnext
    rw [@run_of_advance_error problem.unchecked state.forget c work fault hwork hreached hnext.symm]
    rfl
  | case6 state c work hwork hreached next hadvance ih =>
    have hnext := advance_forget problem state c work
    rw [hadvance] at hnext
    rw [@run_of_advance problem.unchecked state.forget next.forget c work hwork hreached hnext.symm]
    exact ih

/-- Whether growth is checked makes no difference to the solution but for its notes. -/
theorem solve_forget (problem : Problem) (initial : NameMap PointSet) :
    (problem.solve initial).map Solution.forget = problem.unchecked.solve initial := by
  cases hfind : problem.declared.keys.find? (· ∉ problem.constraints.lifetimes) with
  | some l =>
    rw [solve_of_unknown hfind, @solve_of_unknown problem.unchecked initial l hfind]
    rfl
  | none =>
    have hstart : (problem.start initial).map State.forget = problem.unchecked.start initial := by
      cases hfirst : problem.start initial with
      | error fault => exact hfirst.symm
      | ok first =>
        rw [show problem.unchecked.start initial = .ok first from hfirst, fresh_of_start hfirst]
        rfl
    rw [solve_of_known hfind, @solve_of_known problem.unchecked initial hfind, ← hstart,
      ← map_bind (runLive_forget problem), ← map_bind (run_forget problem)]
    cases problem.start initial >>= problem.runLive >>= problem.run <;> rfl

end Problem

/-! ### Constraints from equal facts -/

/-- Steps that agree on all items come to the same. -/
theorem mapM_congr {f g : α → Except ε β} {items : List α} (h : ∀ a ∈ items, f a = g a) :
    items.mapM f = items.mapM g := by
  induction items with
  | nil => rfl
  | cons a items ih =>
    rw [List.mapM_cons, List.mapM_cons, h a List.mem_cons_self,
      ih fun a' ha' => h a' (List.mem_cons_of_mem _ ha')]

/-- Equal facts at each point give the same constraints in the same order, or fail in the same
way. -/
theorem ConstraintSet.ofBody_congr {body : Body} {liveness liveness' : Liveness}
    (hbody : liveness'.body = liveness.body)
    (hfacts : ∀ i < body.graph.size, liveness'.factAt i = liveness.factAt i) :
    ofBody body liveness' = ofBody body liveness := by
  have hlive : liveOf body liveness' = liveOf body liveness := by
    unfold liveOf
    rw [mapM_congr]
    rintro ⟨point, i⟩ hmem
    have hi := Graph.lt_size_of_index? (Graph.mem_zipIdx_points.1 hmem)
    simp only [liveHere, Liveness.lifetimesAt, hfacts i hi, hbody]
  unfold ofBody
  rw [hlive]

namespace Liveness

/-- Liveness fails because its limit is reached, or because its limit is no number, and then for
every order. -/
theorem run_eq_error {body : Body} {order : Order} {bound : Bound} {fault : Fault}
    (h : run body order bound = .error fault) :
    (∃ rounds, fault = .limitReached .liveness rounds bound) ∨
      ∀ order', run body order' bound = .error fault := by
  cases hallowed : bound.allowance with
  | unknown =>
    have hall : ∀ order', run body order' bound = .error .incomparableLimit := by
      intro order'
      simp only [run, Backward.runBelow, hallowed]
      rfl
    rw [hall] at h
    cases h
    exact .inr hall
  | _ =>
    simp only [run, Backward.runBelow, hallowed, bind, Except.bind] at h
    split at h
    · cases h
    · cases h
      exact .inl ⟨_, rfl⟩

end Liveness

/-! ### Reports -/

namespace Body

/-- Whether growth is checked does not show in the report. -/
theorem analyze_unchecked (body : Body) (settings : Settings) (order : Order) (checkGrowth : Bool) :
    body.analyze (settings.tuned order checkGrowth) =
      body.analyze (settings.tuned order false) := by
  unfold analyze
  refine congrArg (_ >>= ·) (funext fun liveness => ?_)
  refine congrArg (_ >>= ·) (funext fun set => ?_)
  -- the later phases do not read the notes of the solution
  show Problem.solve ⟨set, body.declared, (settings.tuned order checkGrowth).solve⟩ {} >>= _ =
    Problem.solve (Problem.unchecked
      ⟨set, body.declared, (settings.tuned order checkGrowth).solve⟩) {} >>= _
  rw [← Problem.solve_forget]
  cases Problem.solve ⟨set, body.declared, (settings.tuned order checkGrowth).solve⟩ {} <;> rfl

/-- An analysis fails if liveness does. -/
theorem analyze_of_run_error {body : Body} {settings : Settings} {fault : Fault}
    (h : Liveness.run body settings.order settings.maxIterations = .error fault) :
    body.analyze settings = .error fault := by
  rw [analyze, h]
  rfl

/-- Where liveness returns for two orders, the report does not depend on which of them is taken. -/
theorem analyze_of_orders {body : Body} {settings settings' : Settings}
    {liveness liveness' : Liveness}
    (hlive : Liveness.run body settings.order settings.maxIterations = .ok liveness)
    (hlive' : Liveness.run body settings'.order settings'.maxIterations = .ok liveness')
    (hsame : settings' = { settings with order := settings'.order }) :
    body.analyze settings' = body.analyze settings := by
  obtain ⟨limit, hran⟩ := Liveness.exists_ran hlive
  obtain ⟨limit', hran'⟩ := Liveness.exists_ran hlive'
  have hset : ConstraintSet.ofBody body liveness' = ConstraintSet.ofBody body liveness :=
    ConstraintSet.ofBody_congr (hran'.body_eq.trans hran.body_eq.symm)
      fun i hi => hran.factAt_unique hran' hi
  unfold analyze
  rw [hlive, hlive']
  show ConstraintSet.ofBody body liveness' >>= _ = ConstraintSet.ofBody body liveness >>= _
  rw [hset, hsame]

/-- **The report does not depend on how the analysis is carried out.** For any two orders of
processing, and whether growth is checked or not, an analysis comes to the same as long as the limit
of liveness is not reached in either order: to the same report, with regions, conflicts, violations
and numbers, or to the same fault. -/
theorem report_ignores_tuning (body : Body) (settings : Settings) (order order' : Order)
    (checkGrowth checkGrowth' : Bool)
    (hlive : ∀ rounds limit, Liveness.run body order settings.maxIterations ≠
      .error (.limitReached .liveness rounds limit))
    (hlive' : ∀ rounds limit, Liveness.run body order' settings.maxIterations ≠
      .error (.limitReached .liveness rounds limit)) :
    body.analyze (settings.tuned order checkGrowth) =
      body.analyze (settings.tuned order' checkGrowth') := by
  rw [analyze_unchecked body settings order, analyze_unchecked body settings order']
  cases hrun : Liveness.run body order settings.maxIterations with
  | error fault =>
    rcases Liveness.run_eq_error hrun with ⟨rounds, rfl⟩ | hall
    · exact absurd hrun (hlive _ _)
    · rw [analyze_of_run_error (hall order), analyze_of_run_error (hall order')]
  | ok liveness =>
    cases hrun' : Liveness.run body order' settings.maxIterations with
    | error fault =>
      rcases Liveness.run_eq_error hrun' with ⟨rounds, rfl⟩ | hall
      · exact absurd hrun' (hlive' _ _)
      · rw [hall order] at hrun
        cases hrun
    | ok liveness' => exact analyze_of_orders hrun' hrun rfl

end Body

/-- The sample with branches has the same report, whether its blocks are processed last in first out
with growth checked, or as they usually are. -/
theorem Body.branching_reports_alike :
    (∀ rounds limit, Liveness.run Sample.branching .lifo (.count defaultIterationLimit) ≠
      .error (.limitReached .liveness rounds limit)) ∧
    (∀ rounds limit, Liveness.run Sample.branching .postorder (.count defaultIterationLimit) ≠
      .error (.limitReached .liveness rounds limit)) ∧
    ∃ report, Sample.branching.analyze = .ok report ∧
      Sample.branching.analyze (Settings.tuned {} .lifo true) = .ok report := by
  have hlifo : (Liveness.run Sample.branching .lifo).isOk = true := by cbv
  have hpostorder : (Liveness.run Sample.branching .postorder).isOk = true := by cbv
  have hlive : ∀ rounds limit, Liveness.run Sample.branching .lifo ≠
      .error (.limitReached .liveness rounds limit) := by
    intro rounds limit h
    rw [h] at hlifo
    cases hlifo
  have hlive' : ∀ rounds limit, Liveness.run Sample.branching .postorder ≠
      .error (.limitReached .liveness rounds limit) := by
    intro rounds limit h
    rw [h] at hpostorder
    cases hpostorder
  obtain ⟨report, hreport, -⟩ := analyze_of_analyzeFor Sample.analyzeFor_branching
  refine ⟨hlive, hlive', report, hreport, ?_⟩
  rw [report_ignores_tuning Sample.branching {} .lifo .postorder true false hlive hlive']
  exact hreport

end RegionInference
