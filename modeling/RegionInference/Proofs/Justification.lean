import Mathlib
import RegionInference.Proofs.Flow
import RegionInference.Proofs.Subtyping

/-!
# Every point of a region has a reason

No region has a point for nothing: the lifetime flows into one that has to last at this very point,
because it is live there or because its fixed region has the point. `ConstraintSet.Justified` says
this for any notion of a reason. Applying a constraint keeps it (`Problem.justified_of_grow`): a
point that comes in through a constraint between regions comes from the shorter region, and so does
its reason. So it holds at any time while solving (`Problem.justified_of_solve`), also for what a
round limit leaves behind, and for the regions that an analysis reports
(`Body.regions_have_reasons`): between two uses of a lifetime there are gaps in its region.
-/

namespace RegionInference

/-- Each point of each region is there for a reason: the lifetime flows into one that has to last at
the point. -/
def ConstraintSet.Justified (set : ConstraintSet) (Reason : Nat → String → Prop)
    (R : String → PointSet) : Prop :=
  ∀ l, ∀ i ∈ R l, ∃ l', set.FlowsInto l l' ∧ Reason i l'

namespace Problem

variable {problem : Problem} {initial : NameMap PointSet} {Reason : Nat → String → Prop}

/-- Applying a constraint adds points for reasons only. -/
theorem justified_of_grow {state next : State} {c : Constraint} {grew : Bool}
    (hlive : ∀ c ∈ problem.constraints.live, Reason c.index c.lifetime)
    (hc : c ∈ problem.constraints.toList) (hgrow : problem.grow state c = .ok (next, grew))
    (h : problem.constraints.Justified Reason state.regions.regionOf) :
    problem.constraints.Justified Reason next.regions.regionOf := by
  rcases regions_of_grow hgrow with hsame | ⟨-, hgrown⟩
  · rwa [hsame]
  · rw [hgrown]
    intro l i hi
    rw [NameMap.regionOf_set] at hi
    split at hi
    · next htarget =>
      subst htarget
      rcases PointSet.mem_union.1 hi with hold | hneeded
      · exact h _ i hold
      · cases c with
        | live c =>
          obtain rfl : i = c.index := PointSet.mem_single.1 hneeded
          exact ⟨c.lifetime, .refl, hlive c (ConstraintSet.mem_toList_live.1 hc)⟩
        | outlives c =>
          -- the point is in the shorter region, and its reason there is one here
          obtain ⟨l', hflows, hreason⟩ := h c.shorter i (Graph.mem_of_mem_reachWithin hneeded)
          have hedge : problem.constraints.Edge c.longer c.shorter :=
            ⟨c, ConstraintSet.mem_toList_outlives.1 hc, rfl, rfl⟩
          exact ⟨l', hflows.head hedge, hreason⟩
    · exact h l i hi

/-- If solving starts with points that have a reason, it ends so. -/
theorem justified_of_solve {solution : Solution}
    (hlive : ∀ c ∈ problem.constraints.live, Reason c.index c.lifetime)
    (hstart : ∀ l ∈ problem.constraints.lifetimes, ∀ region,
      problem.initialRegion initial l = .ok region → ∀ i ∈ region, Reason i l)
    (h : problem.solve initial = .ok solution) :
    problem.constraints.Justified Reason solution.regions.regionOf := by
  refine solve_keeps
    (Q := fun regions _ => problem.constraints.Justified Reason regions.regionOf) ?_ ?_ h
  · intro state hstate l i hi
    obtain ⟨hkeys, -, -, hregions⟩ := start_eq_ok hstate
    have hl : l ∈ problem.constraints.lifetimes := hkeys ▸ NameMap.mem_keys_of_regionOf hi
    exact ⟨l, .refl, hstart l hl _ (hregions l hl) i hi⟩
  · intro state next c grew hc hgrow hstate
    exact justified_of_grow hlive hc hgrow hstate

end Problem

namespace Body

/-- A lifetime has to last at a point: it is live there, or it is a placeholder whose fixed region
has the point. -/
def LastsAt (body : Body) (liveness : Liveness) (i : Nat) (l : String) : Prop :=
  (∃ names, liveness.lifetimesAt i = .ok names ∧ l ∈ names) ∨
    ∃ lifetime, body.declared.get? l = some lifetime ∧ lifetime.isPlaceholder = true ∧
      lifetime.Spans body.graph i

/-- **Regions contain only justified points.** For every point of a region that an analysis reports,
the lifetime flows into one that is live at the point, or into a placeholder whose fixed region has
the point. So where no lifetime that it flows into has to last, there is a gap in the region. -/
theorem regions_have_reasons {body : Body} {settings : Settings} {report : Report}
    (h : body.analyze settings = .ok report) :
    ∃ liveness set, Liveness.run body settings.order settings.maxIterations = .ok liveness ∧
      ConstraintSet.ofBody body liveness = .ok set ∧
      ∀ l i, i ∈ report.regions.regionOf l →
        ∃ l' ∈ set.flowsTo l, set.FlowsInto l l' ∧ body.LastsAt liveness i l' := by
  obtain ⟨liveness, set, solution, hrun⟩ := analyze_eq_ok h
  refine ⟨liveness, set, hrun.live, hrun.generated, ?_⟩
  have hjustified : set.Justified (body.LastsAt liveness) solution.regions.regionOf := by
    refine Problem.justified_of_solve ?_ ?_ hrun.solved
    · intro c hc
      exact .inl ((ConstraintSet.mem_live_ofBody hrun.body_eq hrun.generated).1 hc).2.2
    · -- nothing is given to start with, so only placeholders have points
      intro l _ region hregion i hi
      cases hfixed : Problem.isFixed
        { constraints := set, declared := body.declared, options := settings.solve } l with
      | false =>
        rw [Problem.initialRegion_of_free hfixed] at hregion
        cases hregion
        exact absurd hi (PointSet.not_mem_empty i)
      | true =>
        obtain ⟨lifetime, hget, hkind⟩ := Problem.isFixed_eq_true.1 hfixed
        rw [Problem.initialRegion_of_fixed hget hkind, hrun.graph_eq] at hregion
        exact .inr ⟨lifetime, hget, hkind, (Lifetime.mem_fixedRegion hkind hregion).1 hi⟩
  intro l i hi
  rw [hrun.regions_eq] at hi
  obtain ⟨l', hflows, hlasts⟩ := hjustified l i hi
  exact ⟨l', ConstraintSet.mem_flowsTo.2 hflows, hflows, hlasts⟩

/-- In the sample body `m` lasts from the copy to the read in the loop. Between the read and the
next copy there is a gap, since nothing that `m` flows into is live there. -/
theorem gap_between_read_and_copy : ∃ report, Sample.body.analyze = .ok report ∧
    4 ∈ report.regions.regionOf "m" ∧ 2 ∈ Sample.graph.succ 5 ∧ 3 ∈ Sample.graph.succ 2 ∧
    5 ∉ report.regions.regionOf "m" ∧ 3 ∈ report.regions.regionOf "m" := by
  obtain ⟨report, hreport, hregions, -⟩ := Sample.exists_report
  obtain ⟨liveness, set, hlive, hset, hreasons⟩ := regions_have_reasons hreport
  refine ⟨report, hreport, by rw [hregions]; decide, by decide, by decide, ?_,
    by rw [hregions]; decide⟩
  obtain rfl : Sample.liveness = liveness := Except.ok.inj (Sample.run_body.symm.trans hlive)
  obtain rfl : Sample.bodyConstraints = set :=
    Except.ok.inj (Sample.ofBody_liveness.symm.trans hset)
  intro hgap
  obtain ⟨l, hflows, -, hlasts⟩ := hreasons "m" 5 hgap
  have hself : (Sample.bodyConstraints.flowsTo "m").toList = ["m"] := by cbv
  rw [NameSet.mem_def, hself, List.mem_singleton] at hflows
  subst hflows
  rcases hlasts with ⟨names, hnames, hl⟩ | ⟨lifetime, hget, hkind, -⟩
  · have honly : Sample.liveness.lifetimesAt 5 = .ok (.ofList ["l"]) := rfl
    cases honly.symm.trans hnames
    simp [NameSet.mem_ofList] at hl
  · have hdeclared : Sample.body.declared.get? "m" = some { name := "m" } := by cbv
    cases hdeclared.symm.trans hget
    cases hkind

end Body

end RegionInference
