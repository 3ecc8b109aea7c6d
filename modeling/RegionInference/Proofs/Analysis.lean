import RegionInference.Proofs.BodyConstraints
import RegionInference.Proofs.Solving
import RegionInference.Report.Basic

/-!
# What an analysis has established

From a point on, one region outlasts another if it contains all that can be reached without leaving
the other one (`Graph.Outlasts`). At each point this orders the lifetimes: it is reflexive and
transitive (`Graph.Outlasts.refl`, `Graph.Outlasts.trans`).

An analysis goes through its phases one after the other (`Body.analyze_eq_ok`). When it has
converged and no fixed region stands against it, the regions meet the constraints
(`Analyzed.metBy`). Then they outlast each other as the demands of the body say
(`Analyzed.outlasts`), and have the points at which their lifetimes are live
(`Analyzed.mem_of_read`).
-/

namespace RegionInference

namespace Graph

/-- From a point on, the region of `a` contains all that can be reached within the region of
`b`. -/
def Outlasts (g : Graph) (R : String → PointSet) (q : Nat) (a b : String) : Prop :=
  ∀ i ∈ g.reachWithin q (R b), i ∈ R a

namespace Outlasts

variable {g : Graph} {R : String → PointSet} {q : Nat} {a b c : String}

/-- Every region outlasts itself. -/
theorem refl (g : Graph) (R : String → PointSet) (q : Nat) (a : String) : g.Outlasts R q a a :=
  fun _ hi => mem_of_mem_reachWithin hi

/-- A region that outlasts a second one outlasts what the second one outlasts. -/
theorem trans (hab : g.Outlasts R q a b) (hbc : g.Outlasts R q b c) : g.Outlasts R q a c :=
  reachWithin_subset_trans hab hbc

end Outlasts

end Graph

/-- Every region contains what the constraints on it need. -/
def ConstraintSet.MetBy (set : ConstraintSet) (R : String → PointSet) : Prop :=
  ∀ c ∈ set.toList, ∀ i ∈ c.needed set.graph R, i ∈ R c.target

namespace Body

/-- The phases that an analysis has gone through, with what came out of each. -/
structure Analyzed (body : Body) (settings : Settings) (report : Report) (liveness : Liveness)
    (set : ConstraintSet) (solution : Solution) : Prop where
  /-- The locals that are live. -/
  live : Liveness.run body settings.order settings.maxIterations = .ok liveness
  /-- The constraints. -/
  generated : ConstraintSet.ofBody body liveness = .ok set
  /-- The regions that solve them. -/
  solved : Problem.solve
    { constraints := set, declared := body.declared, options := settings.solve } = .ok solution
  /-- The conflicts, if they were looked for. -/
  checked : settings.detectConflicts = true →
    body.conflicts set solution.regions = .ok report.conflicts
  /-- The report has the regions. -/
  regions_eq : report.regions = solution.regions
  /-- The report has the violations. -/
  violations_eq : report.violations = solution.violations
  /-- The report tells whether solving converged. -/
  converged_eq : report.converged = solution.converged

/-- An analysis that returns has gone through all phases. -/
theorem analyze_eq_ok {body : Body} {settings : Settings} {report : Report}
    (h : body.analyze settings = .ok report) :
    ∃ liveness set solution, body.Analyzed settings report liveness set solution := by
  unfold analyze at h
  obtain ⟨liveness, hlive, h⟩ := exists_of_bind_eq_ok h
  obtain ⟨set, hset, h⟩ := exists_of_bind_eq_ok h
  obtain ⟨solution, hsolution, h⟩ := exists_of_bind_eq_ok h
  refine ⟨liveness, set, solution, ?_⟩
  split at h
  · obtain ⟨conflicts, hconflicts, h⟩ := exists_of_bind_eq_ok h
    cases h
    exact ⟨hlive, hset, hsolution, fun _ => hconflicts, rfl, rfl, rfl⟩
  · next hskip =>
    cases h
    exact ⟨hlive, hset, hsolution, fun hdetect => absurd hdetect hskip, rfl, rfl, rfl⟩

/-- Where conflicts were not looked for, none are reported. -/
theorem conflicts_of_analyze {body : Body} {settings : Settings} {report : Report}
    (h : body.analyze settings = .ok report) (hskip : settings.detectConflicts = false) :
    report.conflicts = [] := by
  unfold analyze at h
  obtain ⟨liveness, -, h⟩ := exists_of_bind_eq_ok h
  obtain ⟨set, -, h⟩ := exists_of_bind_eq_ok h
  obtain ⟨solution, -, h⟩ := exists_of_bind_eq_ok h
  rw [hskip] at h
  cases h
  rfl

/-- When all phases return, the analysis does. -/
theorem exists_analyze {body : Body} {settings : Settings} {liveness : Liveness}
    {set : ConstraintSet} {solution : Solution} {conflicts : List Conflict}
    (hlive : Liveness.run body settings.order settings.maxIterations = .ok liveness)
    (hset : ConstraintSet.ofBody body liveness = .ok set)
    (hsolution : Problem.solve
      { constraints := set, declared := body.declared, options := settings.solve } = .ok solution)
    (hconflicts : body.conflicts set solution.regions = .ok conflicts) :
    ∃ report, body.analyze settings = .ok report ∧ report.regions = solution.regions ∧
      report.violations = solution.violations ∧ report.converged = solution.converged := by
  unfold analyze
  simp only [hlive, hset, hsolution, hconflicts, bind, Except.bind]
  split
  · exact ⟨_, rfl, rfl, rfl, rfl⟩
  · exact ⟨_, rfl, rfl, rfl, rfl⟩

/-- Without placeholders every lifetime is solved for. -/
theorem free_of_placeholders {body : Body}
    (h : ∀ lifetime ∈ body.placeholders, lifetime.isPlaceholder = false) :
    ∀ lifetime ∈ body.lifetimes, lifetime.isPlaceholder = false := by
  intro lifetime hmem
  rcases List.mem_append.1 hmem with hdeclared | hmentioned
  · exact h lifetime hdeclared
  · obtain ⟨name, -, rfl⟩ := List.mem_map.1 hmentioned
    rfl

/-- Without placeholders no region is fixed. -/
theorem isFixed_eq_false {body : Body}
    (h : ∀ lifetime ∈ body.lifetimes, lifetime.isPlaceholder = false) (set : ConstraintSet)
    (options : SolveOptions) (l : String) :
    Problem.isFixed { constraints := set, declared := body.declared, options } l = false := by
  rw [← Bool.not_eq_true, Problem.isFixed_eq_true]
  rintro ⟨lifetime, hget, hkind⟩
  obtain ⟨_, hother, heq⟩ := List.mem_map.1 (NameMap.mem_entries_of_get? hget)
  cases heq
  rw [h lifetime hother] at hkind
  cases hkind

namespace Analyzed

variable {body : Body} {settings : Settings} {report : Report} {liveness : Liveness}
  {set : ConstraintSet} {solution : Solution}

/-- The liveness is that of the body. -/
theorem body_eq (h : body.Analyzed settings report liveness set solution) :
    liveness.body = body := by
  obtain ⟨limit, hran⟩ := Liveness.exists_ran h.live
  exact hran.body_eq

/-- The constraints were built by the operations of a set. -/
theorem built (h : body.Analyzed settings report liveness set solution) : set.Built :=
  (ConstraintSet.ofBody_built h.body_eq h.generated).1

/-- They are over the graph of the body. -/
theorem graph_eq (h : body.Analyzed settings report liveness set solution) :
    set.graph = body.graph :=
  (ConstraintSet.ofBody_built h.body_eq h.generated).2.1

/-- When solving has converged, the regions meet the constraints, unless something is recorded
against a fixed region. -/
theorem metBy (h : body.Analyzed settings report liveness set solution)
    (hconverged : report.converged = true)
    (hgrows : report.violations = [] ∨ ∀ lifetime ∈ body.lifetimes,
      lifetime.isPlaceholder = false) : set.MetBy report.regions.regionOf := by
  obtain ⟨work, hwork, hprogress⟩ := Problem.progress_of_solve h.built h.solved
  rw [hwork (h.converged_eq ▸ hconverged)] at hprogress
  rw [h.regions_eq]
  intro c hc i hi
  have hsettled := (hprogress.settled c hc).resolve_left List.not_mem_nil
  cases hfixed : Problem.isFixed
    { constraints := set, declared := body.declared, options := settings.solve } c.target with
  | false => exact hsettled.free hfixed i hi
  | true =>
    rcases hgrows with hnone | hfree
    · -- what a fixed region lacks would be recorded
      refine Classical.byContradiction fun hout => ?_
      have hrecorded := hsettled.fixed hfixed i hi hout
      rw [← h.violations_eq, hnone] at hrecorded
      exact PointSet.not_mem_empty i hrecorded
    · rw [isFixed_eq_false hfree] at hfixed
      cases hfixed

/-- What is demanded of two lifetimes at a point holds of their regions. -/
theorem outlasts (h : body.Analyzed settings report liveness set solution)
    (hmet : set.MetBy report.regions.regionOf)
    {demand : Demand} (hdemand : set.Has demand) {q : Nat}
    (hq : body.graph.index? demand.point = some q) :
    body.graph.Outlasts report.regions.regionOf q demand.longer demand.shorter := by
  obtain ⟨-, hsame | ⟨c, hc, hlonger, hshorter, hpoint⟩⟩ := hdemand
  · rw [hsame]
    exact .refl _ _ _ _
  · have hmem := ConstraintSet.mem_toList_outlives.2 hc
    have hindex := (h.built.admits _ hmem).2.2
    rw [h.graph_eq, hpoint, hq] at hindex
    cases hindex
    rw [← hlonger, ← hshorter, ← h.graph_eq]
    exact hmet _ hmem

/-- Where a local may still be read, the regions of its type have the point. -/
theorem mem_of_read (h : body.Analyzed settings report liveness set solution)
    (hmet : set.MetBy report.regions.regionOf)
    {i : Nat} {v l : String} {found : Variable} (hi : i < body.graph.size)
    (hv : v ∈ (liveness.factAt i).1) (hfound : body.var v = .ok found)
    (hl : l ∈ found.ty.lifetimes) : i ∈ report.regions.regionOf l := by
  obtain ⟨point, hpoint⟩ := Graph.exists_point hi
  obtain ⟨c, hc, rfl, rfl⟩ :=
    ConstraintSet.exists_live_of_read h.body_eq h.generated hpoint hv hfound hl
  exact hmet _ (ConstraintSet.mem_toList_live.2 hc) c.index (PointSet.mem_single.2 rfl)

end Analyzed

end Body

end RegionInference
