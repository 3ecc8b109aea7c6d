import Mathlib
import RegionInference.Proofs.ConflictRules

/-!
# Conflicts are followed by uses

A region lasts for uses to come: from each of its points a path leads, without leaving the region,
to a use of a lifetime that its lifetime flows into (`ConstraintSet.Sustained`). Where a lifetime is
live, some local may still be used, and it stays live on the way to the use
(`Liveness.Ran.exists_needs`); so the points at which lifetimes are live make regions of this kind.
Applying a constraint between regions keeps it (`Problem.sustained_of_grow`): what comes into the
longer region is all that can be reached within the shorter one, the way to the use included. The
rounds keep it, and so it does not matter where a limit stops them (`Problem.sustained_of_solve`).

So from the point of a conflict a use of the loan can be reached while the loan is active, and the
search for it succeeds (`Body.conflicts_have_uses`).
-/

namespace RegionInference

/-! ### Paths to a use -/

/-- What is reached within a set is reached within every set that the steps into the first do not
leave. -/
theorem Graph.ReachedWithin.of_closed {g : Graph} {s t : PointSet} {i j : Nat}
    (hclosed : ∀ a ∈ t, ∀ b ∈ g.succ a, b ∈ s → b ∈ t) (hi : i ∈ t)
    (h : g.ReachedWithin s i j) : g.ReachedWithin t i j := by
  induction h with
  | start => exact .start hi
  | step _ hsucc hj ih => exact .step ih hsucc (hclosed _ ih.mem _ hsucc hj)

namespace Liveness.Ran

variable {body : Body} {order : Order} {limit : Nat} {liveness : Liveness} {i : Nat}

/-- From a point at which a local is live an event can be reached without leaving the points at
which it is live. -/
theorem exists_event (h : Ran body order limit liveness) (aspect : Aspect) {v : String}
    (hi : i < body.graph.size) (hv : v ∈ aspect.part (liveness.factAt i)) {set : PointSet}
    (hset : ∀ j < body.graph.size, v ∈ aspect.part (liveness.factAt j) → j ∈ set) :
    ∃ j element, body.graph.ReachedWithin set i j ∧ body.graph.elementAt? j = some element ∧
      v ∈ aspect.events element := by
  obtain ⟨p, k, rfl, hpath, ⟨element, helement, hevent⟩, hkeep⟩ := (h.mem_factAt_iff aspect hi).1 hv
  refine ⟨p k, element, ?_, helement, hevent⟩
  rw [← Graph.mem_reachWithin]
  refine hpath.mem_reachWithin (Nat.zero_le k) (Nat.le_refl k) fun m _ hmk => ?_
  have hsize : p m < body.graph.size := by
    cases m with
    | zero => exact hi
    | succ m => exact Graph.succ_lt_size (hpath m (by omega))
  -- the rest of the path leads to the event
  refine hset (p m) hsize (h.mem_of_usedAlong (p := fun n => p (m + n)) (k := k - m) ⟨?_, ?_, ?_⟩)
  · intro n hn
    exact hpath (m + n) (by omega)
  · dsimp only
    rw [Nat.add_sub_cancel' hmk]
    exact ⟨element, helement, hevent⟩
  · intro n hn
    exact hkeep (m + n) (by omega)

/-- From a point at which a lifetime is live an element that needs it can be reached without leaving
the points at which it is live. -/
theorem exists_needs (h : Ran body order limit liveness) {set : ConstraintSet}
    (hset : ConstraintSet.ofBody body liveness = .ok set) {point : Point}
    (hpoint : body.graph.index? point = some i) {names : NameSet}
    (hnames : liveness.lifetimesAt i = .ok names) {l : String} (hl : l ∈ names)
    {points : PointSet}
    (hpoints : ∀ j names, liveness.lifetimesAt j = .ok names → l ∈ names →
      j < body.graph.size → j ∈ points) :
    ∃ j element, body.graph.ReachedWithin points i j ∧ body.graph.elementAt? j = some element ∧
      body.Needs element l := by
  have hi := Graph.lt_size_of_index? hpoint
  have hlive : ∀ j < body.graph.size, ((∃ v ∈ (liveness.factAt j).1, ∃ found,
      liveness.body.var v = .ok found ∧ l ∈ found.ty.lifetimes) ∨
      ∃ v ∈ (liveness.factAt j).2, ∃ lifetimes, liveness.body.nonDangling v = .ok lifetimes ∧
        l ∈ lifetimes) → j ∈ points := by
    intro j hj hneeds
    obtain ⟨point', hpoint'⟩ := Graph.exists_point hj
    obtain ⟨names', hnames'⟩ := ConstraintSet.exists_lifetimesAt hset hpoint'
    exact hpoints j names' hnames' ((mem_lifetimesAt hnames').2 hneeds) hj
  rcases (mem_lifetimesAt hnames).1 hl with
    ⟨v, hv, found, hfound, hmem⟩ | ⟨v, hv, lifetimes, hneeded, hmem⟩
  · obtain ⟨j, element, hreached, helement, hevent⟩ := h.exists_event .read hi hv
      fun j hj hvj => hlive j hj (.inl ⟨v, hvj, found, hfound, hmem⟩)
    rw [h.body_eq] at hfound
    exact ⟨j, element, hreached, helement, .inl ⟨v, hevent, found, hfound, hmem⟩⟩
  · obtain ⟨j, element, hreached, helement, hevent⟩ := h.exists_event .drop hi hv
      fun j hj hvj => hlive j hj (.inr ⟨v, hvj, lifetimes, hneeded, hmem⟩)
    rw [h.body_eq] at hneeded
    exact ⟨j, element, hreached, helement, .inr ⟨v, hevent, lifetimes, hneeded, hmem⟩⟩

end Liveness.Ran

/-! ### Regions that last for uses -/

/-- From each point of each region a path leads, without leaving the region, to a use of a lifetime
that the lifetime of the region flows into. -/
def ConstraintSet.Sustained (set : ConstraintSet) (Use : Nat → String → Prop)
    (R : String → PointSet) : Prop :=
  ∀ l, ∀ i ∈ R l, ∃ j l', set.graph.ReachedWithin (R l) i j ∧ set.FlowsInto l l' ∧ Use j l'

namespace Problem

variable {problem : Problem} {Use : Nat → String → Prop}

/-- Applying a constraint between regions keeps the ways to uses inside the regions. -/
theorem sustained_of_grow {state next : State} {c : Outlives} {grew : Bool}
    (hc : c ∈ problem.constraints.outlives)
    (hgrow : problem.grow state (.outlives c) = .ok (next, grew))
    (h : problem.constraints.Sustained Use state.regions.regionOf) :
    problem.constraints.Sustained Use next.regions.regionOf := by
  rcases regions_of_grow hgrow with hsame | ⟨-, hgrown⟩
  · rwa [hsame]
  · rw [hgrown]
    intro l i hi
    rw [NameMap.regionOf_set] at hi ⊢
    split at hi
    · next htarget =>
      subst htarget
      rw [if_pos rfl]
      rcases PointSet.mem_union.1 hi with hold | hneeded
      · -- the old way is still inside
        obtain ⟨j, l', hreached, hflows, huse⟩ := h _ i hold
        refine ⟨j, l', ?_, hflows, huse⟩
        rw [← Graph.mem_reachWithin] at hreached ⊢
        exact Graph.reachWithin_mono (fun a ha => PointSet.mem_union.2 (.inl ha)) hreached
      · -- the way inside the shorter region comes in with the point
        obtain ⟨j, l', hreached, hflows, huse⟩ :=
          h c.shorter i (Graph.mem_of_mem_reachWithin hneeded)
        have hway : problem.constraints.graph.ReachedWithin
            (problem.constraints.graph.reachWithin c.index (state.regions.regionOf c.shorter))
            i j := by
          refine hreached.of_closed (fun a ha b hb hbs => ?_) hneeded
          rw [Graph.mem_reachWithin] at ha ⊢
          exact .step ha hb hbs
        refine ⟨j, l', ?_, hflows.head ⟨c, hc, rfl, rfl⟩, huse⟩
        rw [← Graph.mem_reachWithin] at hway ⊢
        exact Graph.reachWithin_mono (fun a ha => PointSet.mem_union.2 (.inr ha)) hway
    · next htarget =>
      rw [if_neg htarget]
      exact h l i hi

/-- When nothing is fixed, the constraints on points make regions of their points. -/
theorem regionOf_runLive (hbuilt : problem.constraints.Built)
    (hfree : ∀ l, problem.isFixed l = false) {first second : State}
    (hfirst : problem.start {} = .ok first) (hsecond : problem.runLive first = .ok second)
    {l : String} {i : Nat} : i ∈ second.regions.regionOf l ↔
      ∃ c ∈ problem.constraints.live, c.lifetime = l ∧ c.index = i := by
  constructor
  · intro hi
    refine (runLive_keeps (Q := fun regions _ => ∀ l, ∀ i ∈ regions.regionOf l,
      ∃ c ∈ problem.constraints.live, c.lifetime = l ∧ c.index = i) ?_ hsecond ?_).1 l i hi
    · intro state next c grew hc hgrow hstate l i hi
      rcases regions_of_grow hgrow with hsame | ⟨-, hgrown⟩
      · rw [hsame] at hi
        exact hstate l i hi
      · rw [hgrown, NameMap.regionOf_set] at hi
        split at hi
        · next htarget =>
          subst htarget
          rcases PointSet.mem_union.1 hi with hold | hneeded
          · exact hstate _ i hold
          · exact ⟨c, hc, rfl, (PointSet.mem_single.1 hneeded).symm⟩
        · exact hstate l i hi
    · -- at the start there are no points
      intro l i hi
      obtain ⟨hkeys, -, -, hregions⟩ := start_eq_ok hfirst
      have hl : l ∈ problem.constraints.lifetimes := hkeys ▸ NameMap.mem_keys_of_regionOf hi
      have hregion := hregions l hl
      rw [initialRegion_of_free (hfree l)] at hregion
      rw [← Except.ok.inj hregion] at hi
      exact absurd hi (PointSet.not_mem_empty i)
  · rintro ⟨c, hc, rfl, rfl⟩
    obtain ⟨hprogress, -⟩ := progress_runLive hbuilt (progress_start hfirst) hsecond
    rcases hprogress.settled _ (ConstraintSet.mem_toList_live.2 hc) with hpending | hsettled
    · obtain ⟨other, -, heq⟩ := List.mem_map.1 hpending
      cases heq
    · exact hsettled.free (hfree _) c.index (PointSet.mem_single.2 rfl)

/-- If the points at which lifetimes are live last for uses, so do the regions that solving ends
with. -/
theorem sustained_of_solve (hbuilt : problem.constraints.Built)
    (hfree : ∀ l, problem.isFixed l = false)
    (hlive : ∀ c ∈ problem.constraints.live, ∀ points : PointSet,
      (∀ c' ∈ problem.constraints.live, c'.lifetime = c.lifetime → c'.index ∈ points) →
        ∃ j, problem.constraints.graph.ReachedWithin points c.index j ∧ Use j c.lifetime)
    {solution : Solution} (h : problem.solve = .ok solution) :
    problem.constraints.Sustained Use solution.regions.regionOf := by
  obtain ⟨-, first, second, final, hfirst, hsecond, hfinal, hregions, -⟩ := solve_eq_ok h
  have hpoints := fun {l i} => regionOf_runLive hbuilt hfree hfirst hsecond (l := l) (i := i)
  have hwork : second.work = problem.constraints.outlives := by
    rw [(progress_runLive hbuilt (progress_start hfirst) hsecond).2, (start_eq_ok hfirst).2.2.1]
  rw [hregions]
  refine run_keeps_applied
    (Q := fun regions _ => problem.constraints.Sustained Use regions.regionOf) ?_
    (fun c hc => hwork ▸ hc) hfinal ?_
  · intro state next c grew hc hgrow hstate
    exact sustained_of_grow hc hgrow hstate
  · intro l i hi
    obtain ⟨c, hc, rfl, rfl⟩ := hpoints.1 hi
    obtain ⟨j, hreached, huse⟩ := hlive c hc _ fun c' hc' hsame => hpoints.2 ⟨c', hc', hsame, rfl⟩
    exact ⟨j, c.lifetime, hreached, .refl, huse⟩

end Problem

/-! ### Conflicts -/

namespace Detector

variable {detector : Detector} {loan : Loan} {active : PointSet} {conflict : Conflict}

/-- An element needs a lifetime that a loan flows into. -/
def UsesLoan (detector : Detector) (loan : Loan) (i : Nat) : Prop :=
  ∃ element, detector.graph.elementAt? i = some element ∧
    ∃ l ∈ detector.constraints.flowsTo loan.lifetime, detector.body.Needs element l

/-- A path from the point of a conflict, on which the loan stays active, leads to a use of the
loan. -/
def UsedFrom (detector : Detector) (conflict : Conflict) (use : Point) : Prop :=
  ∃ (active : PointSet) (i k : Nat), (∀ j, j ∈ active ↔ detector.ActiveAt conflict.loan j) ∧
    detector.graph.index? conflict.point = some i ∧ detector.graph.index? use = some k ∧
    detector.graph.ReachedWithin active i k ∧ detector.UsesLoan conflict.loan k

/-- Where a loan is active, what can be reached within its region can be reached while it is
active. -/
theorem reachedWithin_active (hactive : detector.active loan = .ok active) {i j : Nat}
    (hi : i ∈ active)
    (h : detector.graph.ReachedWithin (detector.regions.regionOf loan.lifetime) i j) :
    detector.graph.ReachedWithin active i j := by
  refine h.of_closed (fun a ha b hb hregion => ?_) hi
  obtain ⟨start, region, hstart, hget, hwalk⟩ := (mem_active hactive).1 ha
  rw [NameMap.regionOf_of_get? hget] at hregion
  exact (mem_active hactive).2 ⟨start, region, hstart, hget, hwalk.tail ⟨hb, hregion⟩⟩

/-- Where a loan is active, its region has the point. -/
theorem mem_regionOf_active (hactive : detector.active loan = .ok active) {i : Nat}
    (hi : i ∈ active) : i ∈ detector.regions.regionOf loan.lifetime := by
  obtain ⟨start, region, -, hget, hwalk⟩ := (mem_active hactive).1 hi
  rw [NameMap.regionOf_of_get? hget]
  cases hwalk with
  | single hstep => exact hstep.2
  | tail _ hstep => exact hstep.2

/-- If regions last for uses, every conflict is followed by a use. -/
theorem Found.usedFrom (hgraph : detector.constraints.graph = detector.graph)
    (hsustained : detector.constraints.Sustained (fun j l => ∃ element,
      detector.graph.elementAt? j = some element ∧ detector.body.Needs element l)
      detector.regions.regionOf)
    (hactive : detector.active loan = .ok active) (h : detector.Found loan active conflict) :
    ∃ use, conflict.use = some use ∧ detector.UsedFrom conflict use := by
  obtain ⟨rfl, ⟨i, hindex, hi⟩, hnearest⟩ := h.nearestUse
  obtain ⟨j, l, hreached, hflows, element, helement, hneeds⟩ :=
    hsustained _ i (mem_regionOf_active hactive hi)
  rw [hgraph] at hreached
  have hused : usedAt detector.body (detector.constraints.flowsTo conflict.loan.lifetime) j =
      .ok true :=
    usedAt_eq_true.2 ⟨element, helement, l, ConstraintSet.mem_flowsTo.2 hflows, hneeds⟩
  obtain ⟨use, k, huse, hk, hway, hkused⟩ :=
    nearestUse_needs hindex hi hnearest (reachedWithin_active hactive hi hreached) hused
  exact ⟨use, huse, active, i, k, fun j => mem_active hactive, hindex, hk, hway,
    usedAt_eq_true.1 hkused⟩

end Detector

namespace Body

variable {body : Body} {settings : Settings} {report : Report}

/-- Without placeholders, the regions of an analysis last for uses, also if solving was stopped. -/
theorem Analyzed.sustained {liveness : Liveness} {set : ConstraintSet} {solution : Solution}
    (h : body.Analyzed settings report liveness set solution)
    (hfree : ∀ lifetime ∈ body.placeholders, lifetime.isPlaceholder = false) :
    set.Sustained (fun j l => ∃ element, body.graph.elementAt? j = some element ∧
      body.Needs element l) report.regions.regionOf := by
  rw [h.regions_eq]
  refine Problem.sustained_of_solve h.built (isFixed_eq_false (free_of_placeholders hfree) _ _)
    ?_ h.solved
  intro c hc points hpoints
  have hmem := fun {c : LiveAt} => ConstraintSet.mem_live_ofBody h.body_eq h.generated (c := c)
  obtain ⟨hindex, -, names, hnames, hl⟩ := hmem.1 hc
  have hall : ∀ j names, liveness.lifetimesAt j = .ok names → c.lifetime ∈ names →
      j < body.graph.size → j ∈ points := by
    intro j names hnames hl hj
    obtain ⟨point, hpoint⟩ := Graph.exists_point hj
    exact hpoints ⟨c.lifetime, point, j, .liveness⟩ (hmem.2 ⟨hpoint, rfl, names, hnames, hl⟩) rfl
  obtain ⟨limit, hran⟩ := Liveness.exists_ran h.live
  obtain ⟨j, element, hreached, helement, hneeds⟩ :=
    hran.exists_needs h.generated hindex hnames hl hall
  refine ⟨j, ?_, element, helement, hneeds⟩
  rw [h.graph_eq]
  exact hreached

/-- **No conflict is reported for a loan that is never used again.** In a body without placeholders,
every conflict that an analysis reports names a use, whether solving has converged or not: from the
point of the conflict a path, on which the loan stays active, leads to an element that reads a local
whose type has a lifetime into which the loan flows, or drops a local whose destructor may touch
one. -/
theorem conflicts_have_uses (h : body.analyze settings = .ok report)
    (hfree : ∀ lifetime ∈ body.placeholders, lifetime.isPlaceholder = false) :
    ∃ liveness constraints,
      Liveness.run body settings.order settings.maxIterations = .ok liveness ∧
      ConstraintSet.ofBody body liveness = .ok constraints ∧
      ∀ conflict ∈ report.conflicts, ∃ facts use, body.facts = .ok facts ∧
        conflict.use = some use ∧
        ({ body, regions := report.regions, facts, constraints } : Detector).UsedFrom
          conflict use := by
  obtain ⟨liveness, set, solution, hrun⟩ := analyze_eq_ok h
  refine ⟨liveness, set, hrun.live, hrun.generated, fun conflict hconflict => ?_⟩
  cases hdetect : settings.detectConflicts with
  | false =>
    rw [conflicts_of_analyze h hdetect] at hconflict
    cases hconflict
  | true =>
    have hchecked := hrun.checked hdetect
    rw [← hrun.regions_eq] at hchecked
    obtain ⟨facts, hfacts, hconflicts⟩ := exists_of_bind_eq_ok hchecked
    obtain ⟨loan, -, found, hfound, hmem⟩ := Detector.exists_of_mem_detect hconflicts hconflict
    obtain ⟨active, hactive, -⟩ := exists_of_bind_eq_ok hfound
    obtain ⟨use, huse, hused⟩ := ((Detector.mem_conflictsOf hactive hfound).1 hmem).usedFrom
      hrun.graph_eq (hrun.sustained hfree) hactive
    exact ⟨facts, use, hfacts, huse, hused⟩

end Body

/-! ### A conflict when solving is stopped -/

namespace Sample

/-- Solving is stopped after one round. -/
def oneRound : Settings :=
  { solve := { maxRounds := some (.count 1), raiseAtLimit := false } }

/-- What the stopped run solves. -/
def stopped : Problem :=
  { constraints := bodyConstraints, declared := body.declared, options := oneRound.solve }

/-- Where the constraints on points lead. -/
def liveEnd : Problem.State where
  regions := ⟨[("l", ⟨446⟩), ("m", ⟨24⟩), ("r", ⟨0⟩)]⟩
  work := bodyConstraints.outlives
  applications := 9

/-- Where the one round leads: the region of the loan has grown. -/
def roundEnd : Problem.State where
  regions
  work := [⟨"l", "m", ⟨"B", 1⟩, 3, .assignment⟩]
  rounds := 1
  applications := 10

/-- The constraints on points lead there. -/
theorem runLive_stopped : (stopped.start {} >>= stopped.runLive) = .ok liveEnd := by cbv

/-- The one round leads there. -/
theorem advance_stopped : stopped.advance liveEnd ⟨"r", "l", ⟨"A", 1⟩, 1, .assignment⟩
    [⟨"l", "m", ⟨"B", 1⟩, 3, .assignment⟩] = .ok roundEnd := by cbv

/-- There the limit stops the run, and it has not converged. -/
theorem solve_stopped : stopped.solve =
    .ok { regions, violations := [], rounds := 1, applications := 10, converged := false
          history := [] } := by
  obtain ⟨first, hfirst, hlive⟩ := exists_of_bind_eq_ok runLive_stopped
  have hrun : stopped.run liveEnd = .ok roundEnd := by
    rw [Problem.run_of_advance rfl rfl advance_stopped, Problem.run_of_limit rfl rfl]
  rw [Problem.solve_of_steps (by decide) hfirst hlive hrun]
  rfl

/-- With these regions the one conflict is in the loop. -/
theorem conflictPoints :
    (body.conflicts bodyConstraints regions).map (List.map Conflict.point) =
      .ok [⟨"B", 1⟩] := by
  cbv

end Sample

/-- In the sample body a conflict is found although solving was stopped, and it names a use. -/
theorem Body.stopped_conflict_has_use : ∃ report, Sample.body.analyze Sample.oneRound = .ok report ∧
    report.converged = false ∧ ∃ conflict ∈ report.conflicts, conflict.point = ⟨"B", 1⟩ ∧
      ∃ use, conflict.use = some use := by
  obtain ⟨conflicts, hconflicts, hpoints⟩ := exists_of_map_eq_ok Sample.conflictPoints
  obtain ⟨report, hreport, -, -, hconverged⟩ := @exists_analyze Sample.body Sample.oneRound _ _ _ _
    Sample.run_body Sample.ofBody_liveness Sample.solve_stopped hconflicts
  refine ⟨report, hreport, hconverged, ?_⟩
  obtain ⟨liveness, set, solution, hrun⟩ := analyze_eq_ok hreport
  cases Sample.run_body.symm.trans hrun.live
  cases Sample.ofBody_liveness.symm.trans hrun.generated
  cases Sample.solve_stopped.symm.trans hrun.solved
  cases hconflicts.symm.trans (hrun.checked rfl)
  obtain ⟨conflict, hconflict, hpoint⟩ := List.mem_map.1 (hpoints ▸ List.mem_cons_self)
  obtain ⟨liveness, set, -, -, huses⟩ := conflicts_have_uses hreport (by decide)
  obtain ⟨facts, use, -, huse, -⟩ := huses conflict hconflict
  exact ⟨conflict, hconflict, hpoint, use, huse⟩

end RegionInference
