import RegionInference.Proofs.Analysis
import RegionInference.Proofs.Demands
import RegionInference.Proofs.KnownRounds
import RegionInference.Proofs.Outlines
import RegionInference.Proofs.Violations

/-!
# Permissive drops

A destructor that leaves data of a lifetime alone does not keep the lifetime alive. Letting
destructors leave more alone takes constraints on points away and changes nothing else, so regions
become smaller, and with them the places where a loan is active and what is held against fixed
regions (`Body.permissive_drops_report_less`).

Conflicts are compared without their uses: with fewer drops in the way, the nearest use may be
another one, or there may be none. Where a loan is active in the more permissive analysis it is
active in the other one, so of the actions at such a point both find the same to break the loan, and
report the same of them.
-/

namespace RegionInference

/-! ### Fewer constraints -/

/-- A set has no other constraints than another one, on the same lifetimes. -/
structure ConstraintSet.Weaker (weak strong : ConstraintSet) : Prop where
  /-- The graphs are the same. -/
  graph : weak.graph = strong.graph
  /-- The lifetimes are the same. -/
  lifetimes : weak.lifetimes = strong.lifetimes
  /-- Every constraint on a point is one of the other set. -/
  live : ∀ c ∈ weak.live, c ∈ strong.live
  /-- The constraints between regions are the same. -/
  outlives : ∀ c, c ∈ weak.outlives ↔ c ∈ strong.outlives

/-- A weaker set is a part of the stronger one. -/
theorem ConstraintSet.Weaker.part {weak strong : ConstraintSet} (h : weak.Weaker strong) :
    weak.Part strong where
  graph := h.graph
  lifetimes _ hl := h.lifetimes ▸ hl
  live c hc := ⟨c, h.live c hc, rfl, rfl⟩
  outlives c hc := ⟨c, (h.outlives c).1 hc, rfl, rfl, rfl⟩

/-- Its constraints are constraints of the stronger one. -/
theorem ConstraintSet.Weaker.mem_toList {weak strong : ConstraintSet} (h : weak.Weaker strong)
    {c : Constraint} (hc : c ∈ weak.toList) : c ∈ strong.toList := by
  cases c with
  | live c => exact mem_toList_live.2 (h.live c (mem_toList_live.1 hc))
  | outlives c => exact mem_toList_outlives.2 ((h.outlives c).1 (mem_toList_outlives.1 hc))

namespace Problem

variable {weak strong : Problem} {initial regions regions' : NameMap PointSet}
  {violations violations' : List Violation}

/-- What is recorded for a constraint is in a record. -/
theorem exists_of_mem_recorded {c : Constraint} {i : Nat} (h : i ∈ recorded violations c) :
    ∃ violation ∈ violations, violation.constraint = c := by
  unfold recorded at h
  cases hfind : violations.find? (·.constraint = c) with
  | none =>
    rw [hfind] at h
    exact absurd h (PointSet.not_mem_empty i)
  | some violation =>
    exact ⟨violation, List.mem_of_find?_eq_some hfind, by simpa using List.find?_some hfind⟩

/-- With fewer constraints the regions are smaller. -/
theorem Progress.regionOf_subset_of_weaker
    (h : Progress strong initial [] regions violations) (hbuilt : strong.constraints.Built)
    (h' : Progress weak initial [] regions' violations')
    (hweaker : weak.constraints.Weaker strong.constraints)
    (hdeclared : weak.declared = strong.declared)
    {l : String} (hl : l ∈ weak.constraints.lifetimes) :
    ∀ i ∈ regions'.regionOf l, i ∈ regions.regionOf l :=
  h'.least _ ((h.meets hbuilt).of_part hweaker.part fun l => by rw [hdeclared]) l hl

/-- With fewer constraints less is recorded against fixed regions. -/
theorem Progress.recorded_subset_of_weaker
    (h : Progress strong initial [] regions violations) (hbuilt : strong.constraints.Built)
    (h' : Progress weak initial [] regions' violations')
    (hbuilt' : weak.constraints.Built)
    (hweaker : weak.constraints.Weaker strong.constraints)
    (hdeclared : weak.declared = strong.declared)
    {c : Constraint} (hc : c ∈ weak.constraints.toList) (hfixed : weak.isFixed c.target = true) :
    ∀ i ∈ Problem.recorded violations' c, i ∈ Problem.recorded violations c := by
  intro i hi
  have hfixed' : strong.isFixed c.target = true := by
    rwa [isFixed, ← hdeclared]
  obtain ⟨hneeded, hout⟩ := (h'.mem_recorded hc hfixed).1 hi
  refine (h.mem_recorded (hweaker.mem_toList hc) hfixed').2 ⟨?_, ?_⟩
  · -- the region that is read is smaller
    rw [← hweaker.graph]
    refine Constraint.needed_mono (fun l hl => ?_) i hneeded
    exact h.regionOf_subset_of_weaker hbuilt h' hweaker hdeclared (hbuilt'.source_mem hc hl)
  · -- the fixed region is the same
    obtain ⟨lifetime, hget, hkind⟩ := isFixed_eq_true.1 hfixed
    have htarget := hbuilt'.target_mem hc
    rw [h'.mem_placeholder htarget hget hkind, hweaker.graph] at hout
    rw [hweaker.lifetimes] at htarget
    rwa [h.mem_placeholder htarget (hdeclared ▸ hget) hkind]

end Problem

/-! ### Bodies with more permissive drops -/

namespace Body

variable {body other : Body}

/-- The second body differs from the first only in what its destructors leave alone, and they leave
alone all that those of the first do. -/
structure MorePermissive (body other : Body) : Prop where
  /-- Nothing else is different. -/
  parts_eq : other.toBodyParts = { body.toBodyParts with mayDangle := other.mayDangle }
  /-- What may dangle in the first may dangle in the second. -/
  dangles : ∀ v l, body.mayDangle v l = true → other.mayDangle v l = true

namespace MorePermissive

/-- The bodies have one graph. -/
theorem graph_eq (h : body.MorePermissive other) : other.graph = body.graph := by
  rw [h.parts_eq]

/-- They have the same locals. -/
theorem vars_eq (h : body.MorePermissive other) : other.vars = body.vars := by
  rw [h.parts_eq]

/-- They have the same lifetimes. -/
theorem lifetimes_eq (h : body.MorePermissive other) : other.lifetimes = body.lifetimes := by
  rw [h.parts_eq]
  rfl

/-- They declare the same. -/
theorem declared_eq (h : body.MorePermissive other) : other.declared = body.declared := by
  unfold declared
  rw [h.lifetimes_eq]

/-- The demands are the same. -/
theorem demands_eq (h : body.MorePermissive other) : Demand.ofBody other = Demand.ofBody body := by
  have hobligations : other.obligations = body.obligations := by rw [h.parts_eq]
  unfold Demand.ofBody
  rw [h.graph_eq, hobligations, Demand.ofElement_congr h.vars_eq]

/-- The facts are the same. -/
theorem facts_eq (h : body.MorePermissive other) : other.facts = body.facts := by
  have hloans : other.loans = body.loans := by rw [h.parts_eq]
  have haccesses : other.accesses = body.accesses := by rw [h.parts_eq]
  have hexits : other.exits = body.exits := by rw [h.parts_eq]
  unfold facts
  rw [h.graph_eq, hloans, haccesses, hexits, LoanFacts.accessesAt_congr h.vars_eq]

/-- Destructors may touch less. -/
theorem nonDangling_subset (h : body.MorePermissive other) {v l : String} {lifetimes : List String}
    (hother : other.nonDangling v = .ok lifetimes) (hl : l ∈ lifetimes) :
    ∃ lifetimes', body.nonDangling v = .ok lifetimes' ∧ l ∈ lifetimes' := by
  obtain ⟨found, hfound, rfl⟩ := exists_of_map_eq_ok hother
  rw [var_congr h.vars_eq] at hfound
  refine ⟨_, by rw [nonDangling, hfound]; rfl, ?_⟩
  obtain ⟨hmem, htouched⟩ := List.mem_filter.1 hl
  refine List.mem_filter.2 ⟨hmem, ?_⟩
  rw [Bool.not_eq_true', ← Bool.not_eq_true] at htouched ⊢
  exact fun hdangles => htouched (h.dangles found l hdangles)

/-- The locals that are live are the same. -/
theorem factAt_eq (h : body.MorePermissive other) {order : Order} {limit limit' : Nat}
    {liveness liveness' : Liveness} (hran : Liveness.Ran body order limit liveness)
    (hran' : Liveness.Ran other order limit' liveness') {i : Nat} (hi : i < body.graph.size) :
    liveness'.factAt i = liveness.factAt i := by
  have hpart : ∀ aspect : Liveness.Aspect,
      aspect.part (liveness'.factAt i) = aspect.part (liveness.factAt i) := by
    intro aspect
    refine NameSet.ext fun v => ?_
    rw [hran'.mem_factAt_iff aspect (h.graph_eq ▸ hi), hran.mem_factAt_iff aspect hi, h.graph_eq]
  exact Prod.ext (hpart .read) (hpart .drop)

/-- What is live in the second body is live in the first. -/
theorem lifetimesAt_subset (h : body.MorePermissive other) {order : Order} {limit limit' : Nat}
    {liveness liveness' : Liveness} (hran : Liveness.Ran body order limit liveness)
    (hran' : Liveness.Ran other order limit' liveness') {i : Nat} (hi : i < body.graph.size)
    {names names' : NameSet} (hnames : liveness.lifetimesAt i = .ok names)
    (hnames' : liveness'.lifetimesAt i = .ok names') {l : String} (hl : l ∈ names') :
    l ∈ names := by
  rw [Liveness.mem_lifetimesAt hnames', hran'.body_eq, h.factAt_eq hran hran' hi] at hl
  rw [Liveness.mem_lifetimesAt hnames, hran.body_eq]
  rcases hl with ⟨v, hv, found, hfound, hmem⟩ | ⟨v, hv, lifetimes, hneeded, hmem⟩
  · rw [var_congr h.vars_eq] at hfound
    exact .inl ⟨v, hv, found, hfound, hmem⟩
  · exact .inr ⟨v, hv, h.nonDangling_subset hneeded hmem⟩

variable {settings : Settings} {report report' : Report} {liveness liveness' : Liveness}
  {set set' : ConstraintSet} {solution solution' : Solution}

/-- The second body has fewer constraints. -/
theorem weaker (h : body.MorePermissive other)
    (hfirst : body.Analyzed settings report liveness set solution)
    (hsecond : other.Analyzed settings report' liveness' set' solution') : set'.Weaker set := by
  obtain ⟨hbuilt, hgraph, hlifetimes⟩ :=
    ConstraintSet.ofBody_built hfirst.body_eq hfirst.generated
  obtain ⟨hbuilt', hgraph', hlifetimes'⟩ :=
    ConstraintSet.ofBody_built hsecond.body_eq hsecond.generated
  obtain ⟨-, demands, -, -, hdemands, -⟩ := ConstraintSet.ofBody_eq_ok hfirst.generated
  have hdemands' : Demand.ofBody other = .ok demands := by rw [h.demands_eq, hdemands]
  refine ⟨?_, ?_, fun c hc => ?_, fun c => ?_⟩
  · rw [hgraph, hgraph', h.graph_eq]
  · rw [hlifetimes, hlifetimes', h.lifetimes_eq]
  · obtain ⟨hindex, horigin, names', hnames', hl⟩ :=
      (ConstraintSet.mem_live_ofBody hsecond.body_eq hsecond.generated).1 hc
    rw [h.graph_eq] at hindex
    obtain ⟨names, hnames⟩ := ConstraintSet.exists_lifetimesAt hfirst.generated hindex
    obtain ⟨limit, hran⟩ := Liveness.exists_ran hfirst.live
    obtain ⟨limit', hran'⟩ := Liveness.exists_ran hsecond.live
    exact (ConstraintSet.mem_live_ofBody hfirst.body_eq hfirst.generated).2 ⟨hindex, horigin, names,
      hnames, h.lifetimesAt_subset hran hran' (Graph.lt_size_of_index? hindex) hnames hnames' hl⟩
  · rw [ConstraintSet.mem_outlives_ofBody hfirst.generated hdemands,
      ConstraintSet.mem_outlives_ofBody hsecond.generated hdemands', h.graph_eq]

end MorePermissive

end Body

/-! ### Conflicts under smaller regions -/

namespace Detector

variable {detector other : Detector} {loan : Loan}

/-- A conflict that is reported is one of a broken loan. -/
theorem breaks_of_mem_detect {conflicts : List Conflict} (h : detector.detect = .ok conflicts)
    {conflict : Conflict} (hmem : conflict ∈ conflicts) :
    detector.Breaks conflict.loan conflict.point conflict.cause := by
  obtain ⟨loan, -, found, hfound, hconflict⟩ := exists_of_mem_detect h hmem
  obtain ⟨active, hactive, -⟩ := exists_of_bind_eq_ok hfound
  obtain ⟨rfl, hbreaks⟩ := ((mem_conflictsOf hactive hfound).1 hconflict).breaks hactive
  exact hbreaks

/-- A loan is broken where it is active. -/
theorem Breaks.exists_activeAt {point : Point} {cause : Cause}
    (h : detector.Breaks loan point cause) :
    ∃ i, detector.graph.index? point = some i ∧ detector.ActiveAt loan i := by
  cases h with
  | invalidated _ hindex hi => exact ⟨_, hindex, hi⟩
  | useAfterScope _ _ _ hindex hi => exact ⟨_, hindex, hi⟩

/-- A loan that is broken by the end of storage goes on being active. -/
theorem Breaks.exists_next {point : Point} (h : detector.Breaks loan point .useAfterScope) :
    ∃ i, detector.graph.index? point = some i ∧
      ∃ next ∈ detector.graph.succ i, detector.ActiveAt loan next := by
  cases h with
  | useAfterScope _ _ _ hindex _ hnext hnextActive => exact ⟨_, hindex, _, hnext, hnextActive⟩

/-- Where a loan is active depends on its borrow only. -/
theorem ActiveAt.of_sameBorrow {loan' : Loan} (hsame : loan.sameBorrow loan' = true) {i : Nat}
    (h : detector.ActiveAt loan i) : detector.ActiveAt loan' i := by
  simp only [Loan.sameBorrow, Bool.and_eq_true, beq_iff_eq] at hsame
  obtain ⟨⟨hpoint, hlifetime⟩, -⟩ := hsame
  obtain ⟨start, region, hstart, hregion, hwalk⟩ := h
  exact ⟨start, region, hpoint ▸ hstart, hlifetime ▸ hregion, hwalk⟩

/-- The second detector goes by the same facts as the first, with regions that are no larger and the
same flow between lifetimes. -/
structure Narrower (detector other : Detector) : Prop where
  /-- The graphs are the same. -/
  graph : other.graph = detector.graph
  /-- The facts are the same. -/
  facts : other.facts = detector.facts
  /-- Each region is part of that of the first. -/
  regions : ∀ l region', other.regions.get? l = some region' →
    ∃ region, detector.regions.get? l = some region ∧ ∀ i ∈ region', i ∈ region
  /-- The lifetimes flow into each other in the same way. -/
  flows : ∀ l l', other.constraints.FlowsInto l l' ↔ detector.constraints.FlowsInto l l'

namespace Narrower

/-- Where a loan is active in the narrower regions, it is active in the wider ones. -/
theorem activeAt (h : detector.Narrower other) {i : Nat} (hactive : other.ActiveAt loan i) :
    detector.ActiveAt loan i := by
  obtain ⟨start, region', hstart, hregion', hwalk⟩ := hactive
  obtain ⟨region, hregion, hsubset⟩ := h.regions _ _ hregion'
  refine ⟨start, region, h.graph ▸ hstart, hregion, ?_⟩
  have hsteps : ∀ i j, other.graph.StepInto region' i j → detector.graph.StepInto region i j := by
    intro i j hstep
    exact ⟨h.graph ▸ hstep.1, hsubset j hstep.2⟩
  exact Relation.TransGen.mono hsteps _ _ hwalk

/-- The loans forbid the same accesses. -/
theorem forbids_iff (h : detector.Narrower other) {access : Access} :
    other.Forbids loan access ↔ detector.Forbids loan access := by
  unfold Forbids
  cases loan.kind with
  | shared => rfl
  | mutable => simp only [h.flows]

/-- At an action that breaks a loan for the narrower detector, both find the same. -/
theorem agreeAt (h : detector.Narrower other) {conflict : Conflict}
    (hbreaks : other.Breaks conflict.loan conflict.point conflict.cause) :
    other.AgreeAt detector conflict := by
  obtain ⟨i, hindex, hactive⟩ := hbreaks.exists_activeAt
  refine ⟨by rw [h.facts], by rw [h.facts], by rw [h.facts], ?_, ?_⟩
  · intro hcause loan hloan access hpoint
    unfold Hits
    rw [h.forbids_iff, h.graph]
    refine and_congr_left fun _ => ⟨?_, ?_⟩
    · rintro ⟨j, hj, hat⟩
      exact ⟨j, hj, h.activeAt hat⟩
    · rintro -
      rw [hpoint, ← h.graph]
      exact ⟨i, hindex, hactive.of_sameBorrow hloan⟩
  · intro hcause loan hloan exit hpoint
    unfold Ends
    rw [h.graph]
    refine and_congr_right fun _ => and_congr_right fun _ => ⟨?_, ?_⟩
    · rintro ⟨j, hj, hat, next, hnext, hnextActive⟩
      exact ⟨j, hj, h.activeAt hat, next, hnext, h.activeAt hnextActive⟩
    · rintro -
      rw [hcause] at hbreaks
      obtain ⟨j, hj, next, hnext, hnextActive⟩ := hbreaks.exists_next
      obtain rfl : i = j := Option.some.inj (hindex.symm.trans hj)
      rw [hpoint, ← h.graph]
      exact ⟨i, hindex, hactive.of_sameBorrow hloan, next, hnext,
        hnextActive.of_sameBorrow hloan⟩

/-- What the narrower detector reports, the other one reports, perhaps with another use. -/
theorem exists_conflict (h : detector.Narrower other) {conflicts conflicts' : List Conflict}
    (hdetect : detector.detect = .ok conflicts) (hdetect' : other.detect = .ok conflicts')
    {conflict' : Conflict} (hmem : conflict' ∈ conflicts') :
    ∃ conflict ∈ conflicts, conflict = { conflict' with use := conflict.use } := by
  have hagree := h.agreeAt (breaks_of_mem_detect hdetect' hmem)
  obtain ⟨conflict, hconflict, houtline⟩ := hagree.exists_mem hdetect' hdetect hmem
  exact ⟨conflict, hconflict, Conflict.outline_eq_outline.1 houtline.symm⟩

end Narrower

end Detector

/-! ### The reports -/

/-- The constraints between regions say how lifetimes flow into each other. -/
theorem ConstraintSet.flowsInto_congr {set set' : ConstraintSet}
    (h : ∀ c, c ∈ set'.outlives ↔ c ∈ set.outlives) (l l' : String) :
    set'.FlowsInto l l' ↔ set.FlowsInto l l' := by
  have hedge : set'.Edge = set.Edge := by
    funext a b
    simp only [Edge, h]
  unfold FlowsInto
  rw [hedge]

namespace Body

/-- The graph of a report is that of the body. -/
theorem graph_of_analyze {body : Body} {settings : Settings} {report : Report}
    (h : body.analyze settings = .ok report) : report.graph = body.graph := by
  unfold analyze at h
  obtain ⟨liveness, -, h⟩ := exists_of_bind_eq_ok h
  obtain ⟨set, -, h⟩ := exists_of_bind_eq_ok h
  obtain ⟨solution, -, h⟩ := exists_of_bind_eq_ok h
  split at h
  · obtain ⟨conflicts, -, h⟩ := exists_of_bind_eq_ok h
    cases h
    rfl
  · cases h
    rfl

/-- **Permissive drops report less.** Let two bodies differ only in what their destructors leave
alone, and let the second leave alone all that the first does. If the analyses of both converge,
with the same settings, then every region of the second is part of the region of the same lifetime
in the first. Every conflict of the second is one of the first, but for the use that it names. Every
violation of the second is one of the first, for the same constraint and with more points. -/
theorem permissive_drops_report_less (body other : Body) (settings : Settings)
    (report report' : Report) (h : body.MorePermissive other)
    (hreport : body.analyze settings = .ok report)
    (hreport' : other.analyze settings = .ok report')
    (hconverged : report.converged = true) (hconverged' : report'.converged = true) :
    (report'.graph = report.graph ∧ report'.regions.keys = report.regions.keys ∧
      ∀ l region', report'.regions.get? l = some region' →
        ∃ region, report.regions.get? l = some region ∧ ∀ i ∈ region', i ∈ region) ∧
    (∀ conflict' ∈ report'.conflicts, ∃ conflict ∈ report.conflicts,
      conflict = { conflict' with use := conflict.use }) ∧
    ∀ violation' ∈ report'.violations, ∃ violation ∈ report.violations,
      violation.constraint = violation'.constraint ∧
        ∀ i ∈ violation'.extra, i ∈ violation.extra := by
  obtain ⟨liveness, set, solution, hfirst⟩ := analyze_eq_ok hreport
  obtain ⟨liveness', set', solution', hsecond⟩ := analyze_eq_ok hreport'
  have hweaker := h.weaker hfirst hsecond
  obtain ⟨work, hwork, hprogress⟩ := Problem.progress_of_solve hfirst.built hfirst.solved
  obtain ⟨work', hwork', hprogress'⟩ := Problem.progress_of_solve hsecond.built hsecond.solved
  rw [hwork (hfirst.converged_eq ▸ hconverged)] at hprogress
  rw [hwork' (hsecond.converged_eq ▸ hconverged')] at hprogress'
  have hregions : ∀ l region', report'.regions.get? l = some region' →
      ∃ region, report.regions.get? l = some region ∧ ∀ i ∈ region', i ∈ region := by
    rw [hfirst.regions_eq, hsecond.regions_eq]
    intro l region' hregion'
    have hl : l ∈ set'.lifetimes := by
      rw [← hprogress'.keys]
      exact NameMap.mem_keys_of_get? hregion'
    have hkey : l ∈ solution.regions.keys := by
      rw [hprogress.keys]
      exact hweaker.lifetimes ▸ hl
    obtain ⟨region, hregion⟩ := NameMap.exists_get?_of_mem hkey
    have hsubset := hprogress.regionOf_subset_of_weaker hfirst.built hprogress' hweaker
      h.declared_eq hl
    rw [NameMap.regionOf_of_get? hregion, NameMap.regionOf_of_get? hregion'] at hsubset
    exact ⟨region, hregion, hsubset⟩
  refine ⟨⟨?_, ?_, hregions⟩, ?_, ?_⟩
  · rw [graph_of_analyze hreport, graph_of_analyze hreport', h.graph_eq]
  · rw [hfirst.regions_eq, hsecond.regions_eq, hprogress.keys, hprogress'.keys]
    exact hweaker.lifetimes
  · intro conflict' hconflict'
    cases hdetect : settings.detectConflicts with
    | false =>
      rw [conflicts_of_analyze hreport' hdetect] at hconflict'
      exact absurd hconflict' List.not_mem_nil
    | true =>
      obtain ⟨facts, hfacts, hconflicts⟩ := exists_of_bind_eq_ok (hfirst.checked hdetect)
      obtain ⟨facts', hfacts', hconflicts'⟩ := exists_of_bind_eq_ok (hsecond.checked hdetect)
      rw [h.facts_eq, hfacts] at hfacts'
      cases hfacts'
      have hnarrower : Detector.Narrower ⟨body, solution.regions, facts, set⟩
          ⟨other, solution'.regions, facts, set'⟩ := by
        rw [hfirst.regions_eq, hsecond.regions_eq] at hregions
        exact ⟨h.graph_eq, rfl, hregions, ConstraintSet.flowsInto_congr hweaker.outlives⟩
      have hagree := hnarrower.agreeAt (Detector.breaks_of_mem_detect hconflicts' hconflict')
      obtain ⟨conflict, hconflict, houtline⟩ :=
        hagree.exists_mem hconflicts' hconflicts hconflict'
      exact ⟨conflict, hconflict, Conflict.outline_eq_outline.1 houtline.symm⟩
  · rw [hfirst.violations_eq, hsecond.violations_eq]
    intro violation' hviolation'
    have hrecording := Problem.recording_of_solve hfirst.solved
    have hrecording' := Problem.recording_of_solve hsecond.solved
    have hlisted := List.mem_map_of_mem (f := Violation.constraint) hviolation'
    have hc := hrecording'.listed _ hlisted
    have hrecorded := hprogress.recorded_subset_of_weaker hfirst.built hprogress' hsecond.built
      hweaker h.declared_eq hc (hrecording'.fixed _ hlisted)
    rw [Problem.recorded_eq hrecording'.nodup hviolation'] at hrecorded
    -- something is recorded in the first analysis too, so there is a record
    obtain ⟨i, hi⟩ := hrecording'.some _ hlisted
    rw [Problem.recorded_eq hrecording'.nodup hviolation'] at hi
    obtain ⟨violation, hviolation, hsame⟩ := Problem.exists_of_mem_recorded (hrecorded i hi)
    refine ⟨violation, hviolation, hsame, fun j hj => ?_⟩
    rw [← Problem.recorded_eq hrecording.nodup hviolation, hsame]
    exact hrecorded j hj

end Body

/-! ### A drop that ends late -/

namespace Sample

/-- A reference to `x` is read once and dropped at the end. `x` is overwritten before the read and
before the drop. -/
def dropBlocks : List Block := [
  { name := "A"
    statements := [
      .assign ⟨"p", []⟩ (.borrow "r" false ⟨"x", []⟩),
      .assign ⟨"x", []⟩ (.const "1"),
      .use [.copy ⟨"p", [.deref]⟩],
      .assign ⟨"x", []⟩ (.const "2"),
      .drop "p"]
    terminator := .ret }]

/-- Destructors may touch all data. The placeholder `s` has to outlive the reference, but is fixed
at one point. -/
def touching : Body where
  name := "drops"
  graph := .build dropBlocks "A" (by decide) (by decide) (by decide)
  vars := [⟨"x", .scalar "i32"⟩, ⟨"p", .ref "l" false (.scalar "i32")⟩]
  placeholders := [{ name := "s", kind := .placeholder, fixed := some [⟨"A", 1⟩] }]
  obligations := [.outlives "s" "l" ⟨"A", 1⟩]
  mayDangle _ _ := false
  valid := by decide

/-- The same, but destructors leave all data alone. -/
def dangling : Body :=
  { touching with mayDangle := fun _ _ => true, valid := by decide }

/-- The loan of the sample. -/
def dropLoan : Loan :=
  ⟨"r", .shared, ⟨"x", []⟩, ⟨"A", 0⟩⟩

/-- What holds against the placeholder. -/
def dropConstraint : Constraint :=
  .outlives ⟨"s", "l", ⟨"A", 1⟩, 1, .obligation⟩

/-- What is found where the drop touches the reference: the write before the drop is a conflict. -/
theorem analyzeFor_touching : touching.analyzeFor 4 = .ok (
    { regions := ⟨[("s", ⟨2⟩), ("l", ⟨30⟩), ("r", ⟨30⟩)]⟩
      violations := [⟨dropConstraint, ⟨28⟩⟩]
      conflicts := [⟨dropLoan, ⟨"A", 1⟩, some .write, .invalidated, some ⟨"A", 2⟩⟩,
        ⟨dropLoan, ⟨"A", 3⟩, some .write, .invalidated, some ⟨"A", 4⟩⟩] }, true) := by
  cbv

/-- What is found where it does not: the regions end at the read. -/
theorem analyzeFor_dangling : dangling.analyzeFor 4 = .ok (
    { regions := ⟨[("s", ⟨2⟩), ("l", ⟨6⟩), ("r", ⟨6⟩)]⟩
      violations := [⟨dropConstraint, ⟨4⟩⟩]
      conflicts := [⟨dropLoan, ⟨"A", 1⟩, some .write, .invalidated, some ⟨"A", 2⟩⟩] }, true) := by
  cbv

/-- The second body is the more permissive one. -/
theorem dangling_morePermissive : touching.MorePermissive dangling :=
  ⟨rfl, fun _ _ hdangles => nomatch hdangles⟩

end Sample

/-- In the sample a drop that touches nothing lets the reference end at the read. The conflict
before the read stays, and so does what is held against the placeholder; the write before the drop
is no conflict any more. -/
theorem Body.dangling_drop_reports_less : ∃ report report',
    Sample.touching.analyze = .ok report ∧ Sample.dangling.analyze = .ok report' ∧
      (∀ l region', report'.regions.get? l = some region' →
        ∃ region, report.regions.get? l = some region ∧ ∀ i ∈ region', i ∈ region) ∧
      (∃ conflict ∈ report.conflicts, conflict.point = ⟨"A", 1⟩) ∧
      (∃ violation ∈ report.violations, violation.constraint = Sample.dropConstraint ∧
        2 ∈ violation.extra) ∧
      (∃ conflict ∈ report.conflicts, conflict.point = ⟨"A", 3⟩) ∧
      ∀ conflict ∈ report'.conflicts, conflict.point ≠ ⟨"A", 3⟩ := by
  obtain ⟨report, hreport, hconverged, -, -, hconflicts⟩ :=
    analyze_of_analyzeFor Sample.analyzeFor_touching
  obtain ⟨report', hreport', hconverged', -, hviolations', hconflicts'⟩ :=
    analyze_of_analyzeFor Sample.analyzeFor_dangling
  obtain ⟨⟨-, -, hregions⟩, hconflict, hviolation⟩ := permissive_drops_report_less _ _ _ _ _
    Sample.dangling_morePermissive hreport hreport' hconverged hconverged'
  rw [hconflicts'] at hconflict
  rw [hviolations'] at hviolation
  refine ⟨report, report', hreport, hreport', hregions, ?_, ?_, ?_, ?_⟩
  · obtain ⟨conflict, hmem, heq⟩ := hconflict _ List.mem_cons_self
    exact ⟨conflict, hmem, congrArg Conflict.point heq⟩
  · obtain ⟨violation, hmem, heq, hextra⟩ := hviolation _ List.mem_cons_self
    exact ⟨violation, hmem, heq, hextra 2 (by decide)⟩
  · rw [hconflicts]
    exact ⟨_, List.mem_cons_of_mem _ List.mem_cons_self, rfl⟩
  · rw [hconflicts']
    decide

end RegionInference
