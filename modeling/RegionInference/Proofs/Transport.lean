import RegionInference.Proofs.DropPermissiveness
import RegionInference.Proofs.Renumbering

/-!
# Solving and detection under another numbering

Two problems over graphs with the same blocks are the same problem, numbered differently, if they
have the same constraints but for the numbers of their points (`Problem.Renumbered`). A solution of
one is, read through the points, a solution of the other. So the least solutions have the same
points (`Problem.Renumbered.samePoints`), and what is recorded against fixed regions is the same
(`Problem.Renumbered.matched_violations`).

The same holds of conflicts (`Detector.Renumbered`): the loans, the actions and what breaks a loan
are said by points. The one thing that numbers decide is which of several uses at the same distance
is named, so matching conflicts name uses at the same distance (`Detector.Renumbered.sameUse`).
-/

namespace RegionInference

/-! ### Optional values -/

/-- What relates two optional values relates them by what it implies of the values. -/
theorem rel_imp {r s : α → β → Prop} {a : Option α} {b : Option β} (h : Option.Rel r a b)
    (hrs : ∀ x y, a = some x → b = some y → r x y → s x y) : Option.Rel s a b := by
  cases h with
  | some hr => exact .some (hrs _ _ rfl rfl hr)
  | none => exact .none

/-- Related optional values are related the other way round, if the values are. -/
theorem rel_swap {r : α → β → Prop} {s : β → α → Prop} {a : Option α} {b : Option β}
    (h : Option.Rel r a b) (hrs : ∀ x y, r x y → s y x) : Option.Rel s b a := by
  cases h with
  | some hr => exact .some (hrs _ _ hr)
  | none => exact .none

/-! ### Constraints without numbers -/

namespace Constraint

/-- A constraint without the number of its point. -/
def outline : Constraint → Constraint
  | .live c => .live { c with index := 0 }
  | .outlives c => .outlives { c with index := 0 }

variable {c c' : Constraint}

/-- The outline of a constraint tells its target. -/
theorem target_eq_of_outline (h : c'.outline = c.outline) : c'.target = c.target := by
  cases c <;> cases c' <;> simp_all [outline, target]

/-- It tells the lifetime whose region is read. -/
theorem source?_eq_of_outline (h : c'.outline = c.outline) : c'.source? = c.source? := by
  cases c <;> cases c' <;> simp_all [outline, source?]

/-- In a set, a constraint is told by its outline: the number is that of the point. -/
theorem eq_of_outline {set : ConstraintSet} (hbuilt : set.Built) (hc : c ∈ set.toList)
    (hc' : c' ∈ set.toList) (h : c'.outline = c.outline) : c' = c := by
  have hadmits := hbuilt.admits c hc
  have hadmits' := hbuilt.admits c' hc'
  cases c with
  | live c =>
    cases c' with
    | live c' =>
      obtain ⟨l, point, i, origin⟩ := c
      obtain ⟨l', point', i', origin'⟩ := c'
      simp only [outline, live.injEq, LiveAt.mk.injEq] at h
      obtain ⟨rfl, rfl, -, rfl⟩ := h
      obtain rfl : i' = i := Option.some.inj (hadmits'.2.symm.trans hadmits.2)
      rfl
    | outlives c' => cases h
  | outlives c =>
    cases c' with
    | live c' => cases h
    | outlives c' =>
      obtain ⟨longer, shorter, point, i, origin⟩ := c
      obtain ⟨longer', shorter', point', i', origin'⟩ := c'
      simp only [outline, outlives.injEq, Outlives.mk.injEq] at h
      obtain ⟨rfl, rfl, rfl, -, rfl⟩ := h
      obtain rfl : i' = i := Option.some.inj (hadmits'.2.2.symm.trans hadmits.2.2)
      rfl

variable {g g' : Graph} {R R' : String → PointSet} {i i' : Nat}

/-- Constraints with one outline require the same points, if the region that they read has the same
points. -/
theorem Requires.of_outline (hblocks : g.blocks.Perm g'.blocks) (houtline : c'.outline = c.outline)
    (hR : ∀ l, c.source? = some l → g.SamePoints g' (R l) (R' l)) (hi : g.SamePoint g' i i')
    (h : c.Requires g R i) : c'.Requires g' R' i' := by
  cases c with
  | live c =>
    cases c' with
    | live c' =>
      have hpoint : c'.point = c.point := by simp_all [outline]
      simp only [Requires] at h ⊢
      rwa [hpoint, ← hi.index?_iff]
    | outlives c' => cases houtline
  | outlives c =>
    cases c' with
    | live c' => cases houtline
    | outlives c' =>
      have hpoint : c'.point = c.point := by simp_all [outline]
      have hshorter : c'.shorter = c.shorter := by simp_all [outline]
      obtain ⟨q, hq, hreached⟩ := h
      obtain ⟨q', hsame, hq'⟩ := Graph.exists_samePoint_of_index? hblocks hq
      refine ⟨q', by rw [hpoint, hq'], ?_⟩
      rw [hshorter]
      exact hreached.of_samePoint hblocks (hR _ rfl) hsame hi

/-- Constraints that differ in their numbers only require the same points. -/
theorem requires_congr (hblocks : g.blocks.Perm g'.blocks) (houtline : c'.outline = c.outline)
    (hR : ∀ l, c.source? = some l → g.SamePoints g' (R l) (R' l)) (hi : g.SamePoint g' i i') :
    c.Requires g R i ↔ c'.Requires g' R' i' := by
  refine ⟨.of_outline hblocks houtline hR hi, .of_outline hblocks.symm houtline.symm ?_ hi.symm⟩
  intro l hl
  rw [source?_eq_of_outline houtline] at hl
  exact (hR l hl).symm

end Constraint

/-- A placeholder spans the same points in graphs with the same points. -/
theorem Lifetime.spans_congr {lifetime : Lifetime} {g g' : Graph} {i i' : Nat}
    (h : g.SamePoint g' i i') : lifetime.Spans g i ↔ lifetime.Spans g' i' := by
  unfold Spans
  split
  · exact ⟨fun _ => h.symm.lt_size, fun _ => h.lt_size⟩
  · simp only [h.index?_iff]

/-! ### Problems -/

namespace Problem

variable {problem other : Problem} {R : String → PointSet} {regions regions' : NameMap PointSet}
  {violations violations' : List Violation}

/-- An assignment meets a problem if regions have what is required of them. -/
theorem Meets.of_requires {initial : NameMap PointSet}
    (hplaceholder : ∀ l ∈ problem.constraints.lifetimes, ∀ lifetime,
      problem.declared.get? l = some lifetime → lifetime.isPlaceholder = true →
        ∀ i, i ∈ R l ↔ lifetime.Spans problem.constraints.graph i)
    (hstart : ∀ l ∈ problem.constraints.lifetimes, problem.isFixed l = false →
      ∀ i ∈ initial.regionOf l, i ∈ R l)
    (hrequired : ∀ c ∈ problem.constraints.toList, problem.isFixed c.target = false →
      ∀ i, c.Requires problem.constraints.graph R i → i ∈ R c.target) :
    problem.Meets initial R where
  placeholder := hplaceholder
  start := hstart
  live _ hc hfree i hi := hrequired _ (ConstraintSet.mem_toList_live.2 hc) hfree i hi
  outlives _ hc hfree i hi j hj :=
    hrequired _ (ConstraintSet.mem_toList_outlives.2 hc) hfree j
      ⟨i, hi, Graph.mem_reachWithin.1 hj⟩

/-- Two problems are the same but for the order of the blocks, which the numbers of the points
depend on, and the order of the lifetimes and constraints. -/
structure Renumbered (problem other : Problem) : Prop where
  /-- The blocks are the same. -/
  blocks : problem.constraints.graph.blocks.Perm other.constraints.graph.blocks
  /-- The lifetimes are the same. -/
  lifetimes : ∀ l, l ∈ problem.constraints.lifetimes ↔ l ∈ other.constraints.lifetimes
  /-- The constraints are the same but for their numbers. -/
  outlines : ∀ c, c ∈ problem.constraints.toList.map Constraint.outline ↔
    c ∈ other.constraints.toList.map Constraint.outline
  /-- What is declared is the same. -/
  declared : ∀ l, other.declared.get? l = problem.declared.get? l
  /-- The constraints of the first carry the numbers of their points. -/
  built : problem.constraints.Built
  /-- Those of the second do too. -/
  built' : other.constraints.Built

namespace Renumbered

/-- The problems can be taken the other way round. -/
theorem symm (h : problem.Renumbered other) : other.Renumbered problem where
  blocks := h.blocks.symm
  lifetimes l := (h.lifetimes l).symm
  outlines c := (h.outlines c).symm
  declared l := (h.declared l).symm
  built := h.built'
  built' := h.built

/-- The same lifetimes are fixed. -/
theorem isFixed_eq (h : problem.Renumbered other) (l : String) :
    other.isFixed l = problem.isFixed l := by
  rw [isFixed, isFixed, h.declared]

/-- A constraint of one problem has its outline in the other. -/
theorem exists_constraint (h : problem.Renumbered other) {c : Constraint}
    (hc : c ∈ problem.constraints.toList) :
    ∃ c' ∈ other.constraints.toList, c'.outline = c.outline :=
  List.mem_map.1 ((h.outlines _).1 (List.mem_map_of_mem hc))

/-- The lifetimes are related in the same way. -/
theorem edge (h : problem.Renumbered other) {a b : String} (hedge : problem.constraints.Edge a b) :
    other.constraints.Edge a b := by
  obtain ⟨c, hc, hlonger, hshorter⟩ := hedge
  obtain ⟨c', hc', houtline⟩ := h.exists_constraint (ConstraintSet.mem_toList_outlives.2 hc)
  cases c' with
  | live c' => cases houtline
  | outlives c' =>
    have hlonger' : c'.longer = c.longer := Constraint.target_eq_of_outline houtline
    have hshorter' : c'.shorter = c.shorter :=
      Option.some.inj (Constraint.source?_eq_of_outline houtline)
    exact ⟨c', ConstraintSet.mem_toList_outlives.1 hc', hlonger'.trans hlonger,
      hshorter'.trans hshorter⟩

/-- The lifetimes flow into each other in the same way. -/
theorem flowsInto_congr (h : problem.Renumbered other) (l l' : String) :
    problem.constraints.FlowsInto l l' ↔ other.constraints.FlowsInto l l' := by
  have hedge : problem.constraints.Edge = other.constraints.Edge := by
    funext a b
    exact propext ⟨h.edge, h.symm.edge⟩
  unfold ConstraintSet.FlowsInto
  rw [hedge]

/-- What meets one problem meets the other, read through the points. -/
theorem meets_recast (h : problem.Renumbered other) (hmeets : problem.Meets {} R) :
    other.Meets {} fun l =>
      problem.constraints.graph.recast other.constraints.graph (R l) := by
  refine .of_requires ?_ ?_ ?_
  · intro l hl lifetime hget hkind i'
    rw [h.declared] at hget
    have hspans := hmeets.placeholder l ((h.lifetimes l).2 hl) lifetime hget hkind
    rw [Graph.mem_recast]
    constructor
    · rintro ⟨i, hi, hsame⟩
      exact (Lifetime.spans_congr hsame).1 ((hspans i).1 hi)
    · intro hi'
      have hlt : i' < other.constraints.graph.size := by
        unfold Lifetime.Spans at hi'
        split at hi'
        · exact hi'
        · obtain ⟨point, -, hpoint⟩ := hi'
          exact Graph.lt_size_of_index? hpoint
      obtain ⟨i, hsame⟩ := Graph.exists_samePoint h.blocks.symm hlt
      exact ⟨i, (hspans i).2 ((Lifetime.spans_congr hsame).1 hi'), hsame.symm⟩
  · intro l _ _ i hi
    exact absurd hi (PointSet.not_mem_empty i)
  · intro c' hc' hfree i' hi'
    obtain ⟨c, hc, houtline⟩ := h.symm.exists_constraint hc'
    obtain ⟨i, hsame⟩ := Graph.exists_samePoint h.blocks.symm hi'.lt_size
    have hrequired : c.Requires problem.constraints.graph R i :=
      hi'.of_outline h.blocks.symm houtline (fun l _ => (Graph.samePoints_recast (R l)).symm) hsame
    rw [h.isFixed_eq, ← Constraint.target_eq_of_outline houtline] at hfree
    have hneeded := (Constraint.mem_needed h.built hc).2 hrequired
    rw [← Constraint.target_eq_of_outline houtline]
    exact Graph.mem_recast.2 ⟨i, hmeets.needed h.built hc hfree i hneeded, hsame.symm⟩

section

variable (h : problem.Renumbered other) (hprogress : Progress problem {} [] regions violations)
  (hprogress' : Progress other {} [] regions' violations')

include h hprogress hprogress'

/-- The least solutions have the same points. -/
theorem samePoints {l : String} (hl : l ∈ problem.constraints.lifetimes) :
    problem.constraints.graph.SamePoints other.constraints.graph (regions.regionOf l)
      (regions'.regionOf l) := by
  have hbelow := hprogress.least _ (h.symm.meets_recast (hprogress'.meets h.built')) l hl
  have hbelow' := hprogress'.least _ (h.meets_recast (hprogress.meets h.built)) l
    ((h.lifetimes l).1 hl)
  intro i i' hsame
  constructor
  · intro hi
    obtain ⟨j', hj', hother⟩ := Graph.mem_recast.1 (hbelow i hi)
    rwa [← hsame.unique hother.symm]
  · intro hi'
    obtain ⟨j, hj, hother⟩ := Graph.mem_recast.1 (hbelow' i' hi')
    rwa [← hsame.symm.unique hother.symm]

/-- A lifetime has a region in both, with the same points, or in none. -/
theorem rel_get? (l : String) : Option.Rel
    (problem.constraints.graph.SamePoints other.constraints.graph) (regions.get? l)
      (regions'.get? l) := by
  by_cases hl : l ∈ problem.constraints.lifetimes
  · have hl' := (h.lifetimes l).1 hl
    obtain ⟨region, hregion⟩ := NameMap.exists_get?_of_mem (hprogress.keys.symm ▸ hl)
    obtain ⟨region', hregion'⟩ := NameMap.exists_get?_of_mem (hprogress'.keys.symm ▸ hl')
    have hsame := h.samePoints hprogress hprogress' hl
    rw [NameMap.regionOf_of_get? hregion, NameMap.regionOf_of_get? hregion'] at hsame
    rw [hregion, hregion']
    exact .some hsame
  · rw [hprogress.get?_eq_none hl, hprogress'.get?_eq_none fun hl' => hl ((h.lifetimes l).2 hl')]
    exact .none

/-- Matching constraints lack the same points. -/
theorem lacks_congr {c c' : Constraint} (hc : c ∈ problem.constraints.toList)
    (hc' : c' ∈ other.constraints.toList) (houtline : c'.outline = c.outline) {i i' : Nat}
    (hsame : problem.constraints.graph.SamePoint other.constraints.graph i i') :
    (i ∈ c.needed problem.constraints.graph regions.regionOf ∧ i ∉ regions.regionOf c.target) ↔
      (i' ∈ c'.needed other.constraints.graph regions'.regionOf ∧
        i' ∉ regions'.regionOf c'.target) := by
  have hread : ∀ l, c.source? = some l →
      problem.constraints.graph.SamePoints other.constraints.graph (regions.regionOf l)
        (regions'.regionOf l) :=
    fun l hl => h.samePoints hprogress hprogress' (h.built.source_mem hc hl)
  have htarget := h.samePoints hprogress hprogress' (h.built.target_mem hc) i i' hsame
  rw [Constraint.mem_needed h.built hc, Constraint.mem_needed h.built' hc',
    Constraint.requires_congr h.blocks houtline hread hsame,
    Constraint.target_eq_of_outline houtline, htarget]

/-- A constraint with a record in one problem has one in the other. -/
theorem exists_violation (hrecording : Recording problem violations)
    (hrecording' : Recording other violations') {violation : Violation}
    (hviolation : violation ∈ violations) :
    ∃ violation' ∈ violations',
      violation'.constraint.outline = violation.constraint.outline := by
  have hfails := (hprogress.mem_violations_iff hrecording).1
    (List.mem_map_of_mem (f := Violation.constraint) hviolation)
  obtain ⟨hc, i, hlacks⟩ := ConstraintSet.mem_failing.1 hfails
  obtain ⟨c', hc', houtline⟩ := h.exists_constraint hc
  have hlt := ((Constraint.mem_needed h.built hc).1 hlacks.1).lt_size
  obtain ⟨i', hsame⟩ := Graph.exists_samePoint h.blocks hlt
  have hlacks' := (h.lacks_congr hprogress hprogress' hc hc' houtline hsame).1 hlacks
  have hfails' : c' ∈ other.constraints.failing regions' :=
    ConstraintSet.mem_failing.2 ⟨hc', i', hlacks'⟩
  obtain ⟨violation', hviolation', rfl⟩ :=
    List.mem_map.1 ((hprogress'.mem_violations_iff hrecording').2 hfails')
  exact ⟨violation', hviolation', houtline⟩

/-- The records of matching constraints have the same points. -/
theorem samePoints_extra (hrecording : Recording problem violations)
    (hrecording' : Recording other violations') {violation violation' : Violation}
    (hviolation : violation ∈ violations) (hviolation' : violation' ∈ violations')
    (houtline : violation'.constraint.outline = violation.constraint.outline) :
    problem.constraints.graph.SamePoints other.constraints.graph violation.extra
      violation'.extra := by
  intro i i' hsame
  have hmem := List.mem_map_of_mem (f := Violation.constraint) hviolation
  have hmem' := List.mem_map_of_mem (f := Violation.constraint) hviolation'
  have hc := hrecording.listed _ hmem
  have hc' := hrecording'.listed _ hmem'
  rw [← recorded_eq hrecording.nodup hviolation, ← recorded_eq hrecording'.nodup hviolation',
    hprogress.mem_recorded hc (hrecording.fixed _ hmem),
    hprogress'.mem_recorded hc' (hrecording'.fixed _ hmem')]
  exact h.lacks_congr hprogress hprogress' hc hc' houtline hsame

end

/-- The records have different outlines. -/
theorem nodup_outlines (hbuilt : problem.constraints.Built)
    (hrecording : Recording problem violations) :
    (violations.map fun violation => violation.constraint.outline).Nodup := by
  have hnodup : ((violations.map Violation.constraint).map Constraint.outline).Nodup := by
    refine hrecording.nodup.map_on fun c hc c' hc' houtline => ?_
    exact Constraint.eq_of_outline hbuilt (hrecording.listed c' hc') (hrecording.listed c hc)
      houtline
  rwa [List.map_map] at hnodup

/-- What is recorded against fixed regions is the same, but for the order. -/
theorem matched_violations (h : problem.Renumbered other)
    (hprogress : Progress problem {} [] regions violations)
    (hprogress' : Progress other {} [] regions' violations')
    (hrecording : Recording problem violations) (hrecording' : Recording other violations') :
    Matched (fun violation violation' : Violation =>
      violation'.constraint.outline = violation.constraint.outline ∧
        problem.constraints.graph.SamePoints other.constraints.graph violation.extra
          violation'.extra) violations violations' := by
  refine matched_of_keys (nodup_outlines h.built hrecording) (nodup_outlines h.built' hrecording')
    (fun outline => ?_) ?_
  · simp only [List.mem_map]
    constructor
    · rintro ⟨violation, hviolation, rfl⟩
      exact h.exists_violation hprogress hprogress' hrecording hrecording' hviolation
    · rintro ⟨violation', hviolation', rfl⟩
      exact h.symm.exists_violation hprogress' hprogress hrecording' hrecording hviolation'
  · intro violation hviolation violation' hviolation' houtline
    exact ⟨houtline, h.samePoints_extra hprogress hprogress' hrecording hrecording' hviolation
      hviolation' houtline⟩

end Renumbered

end Problem

/-! ### Conflicts -/

/-- The use that a conflict names is so many steps away from the action, and no fewer, on walks
through points at which the loan is active. -/
def Conflict.UseDistance (conflict : Conflict) (g : Graph) (regions : NameMap PointSet) (d : Nat) :
    Prop :=
  ∃ start region i use k, g.index? conflict.loan.point = some start ∧
    regions.get? conflict.loan.lifetime = some region ∧ g.index? conflict.point = some i ∧
    conflict.use = some use ∧ g.index? use = some k ∧
    Search.Distance g.succ (Detector.reachAfter g start region) (PointSet.single i).toList d k

namespace Detector

variable {detector other : Detector} {loan : Loan} {conflict conflict' : Conflict}
  {conflicts conflicts' : List Conflict} {i i' : Nat}

/-- A reported conflict names the nearest use. -/
theorem exists_nearestUse_of_mem (h : detector.detect = .ok conflicts)
    (hmem : conflict ∈ conflicts) : ∃ active i, detector.active conflict.loan = .ok active ∧
      detector.graph.index? conflict.point = some i ∧
      detector.nearestUse (detector.constraints.flowsTo conflict.loan.lifetime) conflict.point
        active = .ok conflict.use := by
  obtain ⟨loan, -, found, hfound, hconflict⟩ := exists_of_mem_detect h hmem
  obtain ⟨active, hactive, -⟩ := exists_of_bind_eq_ok hfound
  obtain ⟨rfl, ⟨i, hindex, -⟩, hnearest⟩ :=
    ((mem_conflictsOf hactive hfound).1 hconflict).nearestUse
  exact ⟨active, i, hactive, hindex, hnearest⟩

/-- The use that is found is as far away as it was found. -/
theorem UseAt.useDistance {carriers : NameSet} {active : PointSet} {use : Point} {d k : Nat}
    (h : detector.UseAt carriers active i d k)
    (hactive : detector.active conflict.loan = .ok active)
    (hi : detector.graph.index? conflict.point = some i) (huse : conflict.use = some use)
    (hk : detector.graph.index? use = some k) :
    conflict.UseDistance detector.graph detector.regions d := by
  unfold Detector.active at hactive
  split at hactive
  · cases hactive
  · next region hregion =>
    obtain ⟨start, hstart, rfl⟩ := exists_of_map_eq_ok hactive
    exact ⟨start, region, i, use, k, Graph.index_eq_ok.1 hstart, hregion, hi, huse, hk, h.1⟩

/-- No two conflicts have one outline. -/
theorem nodup_outlines (h : detector.detect = .ok conflicts) :
    (conflicts.map Conflict.outline).Nodup := by
  obtain ⟨rows, -, rfl⟩ := detect_eq_ok h
  refine .of_map Conflict.key ?_
  rw [List.map_map]
  exact ((List.mergeSort_perm _ _).map Conflict.key).nodup_iff.2 (nodup_firstOfEach _)

/-- Two detectors are the same but for the order of the blocks, which the numbers of the points
depend on. -/
structure Renumbered (detector other : Detector) : Prop where
  /-- The blocks are the same. -/
  blocks : detector.graph.blocks.Perm other.graph.blocks
  /-- At each point there are the same loans, in the same order. -/
  loans : ∀ point, detector.facts.loans.filter (·.point = point) =
    other.facts.loans.filter (·.point = point)
  /-- At each point there are the same accesses, in the same order. -/
  accesses : ∀ point, detector.facts.accesses.filter (·.point = point) =
    other.facts.accesses.filter (·.point = point)
  /-- At each point there are the same scope exits, in the same order. -/
  exits : ∀ point, detector.facts.exits.filter (·.point = point) =
    other.facts.exits.filter (·.point = point)
  /-- The regions have the same points. -/
  regions : ∀ l, Option.Rel (detector.graph.SamePoints other.graph) (detector.regions.get? l)
    (other.regions.get? l)
  /-- The lifetimes flow into each other in the same way. -/
  flows : ∀ l l', detector.constraints.FlowsInto l l' ↔ other.constraints.FlowsInto l l'
  /-- The elements need the same lifetimes. -/
  needs : ∀ element l, detector.body.Needs element l ↔ other.body.Needs element l

namespace Renumbered

/-- A lifetime with a region in one detector has one in the other, with the same points. -/
theorem exists_region (h : detector.Renumbered other) {l : String} {region : PointSet}
    (hregion : detector.regions.get? l = some region) :
    ∃ region', other.regions.get? l = some region' ∧
      detector.graph.SamePoints other.graph region region' := by
  have hrel := h.regions l
  rw [hregion] at hrel
  cases hregion' : other.regions.get? l with
  | none =>
    rw [hregion'] at hrel
    cases hrel
  | some region' =>
    rw [hregion'] at hrel
    cases hrel with
    | some hsame => exact ⟨region', rfl, hsame⟩

/-- The detectors can be taken the other way round. -/
theorem symm (h : detector.Renumbered other) : other.Renumbered detector where
  blocks := h.blocks.symm
  loans point := (h.loans point).symm
  accesses point := (h.accesses point).symm
  exits point := (h.exits point).symm
  regions l := rel_swap (h.regions l) fun _ _ => Graph.SamePoints.symm
  flows l l' := (h.flows l l').symm
  needs element l := (h.needs element l).symm

/-- A loan is active at the same points. -/
theorem activeAt (h : detector.Renumbered other) (hi : detector.graph.SamePoint other.graph i i')
    (hactive : detector.ActiveAt loan i) : other.ActiveAt loan i' := by
  obtain ⟨start, region, hstart, hregion, hwalk⟩ := hactive
  obtain ⟨region', hregion', hsame⟩ := h.exists_region hregion
  obtain ⟨start', hsame', hstart'⟩ := Graph.exists_samePoint_of_index? h.blocks hstart
  exact ⟨start', region', hstart', hregion', hwalk.of_samePoint h.blocks hsame hsame' hi⟩

/-- A loan is active at the same points. -/
theorem activeAt_congr (h : detector.Renumbered other)
    (hi : detector.graph.SamePoint other.graph i i') :
    detector.ActiveAt loan i ↔ other.ActiveAt loan i' :=
  ⟨h.activeAt hi, h.symm.activeAt hi.symm⟩

/-- The same accesses hit a loan. -/
theorem hits (h : detector.Renumbered other) {access : Access} (hhits : detector.Hits loan access) :
    other.Hits loan access := by
  obtain ⟨⟨i, hindex, hactive⟩, htouches, hforbids⟩ := hhits
  obtain ⟨i', hsame, hindex'⟩ := Graph.exists_samePoint_of_index? h.blocks hindex
  refine ⟨⟨i', hindex', h.activeAt hsame hactive⟩, htouches, ?_⟩
  unfold Forbids at hforbids ⊢
  cases hkind : loan.kind with
  | shared =>
    rw [hkind] at hforbids
    exact hforbids
  | mutable =>
    rw [hkind] at hforbids
    intro l hl hflows
    exact hforbids l hl ((h.flows _ _).2 hflows)

/-- The same scope exits end what is on loan. -/
theorem ends (h : detector.Renumbered other) {exit : ScopeExit} (hends : detector.Ends loan exit) :
    other.Ends loan exit := by
  obtain ⟨hdirect, hname, i, hindex, hactive, next, hnext, hnextActive⟩ := hends
  obtain ⟨i', hsame, hindex'⟩ := Graph.exists_samePoint_of_index? h.blocks hindex
  obtain ⟨next', hnext', hsame'⟩ := hsame.exists_succ h.blocks hnext
  exact ⟨hdirect, hname, i', hindex', h.activeAt hsame hactive, next', hnext',
    h.activeAt hsame' hnextActive⟩

/-- Both find the same for each key. -/
theorem agreeAt (h : detector.Renumbered other) (conflict : Conflict) :
    detector.AgreeAt other conflict where
  loans := by
    have hborrow : ∀ loans : List Loan, loans.filter conflict.loan.sameBorrow =
        (loans.filter (·.point = conflict.loan.point)).filter conflict.loan.sameBorrow := by
      intro loans
      rw [List.filter_filter]
      refine List.filter_congr fun loan _ => ?_
      cases hsame : conflict.loan.sameBorrow loan with
      | false => rfl
      | true =>
        simp only [Loan.sameBorrow, Bool.and_eq_true, beq_iff_eq] at hsame
        simp [hsame.1.1]
    rw [hborrow, h.loans, ← hborrow]
  accesses := h.accesses conflict.point
  exits := h.exits conflict.point
  hits _ _ _ _ _ := ⟨h.hits, h.symm.hits⟩
  ends _ _ _ _ _ := ⟨h.ends, h.symm.ends⟩

/-- A use at some distance is one in the other graph. -/
theorem exists_useAt (h : detector.Renumbered other) {active active' : PointSet}
    (hactive : detector.active loan = .ok active) (hactive' : other.active loan = .ok active')
    (hi : detector.graph.SamePoint other.graph i i') {l : String} {d k : Nat}
    (huse : detector.UseAt (detector.constraints.flowsTo l) active i d k) :
    ∃ k', other.UseAt (other.constraints.flowsTo l) active' i' d k' := by
  obtain ⟨hdistance, hused⟩ := huse
  obtain ⟨element, helement, carrier, hcarrier, hneeds⟩ := usedAt_eq_true.1 hused
  have hsame : detector.graph.SamePoints other.graph active active' := by
    intro j j' hj
    rw [mem_active hactive, mem_active hactive', h.activeAt_congr hj]
  obtain ⟨k', hk⟩ := Graph.exists_samePoint h.blocks (Graph.lt_size_of_elementAt? helement)
  refine ⟨k', (Graph.distance_congr h.blocks hsame hi hk).1 hdistance, usedAt_eq_true.2 ?_⟩
  rw [ConstraintSet.mem_flowsTo] at hcarrier
  exact ⟨element, (hk.elementAt?_eq h.blocks).trans helement, carrier,
    ConstraintSet.mem_flowsTo.2 ((h.flows l carrier).1 hcarrier),
    (h.needs element carrier).1 hneeds⟩

/-- Matching conflicts name no use, or uses at the same distance. -/
theorem sameUse (h : detector.Renumbered other) (hdetect : detector.detect = .ok conflicts)
    (hdetect' : other.detect = .ok conflicts') (hmem : conflict ∈ conflicts)
    (hmem' : conflict' ∈ conflicts') (houtline : conflict'.outline = conflict.outline) :
    (conflict.use = none ∧ conflict'.use = none) ∨
      ∃ d, conflict.UseDistance detector.graph detector.regions d ∧
        conflict'.UseDistance other.graph other.regions d := by
  obtain ⟨active, i, hactive, hi, hnearest⟩ := exists_nearestUse_of_mem hdetect hmem
  obtain ⟨active', i', hactive', hi', hnearest'⟩ := exists_nearestUse_of_mem hdetect' hmem'
  have hloan : conflict'.loan = conflict.loan := (congrArg Conflict.loan houtline :)
  have hpoint : conflict'.point = conflict.point := (congrArg Conflict.point houtline :)
  have hsame : detector.graph.SamePoint other.graph i i' := ⟨_, hi, hpoint ▸ hi'⟩
  have hactiveLoan : other.active conflict.loan = .ok active' := hloan ▸ hactive'
  rw [hloan] at hnearest'
  -- a use on one side is one on the other, at the same distance
  have hforth : ∀ d k, detector.UseAt (detector.constraints.flowsTo conflict.loan.lifetime) active
      i d k → ∃ k', other.UseAt (other.constraints.flowsTo conflict.loan.lifetime) active'
        i' d k' :=
    fun d k => h.exists_useAt hactive hactiveLoan hsame
  have hback : ∀ d k', other.UseAt (other.constraints.flowsTo conflict.loan.lifetime) active'
      i' d k' → ∃ k, detector.UseAt (detector.constraints.flowsTo conflict.loan.lifetime) active
        i d k :=
    fun d k' => h.symm.exists_useAt hactiveLoan hactive hsame.symm
  rcases nearestUse_closest hi hnearest with ⟨hnone, hno⟩ | ⟨use, k, d, huse, hk, huseAt, hleast⟩
  · rcases nearestUse_closest hi' hnearest' with ⟨hnone', -⟩ | ⟨use', k', d', -, -, huseAt', -⟩
    · exact .inl ⟨hnone, hnone'⟩
    · obtain ⟨k, huseAt⟩ := hback d' k' huseAt'
      exact absurd huseAt (hno d' k)
  · rcases nearestUse_closest hi' hnearest' with
      ⟨-, hno'⟩ | ⟨use', k', d', huse', hk', huseAt', hleast'⟩
    · obtain ⟨k', huseAt'⟩ := hforth d k huseAt
      exact absurd huseAt' (hno' d k')
    · obtain ⟨m, hm⟩ := hback d' k' huseAt'
      obtain ⟨m', hm'⟩ := hforth d k huseAt
      have hnear := hleast d' m hm
      have hnear' := hleast' d m' hm'
      obtain rfl : d = d' := by omega
      exact .inr ⟨d, huseAt.useDistance hactive hi huse hk,
        huseAt'.useDistance hactive' hi' huse' hk'⟩

/-- The conflicts are the same, but for the order and for which of the nearest uses they name. -/
theorem matched_conflicts (h : detector.Renumbered other)
    (hdetect : detector.detect = .ok conflicts) (hdetect' : other.detect = .ok conflicts') :
    Matched (fun conflict conflict' : Conflict => conflict'.outline = conflict.outline ∧
      ((conflict.use = none ∧ conflict'.use = none) ∨
        ∃ d, conflict.UseDistance detector.graph detector.regions d ∧
          conflict'.UseDistance other.graph other.regions d)) conflicts conflicts' := by
  refine matched_of_keys (nodup_outlines hdetect) (nodup_outlines hdetect') (fun outline => ?_) ?_
  · simp only [List.mem_map]
    constructor
    · rintro ⟨conflict, hmem, rfl⟩
      exact (h.agreeAt conflict).exists_mem hdetect hdetect' hmem
    · rintro ⟨conflict', hmem', rfl⟩
      exact (h.symm.agreeAt conflict').exists_mem hdetect' hdetect hmem'
  · intro conflict hmem conflict' hmem' houtline
    exact ⟨houtline, h.sameUse hdetect hdetect' hmem hmem' houtline⟩

end Renumbered

end Detector

end RegionInference
