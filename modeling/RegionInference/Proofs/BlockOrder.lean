import RegionInference.Proofs.Totality
import RegionInference.Proofs.Transport

/-!
# The order of the blocks

A body whose blocks are listed in another order, and that is entered at another block, is the same
body to an analysis (`Body.Rearranged`). It has the same lifetimes with the same declarations, the
same locals are live at each point, and each point has the same demands and the same facts. What
could depend on the order is which of several demands gives a constraint its origin, and which of
several accesses gives a conflict its kind; but those are all at one point, where the order is that
of the statement and of the obligations.

So the constraints and the facts are those of the other body under another numbering, and the report
is the same (`Body.block_order_irrelevant`).
-/

namespace RegionInference

/-! ### What elements give -/

/-- Every computation ends in some way. -/
theorem Ends.any (result : Except ε α) : Ends (fun _ => True) (fun _ => True) result := by
  cases result <;> exact trivial

namespace Demand

/-- All demands are at a point. -/
def AllAt (point : Point) (demands : List Demand) : Prop :=
  ∀ demand ∈ demands, demand.point = point

/-- Demands at one point and more demands at that point are demands at the point. -/
theorem AllAt.append {point : Point} {a b : List Demand} (ha : AllAt point a) (hb : AllAt point b) :
    AllAt point (a ++ b) := by
  intro demand hdemand
  rcases List.mem_append.1 hdemand with hleft | hright
  · exact ha demand hleft
  · exact hb demand hright

/-- What a subtyping demands, it demands at its point. -/
theorem allAt_subtype (sub sup : Option Ty) (point : Point) (origin : Origin)
    (variance : Variance) :
    Ends (AllAt point) (fun _ => True) (subtype sub sup point origin variance) := by
  unfold subtype
  split
  · refine (Ends.any _).bind fun pairs _ demand hdemand => ?_
    obtain ⟨pair, -, rfl⟩ := List.mem_map.1 hdemand
    rfl
  · intro demand hdemand
    cases hdemand

/-- What an assignment demands, it demands at the given point. -/
theorem allAt_assignment (body : Body) (place : Place) (rvalue : Rvalue) (point : Point) :
    Ends (AllAt point) (fun _ => True) (assignment body place rvalue point) := by
  unfold assignment
  refine (Ends.any _).bind fun target _ => ?_
  split
  · next args params result =>
    have hargument : ∀ pair ∈ args.zip params, Ends (AllAt point) (fun _ => True) (do
        subtype (← body.operandType pair.1) (some pair.2) point .callArgument) :=
      fun pair _ => (Ends.any _).bind fun _ _ => allAt_subtype _ _ _ _ _
    refine (Ends.mapM hargument).bind fun arguments harguments => ?_
    refine (allAt_subtype result target point .callReturn .covariant).bind fun stored hstored => ?_
    refine AllAt.append (fun demand hdemand => ?_) hstored
    obtain ⟨row, hrow, hmem⟩ := List.mem_flatten.1 hdemand
    exact harguments row hrow demand hmem
  · next lifetime mutable borrowed =>
    refine (Ends.any _).bind fun value _ => ?_
    refine (allAt_subtype value target point .assignment .covariant).bind fun stored hstored => ?_
    have hthrough : Ends (AllAt point) (fun _ => True) (reborrow body lifetime borrowed point) := by
      refine (Ends.any _).map fun derefs _ demand hdemand => ?_
      obtain ⟨longer, -, rfl⟩ := List.mem_map.1 hdemand
      rfl
    exact hthrough.bind fun through hthrough => hstored.append hthrough
  · exact (Ends.any _).bind fun value _ => allAt_subtype _ _ _ _ _

/-- What an element demands, it demands at the next point. -/
theorem point_of_mem_ofElement {body : Body} {point : Point} {element : Element}
    {demands : List Demand} (h : ofElement body point element = .ok demands) {demand : Demand}
    (hmem : demand ∈ demands) : demand.point = { point with index := point.index + 1 } := by
  unfold ofElement at h
  split at h
  · next place rvalue =>
    have hends := allAt_assignment body place rvalue { point with index := point.index + 1 }
    rw [h] at hends
    exact hends demand hmem
  · cases h
    cases hmem

end Demand

/-- The loan of an element is at the point of the element. -/
theorem LoanFacts.point_of_loan? {point : Point} {element : Element} {loan : Loan}
    (h : loan? point element = some loan) : loan.point = point := by
  unfold loan? at h
  split at h
  · cases h
    rfl
  · cases h

/-- The scope exit of an element is at the point of the element. -/
theorem LoanFacts.point_of_exit? {point : Point} {element : Element} {exit : ScopeExit}
    (h : exit? point element = some exit) : exit.point = point := by
  unfold exit? at h
  split at h
  · cases h
    rfl
  · cases h

/-! ### Declarations -/

namespace NameMap

/-- Behind a list of entries, only names that it does not have are looked up. -/
theorem findPair?_append (name : String) (a b : List (String × α)) :
    findPair? name (a ++ b) = (findPair? name a).or (findPair? name b) := by
  induction a with
  | nil => rfl
  | cons entry a ih =>
    rw [List.cons_append, findPair?, findPair?]
    split
    · rfl
    · exact ih

/-- A value that is made of the name is found for the names of the list. -/
theorem findPair?_map (make : String → α) (name : String) (names : List String) :
    findPair? name (names.map fun other => (other, make other)) =
      if name ∈ names then some (make name) else none := by
  induction names with
  | nil => rfl
  | cons other names ih =>
    rw [List.map_cons, findPair?]
    split
    · next hname =>
      subst hname
      simp
    · next hname => simp [ih, hname]

end NameMap

namespace Body

/-- A declared lifetime comes with its declaration, and any other that is mentioned is free. -/
theorem get?_declared (body : Body) (l : String) : body.declared.get? l =
    (NameMap.findPair? l (body.placeholders.map fun lifetime => (lifetime.name, lifetime))).or
      (if l ∈ body.mentioned.filter (· ∉ body.placeholders.map Lifetime.name) then
        some { name := l } else none) := by
  unfold declared BodyParts.lifetimes NameMap.get?
  rw [List.map_append, NameMap.findPair?_append, List.map_map,
    ← NameMap.findPair?_map fun name => ({ name := name } : Lifetime)]
  rfl

/-- Two bodies have the same blocks, in any order and with any entry, and the same of everything
else. Their facts are those of their statements. -/
structure Rearranged (body other : Body) : Prop where
  /-- The blocks are the same. -/
  blocks : body.graph.blocks.Perm other.graph.blocks
  /-- The locals are the same. -/
  vars : other.vars = body.vars
  /-- The declared lifetimes are the same. -/
  placeholders : other.placeholders = body.placeholders
  /-- The same is demanded from outside. -/
  obligations : other.obligations = body.obligations
  /-- Destructors leave the same data alone. -/
  mayDangle : other.mayDangle = body.mayDangle
  /-- The facts of the first are derived. -/
  derived : body.loans = none ∧ body.accesses = none ∧ body.exits = none
  /-- The facts of the second are derived. -/
  derived' : other.loans = none ∧ other.accesses = none ∧ other.exits = none

namespace Rearranged

variable {body other : Body}

/-- The bodies can be taken the other way round. -/
theorem symm (h : body.Rearranged other) : other.Rearranged body where
  blocks := h.blocks.symm
  vars := h.vars.symm
  placeholders := h.placeholders.symm
  obligations := h.obligations.symm
  mayDangle := h.mayDangle.symm
  derived := h.derived'
  derived' := h.derived

/-- The same lifetimes are mentioned. -/
theorem mem_mentioned (h : body.Rearranged other) {l : String} :
    l ∈ other.mentioned ↔ l ∈ body.mentioned := by
  have helements := ((Graph.perm_elementTable h.blocks).flatMap_right Element.lifetimes).mem_iff
    (a := l)
  unfold BodyParts.mentioned
  rw [List.mem_eraseDups, List.mem_eraseDups, List.mem_append, List.mem_append, List.mem_append,
    List.mem_append, h.vars, h.obligations, helements]

/-- What is declared is the same. -/
theorem get?_declared (h : body.Rearranged other) (l : String) :
    other.declared.get? l = body.declared.get? l := by
  rw [Body.get?_declared, Body.get?_declared, h.placeholders]
  simp only [List.mem_filter, h.mem_mentioned]

/-- So the lifetimes of one body are lifetimes of the other. -/
theorem mem_lifetimes (h : body.Rearranged other) {l : String}
    (hl : l ∈ body.lifetimes.map Lifetime.name) : l ∈ other.lifetimes.map Lifetime.name := by
  have hkeys : ∀ b : Body, b.declared.keys = b.lifetimes.map Lifetime.name := by
    intro b
    simp [declared, NameMap.keys]
  rw [← hkeys] at hl ⊢
  obtain ⟨lifetime, hget⟩ := NameMap.exists_get?_of_mem hl
  rw [← h.get?_declared] at hget
  exact NameMap.mem_keys_of_get? hget

/-- The same lifetimes have to be valid when a value is dropped. -/
theorem nonDangling_eq (h : body.Rearranged other) : other.nonDangling = body.nonDangling := by
  funext name
  unfold nonDangling
  rw [var_congr h.vars, h.mayDangle]

/-- The elements need the same lifetimes. -/
theorem needs_iff (h : body.Rearranged other) (element : Element) (l : String) :
    body.Needs element l ↔ other.Needs element l := by
  unfold Needs
  rw [var_congr h.vars, h.nonDangling_eq]

/-! ### Demands -/

/-- If the demands of one body can be found, those of the other can. -/
theorem exists_demands (h : body.Rearranged other) {demands : List Demand}
    (hdemands : Demand.ofBody body = .ok demands) :
    ∃ demands', Demand.ofBody other = .ok demands' := by
  obtain ⟨rows, hrows, hdemands⟩ := exists_of_bind_eq_ok hdemands
  obtain ⟨outside, houtside, -⟩ := exists_of_bind_eq_ok hdemands
  obtain ⟨rows', hrows'⟩ : ∃ rows', (other.graph.items.mapM fun item =>
      Demand.ofElement other item.1 item.2) = .ok rows' := by
    refine exists_mapM fun item hitem => ?_
    rw [Demand.ofElement_congr h.vars]
    obtain ⟨row, -, hrow⟩ := exists_of_mem_mapM hrows ((Graph.perm_items h.blocks).mem_iff.2 hitem)
    exact ⟨row, hrow⟩
  rw [← h.obligations] at houtside
  have hends : Ends (fun _ => True) (fun _ => False) (Demand.ofBody other) :=
    .bind_of_eq_ok hrows' (.bind_of_eq_ok houtside trivial)
  obtain ⟨demands', hdemands', -⟩ := hends.exists_ok
  exact ⟨demands', hdemands'⟩

/-- The demands that a constraint can stand for are the same, in the same order: they are made by
the element before the point, and then by the obligations. -/
theorem filter_asks (h : body.Rearranged other) {demands demands' : List Demand}
    (hdemands : Demand.ofBody body = .ok demands) (hdemands' : Demand.ofBody other = .ok demands')
    (c : Outlives) : demands'.filter (·.asks c) = demands.filter (·.asks c) := by
  obtain ⟨rows, hrows, hdemands⟩ := exists_of_bind_eq_ok hdemands
  obtain ⟨outside, houtside, hdemands⟩ := exists_of_bind_eq_ok hdemands
  obtain ⟨rows', hrows', hdemands'⟩ := exists_of_bind_eq_ok hdemands'
  obtain ⟨outside', houtside', hdemands'⟩ := exists_of_bind_eq_ok hdemands'
  cases hdemands
  cases hdemands'
  rw [h.obligations, houtside] at houtside'
  cases houtside'
  rw [Demand.ofElement_congr h.vars] at hrows'
  rw [List.filter_append, List.filter_append]
  congr 1
  let before : Point := { c.point with index := c.point.index - 1 }
  refine (Graph.filter_flatten_eq h.blocks before ?_ hrows hrows').symm
  rintro ⟨point, element⟩ hother made hmade demand hdemand hasks
  have hpoint := Demand.point_of_mem_ofElement hmade hdemand
  rw [(Demand.asks_iff.1 hasks).2.2] at hpoint
  apply hother
  simp [before, hpoint]

/-! ### Facts -/

variable {facts facts' : LoanFacts}

/-- At each point the loans are the same, in the same order. -/
theorem filter_loans (h : body.Rearranged other) (hfacts : body.facts = .ok facts)
    (hfacts' : other.facts = .ok facts') (point : Point) :
    facts.loans.filter (·.point = point) = facts'.loans.filter (·.point = point) := by
  obtain ⟨rows, -, hfacts⟩ := exists_of_bind_eq_ok hfacts
  obtain ⟨rows', -, hfacts'⟩ := exists_of_bind_eq_ok hfacts'
  cases hfacts
  cases hfacts'
  rw [h.derived.1, h.derived'.1]
  refine Graph.filter_filterMap_eq h.blocks point ?_
  rintro ⟨place, element⟩ hother loan hloan hpoint
  exact hother ((LoanFacts.point_of_loan? hloan).symm.trans (of_decide_eq_true hpoint))

/-- At each point the scope exits are the same, in the same order. -/
theorem filter_exits (h : body.Rearranged other) (hfacts : body.facts = .ok facts)
    (hfacts' : other.facts = .ok facts') (point : Point) :
    facts.exits.filter (·.point = point) = facts'.exits.filter (·.point = point) := by
  obtain ⟨rows, -, hfacts⟩ := exists_of_bind_eq_ok hfacts
  obtain ⟨rows', -, hfacts'⟩ := exists_of_bind_eq_ok hfacts'
  cases hfacts
  cases hfacts'
  rw [h.derived.2.2, h.derived'.2.2]
  refine Graph.filter_filterMap_eq h.blocks point ?_
  rintro ⟨place, element⟩ hother exit hexit hpoint
  exact hother ((LoanFacts.point_of_exit? hexit).symm.trans (of_decide_eq_true hpoint))

/-- At each point the accesses are the same, in the same order. -/
theorem filter_accesses (h : body.Rearranged other) (hfacts : body.facts = .ok facts)
    (hfacts' : other.facts = .ok facts') (point : Point) :
    facts.accesses.filter (·.point = point) = facts'.accesses.filter (·.point = point) := by
  obtain ⟨rows, hrows, hfacts⟩ := exists_of_bind_eq_ok hfacts
  obtain ⟨rows', hrows', hfacts'⟩ := exists_of_bind_eq_ok hfacts'
  cases hfacts
  cases hfacts'
  rw [LoanFacts.accessesAt_congr h.vars] at hrows'
  rw [h.derived.2.1, h.derived'.2.1]
  refine Graph.filter_flatten_eq h.blocks point ?_ hrows hrows'
  rintro ⟨place, element⟩ hother made hmade access haccess hpoint
  exact hother ((LoanFacts.point_of_mem_accessesAt hmade haccess).symm.trans
    (of_decide_eq_true hpoint))

/-! ### Constraints -/

variable {liveness liveness' : Liveness}

section

variable {order : Order} {limit limit' : Nat} {i i' : Nat}

/-- The same locals are live at each point. -/
theorem factAt_eq (h : body.Rearranged other) (hran : Liveness.Ran body order limit liveness)
    (hran' : Liveness.Ran other order limit' liveness')
    (hi : body.graph.SamePoint other.graph i i') : liveness'.factAt i' = liveness.factAt i := by
  have hpart : ∀ aspect : Liveness.Aspect,
      aspect.part (liveness'.factAt i') = aspect.part (liveness.factAt i) := by
    intro aspect
    refine NameSet.ext fun v => ?_
    rw [hran'.mem_factAt_iff aspect hi.symm.lt_size, hran.mem_factAt_iff aspect hi.lt_size,
      Graph.usedLater_congr h.blocks hi]
  exact Prod.ext (hpart .read) (hpart .drop)

/-- The same lifetimes are live at each point. -/
theorem lifetimesAt_eq (h : body.Rearranged other) (hran : Liveness.Ran body order limit liveness)
    (hran' : Liveness.Ran other order limit' liveness')
    (hi : body.graph.SamePoint other.graph i i') :
    liveness'.lifetimesAt i' = liveness.lifetimesAt i := by
  have htypes : Liveness.typeLifetimes other = Liveness.typeLifetimes body := by
    funext name
    unfold Liveness.typeLifetimes
    rw [var_congr h.vars]
  unfold Liveness.lifetimesAt
  rw [hran.body_eq, hran'.body_eq, h.factAt_eq hran hran' hi, htypes, h.nonDangling_eq]

end

variable {settings : Settings} {report report' : Report} {set set' : ConstraintSet}
  {solution solution' : Solution}

/-- The constraints are the same but for their numbers. -/
theorem exists_outline (h : body.Rearranged other)
    (hfirst : body.Analyzed settings report liveness set solution)
    (hsecond : other.Analyzed settings report' liveness' set' solution') {c : Constraint}
    (hc : c ∈ set.toList) : ∃ c' ∈ set'.toList, c'.outline = c.outline := by
  cases c with
  | live c =>
    obtain ⟨hindex, horigin, names, hnames, hl⟩ :=
      (ConstraintSet.mem_live_ofBody hfirst.body_eq hfirst.generated).1
        (ConstraintSet.mem_toList_live.1 hc)
    obtain ⟨i', hsame, hindex'⟩ := Graph.exists_samePoint_of_index? h.blocks hindex
    obtain ⟨limit, hran⟩ := Liveness.exists_ran hfirst.live
    obtain ⟨limit', hran'⟩ := Liveness.exists_ran hsecond.live
    have hnames' : liveness'.lifetimesAt i' = .ok names := by
      rw [h.lifetimesAt_eq hran hran' hsame, hnames]
    refine ⟨.live { c with index := i' }, ConstraintSet.mem_toList_live.2 ?_, rfl⟩
    exact (ConstraintSet.mem_live_ofBody hsecond.body_eq hsecond.generated).2
      ⟨hindex', horigin, names, hnames', hl⟩
  | outlives c =>
    obtain ⟨-, demands, -, -, hdemands, -⟩ := ConstraintSet.ofBody_eq_ok hfirst.generated
    obtain ⟨-, demands', -, -, hdemands', -⟩ := ConstraintSet.ofBody_eq_ok hsecond.generated
    obtain ⟨hdiffer, hindex, demand, hfirstDemand, horigin⟩ :=
      (ConstraintSet.mem_outlives_ofBody hfirst.generated hdemands).1
        (ConstraintSet.mem_toList_outlives.1 hc)
    obtain ⟨i', hsame, hindex'⟩ := Graph.exists_samePoint_of_index? h.blocks hindex
    have hfirstDemand' : demands'.find? (·.asks c) = some demand := by
      rw [← List.head?_filter, h.filter_asks hdemands hdemands', List.head?_filter, hfirstDemand]
    refine ⟨.outlives { c with index := i' }, ConstraintSet.mem_toList_outlives.2 ?_, rfl⟩
    exact (ConstraintSet.mem_outlives_ofBody hsecond.generated hdemands').2
      ⟨hdiffer, hindex', demand, hfirstDemand', horigin⟩

/-- The problems to solve are the same but for the numbers. -/
theorem renumbered (h : body.Rearranged other)
    (hfirst : body.Analyzed settings report liveness set solution)
    (hsecond : other.Analyzed settings report' liveness' set' solution') :
    Problem.Renumbered { constraints := set, declared := body.declared, options := settings.solve }
      { constraints := set', declared := other.declared, options := settings.solve } where
  blocks := by
    rw [hfirst.graph_eq, hsecond.graph_eq]
    exact h.blocks
  lifetimes l := by
    have hlifetimes := (ConstraintSet.ofBody_built hfirst.body_eq hfirst.generated).2.2
    have hlifetimes' := (ConstraintSet.ofBody_built hsecond.body_eq hsecond.generated).2.2
    rw [hlifetimes, hlifetimes', List.mem_eraseDups, List.mem_eraseDups]
    exact ⟨h.mem_lifetimes, h.symm.mem_lifetimes⟩
  outlines c := by
    simp only [List.mem_map]
    constructor
    · rintro ⟨c, hc, rfl⟩
      exact h.exists_outline hfirst hsecond hc
    · rintro ⟨c', hc', rfl⟩
      exact h.symm.exists_outline hsecond hfirst hc'
  declared := h.get?_declared
  built := hfirst.built
  built' := hsecond.built

end Rearranged

namespace Analyzed

variable {body : Body} {settings : Settings} {report : Report} {liveness : Liveness}
  {set : ConstraintSet} {solution : Solution}

/-- The regions that are found have points of the graph only. -/
theorem region_lt_size (h : body.Analyzed settings report liveness set solution) {l : String}
    {region : PointSet} (hget : solution.regions.get? l = some region) :
    ∀ i ∈ region, i < body.graph.size := by
  obtain ⟨work, -, hprogress⟩ := Problem.progress_of_solve h.built h.solved
  intro i hi
  rw [← NameMap.regionOf_of_get? hget] at hi
  rw [← h.graph_eq]
  exact hprogress.lt_size (fun l j hj => absurd hj (PointSet.not_mem_empty j)) l i hi

/-- So do the violations that are recorded. -/
theorem extra_lt_size (h : body.Analyzed settings report liveness set solution)
    {violation : Violation} (hmem : violation ∈ solution.violations) :
    ∀ i ∈ violation.extra, i < body.graph.size := by
  rw [← h.graph_eq]
  exact Problem.lt_size_of_mem_extra h.built h.solved hmem

end Analyzed

/-- An analysis that no limit stops returns iff what the body demands can be found. -/
theorem exists_analyze_iff (body : Body) (h : ¬body.Stopped {}) :
    (∃ report, body.analyze = .ok report) ↔ ∃ demands, Demand.ofBody body = .ok demands := by
  have hends := @ends_analyze body {} rfl
  cases hresult : body.analyze with
  | ok report =>
    rw [hresult] at hends
    exact ⟨fun _ => hends, fun _ => ⟨report, rfl⟩⟩
  | error fault =>
    rw [hresult] at hends
    have hdemands : Demand.ofBody body = .error fault :=
      hends.resolve_right fun hlimit => h ⟨fault, hresult, hlimit⟩
    rw [hdemands]
    simp

/-- **The order of the blocks is irrelevant.** Let two bodies have the same blocks, listed in any
orders and entered at any blocks, and the same of everything else, with facts that are those of the
statements. If no limit stops their analyses, then one returns a report iff the other does, and the
reports have one verdict. Every lifetime has a region that can be listed in both, as the same points
but for the order. The violations are the same but for the order, and have the same points but for
the order. The conflicts are the same but
for the order and for the use: matching ones name no use, or uses that are equally far from the
action on walks through points at which the loan is active. -/
theorem block_order_irrelevant (body other : Body) (h : body.Rearranged other)
    (hfree : ¬body.Stopped {}) (hfree' : ¬other.Stopped {}) :
    ((∃ report, body.analyze = .ok report) ↔ ∃ report', other.analyze = .ok report') ∧
    ∀ report report', body.analyze = .ok report → other.analyze = .ok report' →
      report'.ok = report.ok ∧
      (∀ l, Option.Rel (body.graph.ListedAlike other.graph) (report.regions.get? l)
        (report'.regions.get? l)) ∧
      Matched (fun violation violation' : Violation =>
        violation'.constraint.outline = violation.constraint.outline ∧
          body.graph.ListedAlike other.graph violation.extra violation'.extra)
        report.violations report'.violations ∧
      Matched (fun conflict conflict' : Conflict => conflict'.outline = conflict.outline ∧
        ((conflict.use = none ∧ conflict'.use = none) ∨
          ∃ d, conflict.UseDistance body.graph report.regions d ∧
            conflict'.UseDistance other.graph report'.regions d))
        report.conflicts report'.conflicts := by
  constructor
  · rw [exists_analyze_iff body hfree, exists_analyze_iff other hfree']
    constructor
    · rintro ⟨demands, hdemands⟩
      exact h.exists_demands hdemands
    · rintro ⟨demands', hdemands'⟩
      exact h.symm.exists_demands hdemands'
  · intro report report' hreport hreport'
    obtain ⟨liveness, set, solution, hfirst⟩ := analyze_eq_ok hreport
    obtain ⟨liveness', set', solution', hsecond⟩ := analyze_eq_ok hreport'
    have hrenumbered := h.renumbered hfirst hsecond
    obtain ⟨work, hwork, hprogress⟩ := Problem.progress_of_solve hfirst.built hfirst.solved
    obtain ⟨work', hwork', hprogress'⟩ := Problem.progress_of_solve hsecond.built hsecond.solved
    rw [hwork (Problem.converged_of_solve rfl rfl hfirst.solved)] at hprogress
    rw [hwork' (Problem.converged_of_solve rfl rfl hsecond.solved)] at hprogress'
    have hregions := hrenumbered.rel_get? hprogress hprogress'
    have hviolations := hrenumbered.matched_violations hprogress hprogress'
      (Problem.recording_of_solve hfirst.solved) (Problem.recording_of_solve hsecond.solved)
    dsimp only at hregions hviolations
    rw [hfirst.graph_eq, hsecond.graph_eq] at hregions hviolations
    obtain ⟨facts, hfacts, hconflicts⟩ := exists_of_bind_eq_ok (hfirst.checked rfl)
    obtain ⟨facts', hfacts', hconflicts'⟩ := exists_of_bind_eq_ok (hsecond.checked rfl)
    have hdetectors : Detector.Renumbered ⟨body, solution.regions, facts, set⟩
        ⟨other, solution'.regions, facts', set'⟩ :=
      { blocks := h.blocks
        loans := h.filter_loans hfacts hfacts'
        accesses := h.filter_accesses hfacts hfacts'
        exits := h.filter_exits hfacts hfacts'
        regions := hregions
        flows := hrenumbered.flowsInto_congr
        needs := h.needs_iff }
    have hmatched := hdetectors.matched_conflicts hconflicts hconflicts'
    unfold Report.ok
    rw [hfirst.regions_eq, hsecond.regions_eq, hfirst.violations_eq, hsecond.violations_eq]
    refine ⟨?_, fun l => ?_, ?_, hmatched⟩
    · rw [hmatched.isEmpty_eq, hviolations.isEmpty_eq]
    · refine rel_imp (hregions l) fun region region' hget hget' hsame => ?_
      exact hsame.listedAlike h.blocks (hfirst.region_lt_size hget) (hsecond.region_lt_size hget')
    · refine hviolations.imp fun violation hmem violation' hmem' hpair => ⟨hpair.1, ?_⟩
      exact hpair.2.listedAlike h.blocks (hfirst.extra_lt_size hmem)
        (hsecond.extra_lt_size hmem')

end Body

/-! ### Two branches, listed the other way round -/

namespace Sample

/-- A reference to `x` is read in both branches after `x` was overwritten. -/
def borrowing : Block where
  name := "A"
  statements := [.assign ⟨"p", []⟩ (.borrow "r" false ⟨"x", []⟩), .assign ⟨"x", []⟩ (.const "1")]
  terminator := .goto ["B", "C"]

/-- A branch that reads the reference. -/
def reading (name : String) : Block where
  name := name
  statements := [.use [.copy ⟨"p", [.deref]⟩]]
  terminator := .ret

/-- The branches in the order of their names. The placeholder `s` has to outlive the reference, but
is fixed at one point. -/
def branching : Body where
  name := "branching"
  graph := .build [borrowing, reading "B", reading "C"] "A" (by decide) (by decide) (by decide)
  vars := [⟨"x", .scalar "i32"⟩, ⟨"p", .ref "l" false (.scalar "i32")⟩]
  placeholders := [{ name := "s", kind := .placeholder, fixed := some [⟨"A", 1⟩] }]
  obligations := [.outlives "s" "l" ⟨"A", 1⟩]
  valid := by decide

/-- The same blocks, listed the other way round and entered at a branch. -/
def reversed : Body :=
  { branching with
    graph := .build [reading "C", reading "B", borrowing] "B" (by decide) (by decide) (by decide)
    valid := by decide }

/-- The two bodies differ in nothing else. -/
theorem branching_rearranged : branching.Rearranged reversed where
  blocks := (List.reverse_perm [borrowing, reading "B", reading "C"]).symm
  vars := rfl
  placeholders := rfl
  obligations := rfl
  mayDangle := rfl
  derived := ⟨rfl, rfl, rfl⟩
  derived' := ⟨rfl, rfl, rfl⟩

/-- The conflict of the sample, with a use. -/
def overwriting (use : Point) : Conflict :=
  ⟨⟨"r", .shared, ⟨"x", []⟩, ⟨"A", 0⟩⟩, ⟨"A", 1⟩, some .write, .invalidated, some use⟩

/-- What is found with the branches in the order of their names: the use is in `B`. -/
theorem analyzeFor_branching : branching.analyzeFor 4 = .ok (
    { regions := ⟨[("s", ⟨2⟩), ("l", ⟨46⟩), ("r", ⟨46⟩)]⟩
      violations := [⟨.outlives ⟨"s", "l", ⟨"A", 1⟩, 1, .obligation⟩, ⟨44⟩⟩]
      conflicts := [overwriting ⟨"B", 0⟩] }, true) := by
  cbv

/-- What is found the other way round: the regions have other numbers, and the use is in `C`. -/
theorem analyzeFor_reversed : reversed.analyzeFor 4 = .ok (
    { regions := ⟨[("s", ⟨32⟩), ("l", ⟨101⟩), ("r", ⟨101⟩)]⟩
      violations := [⟨.outlives ⟨"s", "l", ⟨"A", 1⟩, 5, .obligation⟩, ⟨69⟩⟩]
      conflicts := [overwriting ⟨"C", 0⟩] }, true) := by
  cbv

end Sample

/-- In the sample both analyses return. The branch whose read is named for the conflict is the one
that is listed first, so the reports name different branches, which are equally far away. -/
theorem Body.listed_branch_is_named : ∃ report report',
    Sample.branching.analyze = .ok report ∧ Sample.reversed.analyze = .ok report' ∧
      (∀ l, Option.Rel (Sample.branching.graph.ListedAlike Sample.reversed.graph)
        (report.regions.get? l) (report'.regions.get? l)) ∧
      (∃ violation ∈ report.violations, ∃ violation' ∈ report'.violations,
        violation'.constraint.outline = violation.constraint.outline ∧
          Sample.branching.graph.ListedAlike Sample.reversed.graph violation.extra
            violation'.extra) ∧
      Sample.overwriting ⟨"B", 0⟩ ∈ report.conflicts ∧
      Sample.overwriting ⟨"C", 0⟩ ∈ report'.conflicts ∧
      ∃ d, (Sample.overwriting ⟨"B", 0⟩).UseDistance Sample.branching.graph report.regions d ∧
        (Sample.overwriting ⟨"C", 0⟩).UseDistance Sample.reversed.graph report'.regions d := by
  obtain ⟨report, hreport, -, -, hviolations, hconflicts⟩ :=
    analyze_of_analyzeFor Sample.analyzeFor_branching
  obtain ⟨report', hreport', -, -, hviolations', hconflicts'⟩ :=
    analyze_of_analyzeFor Sample.analyzeFor_reversed
  obtain ⟨-, hsame⟩ := block_order_irrelevant Sample.branching Sample.reversed
    Sample.branching_rearranged (not_stopped_of_ok hreport) (not_stopped_of_ok hreport')
  obtain ⟨-, hregions, hmatched, hconflictsMatched⟩ := hsame report report' hreport hreport'
  rw [hviolations, hviolations'] at hmatched
  rw [hconflicts, hconflicts'] at hconflictsMatched
  obtain ⟨-, hnone | hdistance⟩ := hconflictsMatched.singleton
  · cases hnone.1
  · refine ⟨report, report', hreport, hreport', hregions, ?_, ?_, ?_, hdistance⟩
    · rw [hviolations, hviolations']
      exact ⟨_, List.mem_cons_self, _, List.mem_cons_self, hmatched.singleton⟩
    · rw [hconflicts]
      exact List.mem_cons_self
    · rw [hconflicts']
      exact List.mem_cons_self

end RegionInference
