import RegionInference.Proofs.ConflictRules
import RegionInference.Proofs.LeastSolution
import RegionInference.Proofs.Limits

/-!
# What an analysis can fail with

The parts of a body fit together, and every phase of an analysis relies on no more than that. The
locals that are live are declared, so the live lifetimes of each point are found
(`Liveness.Ran.exists_lifetimesAt`). What the body demands is about its own lifetimes and points, so
the set of constraints takes it (`ConstraintSet.ends_ofBody`). What is declared fits the constraints
(`Body.wellDeclared`), and in every state that solving passes through each lifetime has its region
(`Problem.Passes.contains`). The facts, given or derived, are about points of the graph and
lifetimes with regions, so conflicts are found (`Body.exists_conflicts`).

So an analysis in which violations are recorded returns a report, or it fails because what the body
demands cannot be found or because a limit stops it (`Body.ends_analyze`). The first is so only
where types do not fit (`Body.clash_of_ofBody`).
-/

namespace RegionInference

/-! ### Generating constraints -/

/-- The lifetimes that are live at a point can be found, since live locals are declared. -/
theorem Liveness.Ran.exists_lifetimesAt {body : Body} {order : Order} {limit : Nat}
    {liveness : Liveness} (h : Ran body order limit liveness) {i : Nat} (hi : i < body.graph.size) :
    ∃ names, liveness.lifetimesAt i = .ok names := by
  have hdeclared : ∀ (aspect : Aspect) (v : String), v ∈ aspect.part (liveness.factAt i) →
      ∃ found, liveness.body.var v = .ok found := by
    intro aspect v hv
    obtain ⟨p, k, -, -, ⟨element, helement, hevent⟩, -⟩ := (h.mem_factAt_iff aspect hi).1 hv
    rw [h.body_eq]
    refine Body.exists_var helement ?_
    cases aspect with
    | read => simp [Element.names, show v ∈ element.uses from hevent]
    | drop => simp [Element.names, show v ∈ element.drops from hevent]
  obtain ⟨read, hread⟩ : ∃ read, (liveness.factAt i).1.toList.mapM (typeLifetimes liveness.body) =
      .ok read := by
    refine exists_mapM fun v hv => ?_
    obtain ⟨found, hfound⟩ := hdeclared .read v hv
    exact ⟨_, by rw [typeLifetimes, hfound]; rfl⟩
  obtain ⟨dropped, hdropped⟩ : ∃ dropped,
      (liveness.factAt i).2.toList.mapM liveness.body.nonDangling = .ok dropped := by
    refine exists_mapM fun v hv => ?_
    obtain ⟨found, hfound⟩ := hdeclared .drop v hv
    exact ⟨_, by rw [Body.nonDangling, hfound]; rfl⟩
  unfold lifetimesAt
  dsimp only
  rw [hread, hdropped]
  exact ⟨_, rfl⟩

namespace ConstraintSet

/-- An open set takes a demand about its own lifetimes and points. -/
theorem exists_addOutlives {set : ConstraintSet} {longer shorter : String} {point : Point}
    (origin : Origin) (hopen : set.frozen = false) (hlonger : longer ∈ set.lifetimes)
    (hshorter : shorter ∈ set.lifetimes) (hpoint : ∃ i, set.graph.index? point = some i) :
    ∃ next added, set.addOutlives longer shorter point origin = .ok (next, added) := by
  obtain ⟨i, hi⟩ := hpoint
  have hcheck : set.check point [longer, shorter] = .ok i := by
    refine check_eq_ok.2 ⟨hopen, fun l hl => ?_, hi⟩
    rcases List.mem_pair.1 hl with rfl | rfl
    · exact hlonger
    · exact hshorter
  unfold addOutlives
  rw [hcheck]
  simp only [bind, Except.bind]
  split
  · exact ⟨_, _, rfl⟩
  · split
    · exact ⟨_, _, rfl⟩
    · exact ⟨_, _, rfl⟩

/-- An open set over the graph and the lifetimes of a body takes all demands that fit the body. -/
theorem exists_addDemands {body : Body} {set : ConstraintSet} {demands : List Demand}
    (hopen : set.frozen = false) (hgraph : set.graph = body.graph)
    (hlifetimes : ∀ l ∈ body.lifetimes.map Lifetime.name, l ∈ set.lifetimes)
    (hfits : ∀ demand ∈ demands, demand.Fits body) : ∃ next, set.addDemands demands = .ok next := by
  unfold addDemands
  induction demands generalizing set with
  | nil => exact ⟨set, rfl⟩
  | cons demand demands ih =>
    have hfit := hfits demand List.mem_cons_self
    obtain ⟨next, added, hadd⟩ := exists_addOutlives demand.origin hopen
      (hlifetimes _ hfit.longer) (hlifetimes _ hfit.shorter) (hgraph ▸ hfit.point)
    rw [List.foldlM_cons, hadd]
    have hsame : next.frozen = set.frozen ∧ next.graph = set.graph ∧
        next.lifetimes = set.lifetimes := by
      obtain ⟨-, i, -, ⟨rfl, -⟩ | rfl⟩ := addOutlives_cases hadd <;> exact ⟨rfl, rfl, rfl⟩
    obtain ⟨hfrozen, hgraph', hlifetimes'⟩ := hsame
    refine ih (hfrozen.trans hopen) (hgraph'.trans hgraph) ?_
      fun other hother => hfits other (List.mem_cons_of_mem _ hother)
    rwa [hlifetimes']

/-- The constraints of a body are generated iff what it demands is. -/
theorem ends_ofBody {body : Body} {order : Order} {limit : Nat} {liveness : Liveness}
    (h : Liveness.Ran body order limit liveness) :
    Ends (fun _ => ∃ demands, Demand.ofBody body = .ok demands) (Demand.ofBody body = .error ·)
      (ofBody body liveness) := by
  obtain ⟨rows, hrows⟩ : ∃ rows, (body.graph.points.zipIdx.mapM fun pair =>
      liveHere liveness pair.1 pair.2) = .ok rows := by
    refine exists_mapM ?_
    rintro ⟨point, i⟩ hpoint
    obtain ⟨names, hnames⟩ :=
      h.exists_lifetimesAt (Graph.lt_size_of_index? (Graph.mem_zipIdx_points.1 hpoint))
    exact ⟨_, by rw [liveHere, hnames]; rfl⟩
  have hlive : liveOf body liveness = .ok rows.flatten := by
    unfold liveOf
    rw [hrows]
    rfl
  unfold ofBody
  refine .bind_of_eq_ok hlive ?_
  cases hdemands : Demand.ofBody body with
  | error fault => exact .bind_of_eq_error rfl rfl
  | ok demands =>
    have hends := Demand.ends_ofBody body
    rw [hdemands] at hends
    let opened : ConstraintSet :=
      (ConstraintSet.new body.graph (body.lifetimes.map Lifetime.name)).appendLive rows.flatten
    have hopen : opened.frozen = false := rfl
    obtain ⟨next, hnext⟩ :=
      exists_addDemands hopen rfl (fun l hl => List.mem_eraseDups.2 hl) hends
    exact .bind_of_eq_ok rfl (.bind_of_eq_ok hnext ⟨demands, rfl⟩)

end ConstraintSet

/-! ### Solving -/

namespace Body

/-- The listed points of a placeholder are points of the graph. -/
theorem exists_index_of_placeholder {body : Body} {lifetime : Lifetime}
    (h : lifetime ∈ body.placeholders) {point : Point} (hpoint : point ∈ lifetime.fixed.getD []) :
    ∃ i, body.graph.index? point = some i := by
  obtain ⟨-, hvalid, -⟩ := body.faultless
  revert hvalid h
  generalize body.placeholders = lifetimes
  generalize ([] : List String) = seen
  intro h hvalid
  induction lifetimes generalizing seen with
  | nil => cases h
  | cons first lifetimes ih =>
    rw [BodyParts.placeholderFault?] at hvalid
    split at hvalid
    · cases hvalid
    · split at hvalid
      · cases hvalid
      · next hnone =>
        rcases List.mem_cons.1 h with rfl | hrest
        · have hknown := List.find?_eq_none.1 hnone point hpoint
          exact Option.ne_none_iff_exists'.1 (by simpa [Graph.contains] using hknown)
        · exact ih _ hrest hvalid

/-- What a body declares fits its constraints. -/
theorem wellDeclared {body : Body} {set : ConstraintSet} (options : SolveOptions)
    (hgraph : set.graph = body.graph)
    (hlifetimes : set.lifetimes = (body.lifetimes.map Lifetime.name).eraseDups) :
    Problem.WellDeclared { constraints := set, declared := body.declared, options } where
  known l hl := by
    rw [hlifetimes, List.mem_eraseDups]
    simpa [declared, NameMap.keys] using hl
  placed l _ lifetime hget hkind _ point hpoint := by
    obtain ⟨_, hmem, heq⟩ := List.mem_map.1 (NameMap.mem_entries_of_get? hget)
    cases heq
    rw [hgraph]
    rcases List.mem_append.1 hmem with hplaceholder | hmentioned
    · exact exists_index_of_placeholder hplaceholder hpoint
    · -- what is only mentioned is no placeholder
      obtain ⟨name, -, rfl⟩ := List.mem_map.1 hmentioned
      cases hkind

end Body

namespace Problem

variable {problem : Problem}

/-- What is well declared is solved, unless a limit stops it. -/
theorem WellDeclared.ends_solve (h : problem.WellDeclared)
    (hstrict : problem.options.strict = false) (initial : NameMap PointSet) :
    Ends (fun _ => True) Fault.IsLimit (problem.solve initial) := by
  obtain ⟨first, hfirst⟩ := exists_start initial h.placed
  obtain ⟨second, hsecond⟩ := exists_runLive hstrict first
  unfold solve
  split
  · next l hfind =>
    have hunknown : l ∉ problem.constraints.lifetimes := by simpa using List.find?_some hfind
    exact absurd (h.known l (List.mem_of_find?_eq_some hfind)) hunknown
  · refine .bind_of_eq_ok hfirst (.bind_of_eq_ok hsecond ?_)
    exact (ends_run hstrict second).bind fun _ _ => trivial

/-- The states that solving passes through: it starts, applies constraints on points, and makes
rounds. -/
inductive Passes (problem : Problem) : State → Prop where
  /-- Where solving starts. -/
  | start {state : State} : problem.start {} = .ok state → Passes problem state
  /-- A constraint on a point is applied. -/
  | live {state next : State} {c : LiveAt} {grew : Bool} : Passes problem state →
      c ∈ problem.constraints.live → problem.grow state (.live c) = .ok (next, grew) →
      Passes problem next
  /-- A round is made. -/
  | round {state next : State} {c : Outlives} {work : List Outlives} : Passes problem state →
      state.work = c :: work → problem.advance state c work = .ok next → Passes problem next

/-- Growing a region loses none. -/
theorem contains_of_grow {state next : State} {c : Constraint} {grew : Bool}
    (h : problem.grow state c = .ok (next, grew)) {l : String}
    (hl : state.regions.contains l = true) : next.regions.contains l = true := by
  rcases regions_of_grow h with hsame | ⟨-, hset⟩
  · rwa [hsame]
  · rw [hset, NameMap.contains, NameMap.get?_set]
    split
    · rfl
    · exact hl

namespace Passes

variable {state : State}

/-- In every state that solving passes through, each lifetime has a region. -/
theorem contains (h : problem.Passes state) {l : String} (hl : l ∈ problem.constraints.lifetimes) :
    state.regions.contains l = true := by
  induction h with
  | start hstart =>
    obtain ⟨region, hregion⟩ := NameMap.exists_get?_of_mem ((start_eq_ok hstart).1.symm ▸ hl)
    rw [NameMap.contains, hregion]
    rfl
  | live _ _ hgrow ih => exact contains_of_grow hgrow ih
  | round _ _ hadvance ih =>
    obtain ⟨grown, grew, hgrow, rfl⟩ := advance_eq_ok hadvance
    have hgrown := contains_of_grow hgrow ih
    split <;> exact hgrown

/-- Only constraints of the problem are on the worklist. -/
theorem mem_outlives (h : problem.Passes state) :
    ∀ c ∈ state.work, c ∈ problem.constraints.outlives := by
  induction h with
  | start hstart =>
    rw [(start_eq_ok hstart).2.2.1]
    exact fun _ hc => hc
  | live _ _ hgrow ih => rwa [work_of_grow hgrow]
  | round _ hwork hadvance ih => exact listed_advance hwork ih hadvance

end Passes

end Problem

/-! ### Conflicts -/

namespace LoanFacts

variable {body : Body} {point : Point} {element : Element}

/-- An access is made if the local of its path is there. -/
theorem exists_access {path : Place} (h : ∃ found, body.var path.base = .ok found)
    (kind : AccessKind) (point : Point) (shallow : Bool) :
    ∃ made, access body kind path point shallow = .ok made := by
  obtain ⟨through, hthrough⟩ : ∃ through, body.through path = .ok through := by
    unfold Body.through
    split
    · exact ⟨none, rfl⟩
    · next depth _ =>
      have hbase : ∃ found, body.var (path.take depth).base = .ok found := h
      obtain ⟨ty, hty⟩ := Body.exists_placeType hbase
      exact ⟨_, by rw [hty]; rfl⟩
  exact ⟨_, by rw [access, hthrough]; rfl⟩

/-- The accesses of an operand are made if its locals are there. -/
theorem exists_operandAccess {operand : Operand}
    (h : ∀ v ∈ operand.uses, ∃ found, body.var v = .ok found) (point : Point) :
    ∃ made, operandAccess body point operand = .ok made := by
  cases operand with
  | copy place =>
    obtain ⟨made, hmade⟩ := exists_access (h place.base List.mem_cons_self) .read point false
    exact ⟨_, by rw [operandAccess, hmade]; rfl⟩
  | move place =>
    obtain ⟨made, hmade⟩ := exists_access (h place.base List.mem_cons_self) .move point false
    exact ⟨_, by rw [operandAccess, hmade]; rfl⟩
  | const value => exact ⟨[], rfl⟩

/-- The accesses of some operands are made if their locals are there. -/
theorem exists_operandAccesses {operands : List Operand}
    (h : ∀ v ∈ operands.flatMap Operand.uses, ∃ found, body.var v = .ok found) (point : Point) :
    ∃ made, operandAccesses body point operands = .ok made := by
  obtain ⟨rows, hrows⟩ := exists_mapM (f := operandAccess body point) fun operand hoperand =>
    exists_operandAccess (fun v hv => h v (List.mem_flatMap.2 ⟨operand, hoperand, hv⟩)) point
  exact ⟨_, by rw [operandAccesses, hrows]; rfl⟩

/-- The accesses of an element can be found. -/
theorem exists_accessesAt (hitem : (point, element) ∈ body.graph.items) :
    ∃ made, accessesAt body point element = .ok made := by
  have hvar : ∀ v ∈ element.names, ∃ found, body.var v = .ok found :=
    fun v hv => body.exists_var_of_item hitem hv
  unfold accessesAt
  split
  · next place lifetime mutable borrowed =>
    have hborrowed := hvar borrowed.base (Body.mem_names_of_uses List.mem_cons_self)
    obtain ⟨read, hread⟩ := exists_access hborrowed (if mutable then .write else .read) point false
    obtain ⟨written, hwritten⟩ :=
      exists_access (hvar place.base (by simp [Element.names])) .write point true
    rw [hread, hwritten]
    exact ⟨_, rfl⟩
  · next place rvalue hother =>
    have huses : ∀ v ∈ rvalue.operands.flatMap Operand.uses, v ∈ rvalue.uses := by
      intro v hv
      cases rvalue with
      | borrow lifetime mutable borrowed => exact absurd rfl (hother lifetime mutable borrowed)
      | use operand => exact hv
      | call func args params result => exact hv
      | const value => exact hv
    obtain ⟨read, hread⟩ := exists_operandAccesses
      (fun v hv => hvar v (Body.mem_names_of_uses (huses v hv))) point
    obtain ⟨written, hwritten⟩ :=
      exists_access (hvar place.base (by simp [Element.names])) .write point true
    rw [hread, hwritten]
    exact ⟨_, rfl⟩
  · next operands =>
    refine exists_operandAccesses (fun v hv => hvar v ?_) point
    have huses : v ∈ Element.uses (.stmt (.use operands)) := List.mem_eraseDups.2 hv
    simp [Element.names, huses]
  · next name =>
    have hname : ∃ found, body.var (⟨name, []⟩ : Place).base = .ok found :=
      hvar name (by simp [Element.names, Element.drops, Statement.drops])
    obtain ⟨written, hwritten⟩ := exists_access hname .write point true
    rw [hwritten]
    exact ⟨_, rfl⟩
  · next operand targets =>
    refine exists_operandAccess (fun v hv => hvar v ?_) point
    have huses : v ∈ Element.uses (.term (.switch operand targets)) := hv
    simp [Element.names, huses]
  · exact ⟨[], rfl⟩

end LoanFacts

namespace Body

variable {body : Body}

/-- A given fact that has no fault is about a point of the graph, and about a lifetime of the
body if it names one. -/
theorem of_factFault? {text name : String} {point : Point} {lifetime : Option String}
    (h : body.factFault? text point name lifetime = none) :
    (∃ i, body.graph.index? point = some i) ∧
      ∀ l, lifetime = some l → l ∈ body.lifetimes.map Lifetime.name := by
  unfold BodyParts.factFault? at h
  split at h
  · cases h
  · next hpoint =>
    split at h
    · cases h
    · refine ⟨Option.ne_none_iff_exists'.1 (by simpa [Graph.contains] using hpoint), ?_⟩
      rintro l rfl
      simpa using h

/-- Given facts have no fault. -/
theorem given_faultless (body : Body) :
    (∀ loan ∈ body.loans.getD [], body.factFault? loan.text loan.point loan.path.base
      (some loan.lifetime) = none) ∧
    (∀ access ∈ body.accesses.getD [], body.factFault? access.text access.point access.path.base
      access.through = none) ∧
    ∀ exit ∈ body.exits.getD [], body.factFault? exit.text exit.point exit.name none = none := by
  obtain ⟨-, -, -, -, hvalid⟩ := body.faultless
  simp only [BodyParts.factsFault?, Option.orElse_eq_orElse, Option.orElse_eq_or,
    Option.or_eq_none_iff, List.findSome?_eq_none_iff] at hvalid
  exact hvalid

/-- The facts about a body can be found. -/
theorem exists_facts (body : Body) : ∃ facts, body.facts = .ok facts := by
  obtain ⟨rows, hrows⟩ : ∃ rows, (body.graph.items.mapM fun item =>
      LoanFacts.accessesAt body item.1 item.2) = .ok rows :=
    exists_mapM fun item hitem => LoanFacts.exists_accessesAt hitem
  have hends : Ends (fun _ => True) (fun _ => False) body.facts := .bind_of_eq_ok hrows trivial
  obtain ⟨facts, hfacts, -⟩ := hends.exists_ok
  exact ⟨facts, hfacts⟩

section

variable {facts : LoanFacts}

/-- A loan is about a lifetime and a point of the body. -/
theorem placed_of_mem_loans (h : body.facts = .ok facts) {loan : Loan}
    (hloan : loan ∈ facts.loans) : loan.lifetime ∈ body.lifetimes.map Lifetime.name ∧
      ∃ i, body.graph.index? loan.point = some i := by
  obtain ⟨rows, -, h⟩ := exists_of_bind_eq_ok h
  cases h
  cases hgiven : body.loans with
  | some loans =>
    obtain ⟨hvalid, -⟩ := body.given_faultless
    rw [hgiven] at hloan hvalid
    obtain ⟨hpoint, hlifetime⟩ := of_factFault? (hvalid loan hloan)
    exact ⟨hlifetime _ rfl, hpoint⟩
  | none =>
    rw [hgiven] at hloan
    obtain ⟨⟨point, element⟩, hitem, hmade⟩ := List.mem_filterMap.1 hloan
    dsimp only [LoanFacts.loan?] at hmade
    split at hmade
    · cases hmade
      obtain ⟨i, hpoint, -⟩ := Graph.mem_items.1 hitem
      exact ⟨mem_lifetimes_of_element hitem List.mem_cons_self, i, hpoint⟩
    · cases hmade

/-- An access is at a point of the graph. -/
theorem placed_of_mem_accesses (h : body.facts = .ok facts) {access : Access}
    (haccess : access ∈ facts.accesses) : ∃ i, body.graph.index? access.point = some i := by
  obtain ⟨rows, hrows, h⟩ := exists_of_bind_eq_ok h
  cases h
  cases hgiven : body.accesses with
  | some accesses =>
    obtain ⟨-, hvalid, -⟩ := body.given_faultless
    rw [hgiven] at haccess hvalid
    exact (of_factFault? (hvalid access haccess)).1
  | none =>
    rw [hgiven] at haccess
    obtain ⟨row, hrow, hmem⟩ := List.mem_flatten.1 haccess
    obtain ⟨⟨point, element⟩, hitem, hmade⟩ := exists_of_mem_results hrows hrow
    obtain ⟨i, hpoint, -⟩ := Graph.mem_items.1 hitem
    rw [LoanFacts.point_of_mem_accessesAt hmade hmem]
    exact ⟨i, hpoint⟩

/-- A scope exit is at a point of the graph. -/
theorem placed_of_mem_exits (h : body.facts = .ok facts) {exit : ScopeExit}
    (hexit : exit ∈ facts.exits) : ∃ i, body.graph.index? exit.point = some i := by
  obtain ⟨rows, -, h⟩ := exists_of_bind_eq_ok h
  cases h
  cases hgiven : body.exits with
  | some exits =>
    obtain ⟨-, -, hvalid⟩ := body.given_faultless
    rw [hgiven] at hexit hvalid
    exact (of_factFault? (hvalid exit hexit)).1
  | none =>
    rw [hgiven] at hexit
    obtain ⟨⟨point, element⟩, hitem, hmade⟩ := List.mem_filterMap.1 hexit
    dsimp only [LoanFacts.exit?] at hmade
    split at hmade
    · cases hmade
      obtain ⟨i, hpoint, -⟩ := Graph.mem_items.1 hitem
      exact ⟨i, hpoint⟩
    · cases hmade

/-- Where each lifetime of the body has a region, conflicts are found. -/
theorem exists_conflicts (body : Body) (set : ConstraintSet) {regions : NameMap PointSet}
    (hregions : ∀ l ∈ body.lifetimes.map Lifetime.name, ∃ region, regions.get? l = some region) :
    ∃ conflicts, body.conflicts set regions = .ok conflicts := by
  obtain ⟨facts, hfacts⟩ := body.exists_facts
  have hplaced : Detector.Placed { body, regions, facts, constraints := set } :=
    { region := fun loan hloan => hregions _ (placed_of_mem_loans hfacts hloan).1
      loan := fun loan hloan => (placed_of_mem_loans hfacts hloan).2
      access := fun access haccess => placed_of_mem_accesses hfacts haccess
      exit := fun exit hexit => placed_of_mem_exits hfacts hexit }
  obtain ⟨found, hfound⟩ := hplaced.exists_detect
  unfold conflicts
  rw [hfacts]
  exact ⟨found, hfound⟩

end

/-! ### The whole analysis -/

/-- Where the constraints are solved, the analysis returns. -/
theorem exists_analyze_of_solve {settings : Settings} {liveness : Liveness} {set : ConstraintSet}
    {solution : Solution}
    (hlive : Liveness.run body settings.order settings.maxIterations = .ok liveness)
    (hset : ConstraintSet.ofBody body liveness = .ok set)
    (hsolution : Problem.solve
      { constraints := set, declared := body.declared, options := settings.solve } = .ok solution) :
    ∃ report, body.analyze settings = .ok report := by
  obtain ⟨limit, hran⟩ := Liveness.exists_ran hlive
  obtain ⟨hbuilt, -, hlifetimes⟩ := ConstraintSet.ofBody_built hran.body_eq hset
  obtain ⟨work, -, hprogress⟩ := Problem.progress_of_solve hbuilt hsolution
  obtain ⟨conflicts, hconflicts⟩ := body.exists_conflicts set fun l hl => by
    have hkeys : l ∈ solution.regions.keys := by
      rw [hprogress.keys]
      dsimp only
      rw [hlifetimes]
      exact List.mem_eraseDups.2 hl
    exact NameMap.exists_get?_of_mem hkeys
  obtain ⟨report, hreport, -⟩ := exists_analyze hlive hset hsolution hconflicts
  exact ⟨report, hreport⟩

/-- Where violations are recorded, an analysis returns, or what the body demands cannot be found, or
a limit stops it. -/
theorem ends_analyze (body : Body) {settings : Settings} (hstrict : settings.solve.strict = false) :
    Ends (fun _ => ∃ demands, Demand.ofBody body = .ok demands)
      (fun fault => Demand.ofBody body = .error fault ∨ fault.IsLimit) (body.analyze settings) := by
  have hlive := Liveness.ends_run body settings.order settings.maxIterations
  cases hrun : Liveness.run body settings.order settings.maxIterations with
  | error fault =>
    rw [hrun] at hlive
    exact .bind_of_eq_error hrun (.inr hlive)
  | ok liveness =>
    rw [hrun] at hlive
    obtain ⟨limit, hran⟩ := hlive
    have hgenerated := ConstraintSet.ends_ofBody hran
    cases hset : ConstraintSet.ofBody body liveness with
    | error fault =>
      rw [hset] at hgenerated
      exact .bind_of_eq_ok hrun (.bind_of_eq_error hset (.inl hgenerated))
    | ok set =>
      rw [hset] at hgenerated
      obtain ⟨-, hgraph, hlifetimes⟩ := ConstraintSet.ofBody_built hran.body_eq hset
      have hsolved := (wellDeclared settings.solve hgraph hlifetimes).ends_solve hstrict {}
      cases hsolution : Problem.solve
          { constraints := set, declared := body.declared, options := settings.solve } with
      | error fault =>
        rw [hsolution] at hsolved
        exact .bind_of_eq_ok hrun (.bind_of_eq_ok hset (.bind_of_eq_error hsolution (.inr hsolved)))
      | ok solution =>
        obtain ⟨report, hreport⟩ := exists_analyze_of_solve hrun hset hsolution
        exact .of_eq_ok hreport hgenerated

/-- What a body demands can be found, unless types do not fit. -/
theorem clash_of_ofBody {body : Body} {fault : Fault} (h : Demand.ofBody body = .error fault) :
    body.Clash fault := by
  have hends := Demand.ends_ofBody body
  rw [h] at hends
  exact hends

/-- A limit stops the analysis. -/
def Stopped (body : Body) (settings : Settings) : Prop :=
  ∃ fault, body.analyze settings = .error fault ∧ fault.IsLimit

/-- An analysis that returns was not stopped. -/
theorem not_stopped_of_ok {settings : Settings} {report : Report}
    (h : body.analyze settings = .ok report) : ¬body.Stopped settings := by
  rintro ⟨fault, hfault, -⟩
  rw [h] at hfault
  cases hfault

end Body

/-- The settings with a limit on the iterations of liveness, and one on the rounds of solving or
none. -/
def Settings.limited (settings : Settings) (iterations : Nat) (rounds : Option Nat) : Settings :=
  { settings with
    maxIterations := .count iterations
    solve := { settings.solve with maxRounds := rounds.map fun count => .count count } }

namespace Body

/-- Limits from some number on do not stop the analysis. -/
theorem exists_not_stopped (body : Body) {settings : Settings}
    (hstrict : settings.solve.strict = false) :
    ∃ enough, ∀ iterations rounds, enough ≤ iterations → (∀ count ∈ rounds, enough ≤ count) →
      ¬ body.Stopped (settings.limited iterations rounds) := by
  obtain ⟨enough, liveness, hlive⟩ := Liveness.exists_run_above body settings.order
  obtain ⟨limit, hran⟩ := Liveness.exists_ran (hlive enough le_rfl)
  cases hset : ConstraintSet.ofBody body liveness with
  | error fault =>
    have hends := ConstraintSet.ends_ofBody hran
    rw [hset] at hends
    obtain ⟨-, sub, sup, rfl⟩ := clash_of_ofBody hends
    refine ⟨enough, fun iterations rounds hiterations _ => ?_⟩
    have hends : Ends (fun _ => False) (¬ Fault.IsLimit ·)
        (body.analyze (settings.limited iterations rounds)) :=
      .bind_of_eq_ok (hlive iterations hiterations) (.bind_of_eq_error hset not_false)
    rintro ⟨fault, hfault, hstopped⟩
    rw [hfault] at hends
    exact hends hstopped
  | ok set =>
    obtain ⟨-, hgraph, hlifetimes⟩ := ConstraintSet.ofBody_built hran.body_eq hset
    -- the run without a limit on its rounds tells how many are enough
    let problem : Problem := { constraints := set, declared := body.declared
                               options := { settings.solve with maxRounds := none } }
    have hdeclared := wellDeclared problem.options hgraph hlifetimes
    obtain ⟨first, hfirst⟩ := Problem.exists_start {} hdeclared.placed
    obtain ⟨second, hsecond⟩ : ∃ second, problem.runLive first = .ok second :=
      Problem.exists_runLive hstrict first
    obtain ⟨final, hfinal, -⟩ : ∃ final, problem.run second = .ok final ∧ final.work = [] :=
      Problem.exists_run rfl hstrict second
    refine ⟨max enough final.rounds, fun iterations rounds hiterations hrounds => ?_⟩
    let other : Problem := problem.limited (rounds.map fun count => .count count)
    have hrun : other.run second = .ok final := by
      cases rounds with
      | none => exact hfinal
      | some count =>
        exact (Problem.run_limited rfl hfinal).2 count
          ((le_max_right _ _).trans (hrounds count rfl))
    have hsolution := @Problem.solve_of_steps other {} hdeclared.known first second final hfirst
      hsecond hrun
    have hlive' := hlive iterations ((le_max_left _ _).trans hiterations)
    obtain ⟨report, hreport⟩ : ∃ report,
        body.analyze (settings.limited iterations rounds) = .ok report :=
      exists_analyze_of_solve hlive' hset hsolution
    exact not_stopped_of_ok hreport

/-- **Failures are mismatches of types.** Whatever a body is made of, an analysis of it in which
violations are recorded and that no limit stops returns a report or fails with a mismatch, and it
fails iff the body relates two types of different shapes. Limits can be set so high that they do not
stop it. In every state that solving passes through, only constraints of the body are to be applied,
and all lifetimes that they name have their regions. -/
theorem analyze_fails_only_on_mismatch (body : Body) (hbody : body.WellFormed) (settings : Settings)
    (hstrict : settings.solve.strict = false) :
    (¬ body.Stopped settings →
      ((∃ report, body.analyze settings = .ok report) ∨
        ∃ sub sup, body.analyze settings = .error (.badType (.mismatch sub sup))) ∧
      ((∃ sub sup, body.analyze settings = .error (.badType (.mismatch sub sup))) ↔
        body.Mismatched)) ∧
    (∃ enough, ∀ iterations rounds, enough ≤ iterations → (∀ count ∈ rounds, enough ≤ count) →
      ¬ body.Stopped (settings.limited iterations rounds)) ∧
    ∀ liveness set, Liveness.run body settings.order settings.maxIterations = .ok liveness →
      ConstraintSet.ofBody body liveness = .ok set → ∀ state,
      Problem.Passes { constraints := set, declared := body.declared, options := settings.solve }
        state →
      (∀ c ∈ state.work, c ∈ set.outlives) ∧
      ∀ c ∈ set.toList, state.regions.contains c.target = true ∧
        ∀ source, c.source? = some source → state.regions.contains source = true := by
  refine ⟨fun hfree => ?_, body.exists_not_stopped hstrict, ?_⟩
  · have hends := body.ends_analyze hstrict
    cases hresult : body.analyze settings with
    | ok report =>
      rw [hresult] at hends
      obtain ⟨demands, hdemands⟩ := hends
      refine ⟨.inl ⟨report, rfl⟩, ?_, ?_⟩
      · rintro ⟨sub, sup, herror⟩
        cases herror
      · rintro ⟨s, t, hrelated, hdiffer⟩
        exact absurd (shape_eq_of_ofBody hbody hdemands hrelated) hdiffer
    | error fault =>
      rw [hresult] at hends
      have hdemands : Demand.ofBody body = .error fault :=
        hends.resolve_right fun hlimit => hfree ⟨fault, hresult, hlimit⟩
      obtain ⟨hmismatched, sub, sup, rfl⟩ := clash_of_ofBody hdemands
      exact ⟨.inr ⟨sub, sup, rfl⟩, fun _ => hmismatched, fun _ => ⟨sub, sup, rfl⟩⟩
  · intro liveness set hlive hset state hpasses
    obtain ⟨limit, hran⟩ := Liveness.exists_ran hlive
    have hbuilt := (ConstraintSet.ofBody_built hran.body_eq hset).1
    refine ⟨hpasses.mem_outlives, fun c hc => ⟨hpasses.contains (hbuilt.target_mem hc), ?_⟩⟩
    intro source hsource
    exact hpasses.contains (hbuilt.source_mem hc hsource)

end Body

/-! ### A body whose types do not fit -/

namespace Sample

/-- A wrapper around a reference is copied over one around a reference to something else. -/
def clashing : Body where
  name := "clashing"
  graph := .build
    [{ name := "A"
       statements := [.assign ⟨"y", []⟩ (.use (.copy ⟨"x", []⟩))]
       terminator := .ret }]
    "A" (by decide) (by decide) (by decide)
  vars := [⟨"x", .cell (.ref "a" false (.scalar "i32"))⟩,
    ⟨"y", .cell (.ref "b" false (.scalar "u8"))⟩]
  valid := by decide

/-- The types of the body are well formed. -/
theorem clashing_wellFormed : clashing.WellFormed := by
  have htypes : clashing.types = [.cell (.ref "a" false (.scalar "i32")),
    .cell (.ref "b" false (.scalar "u8"))] := rfl
  intro ty hty
  rw [htypes] at hty
  rcases List.mem_pair.1 hty with rfl | rfl <;> exact ⟨rfl, rfl, trivial, trivial⟩

/-- It relates types of different shapes. -/
theorem clashing_mismatched : clashing.Mismatched := by
  have hitem : (⟨"A", 0⟩, .stmt (.assign ⟨"y", []⟩ (.use (.copy ⟨"x", []⟩)))) ∈
    clashing.graph.items := List.mem_cons_self
  refine ⟨_, _, .stored hitem rfl rfl, ?_⟩
  simp [Ty.shape, Ty.shapes, Ty.cell]

end Sample

/-- The analysis of the sample body fails with a mismatch, whatever the limits are if they are high
enough. -/
theorem Body.copy_of_other_shape_fails :
    ∃ enough, ∀ iterations ≥ enough, ∃ sub sup,
      Sample.clashing.analyze (Settings.limited {} iterations none) =
        .error (.badType (.mismatch sub sup)) := by
  obtain ⟨-, ⟨enough, henough⟩, -⟩ :=
    analyze_fails_only_on_mismatch Sample.clashing Sample.clashing_wellFormed {} rfl
  refine ⟨enough, fun iterations hiterations => ?_⟩
  have hfree := henough iterations none hiterations (by simp)
  have hfails := (analyze_fails_only_on_mismatch Sample.clashing Sample.clashing_wellFormed
    (Settings.limited {} iterations none) rfl).1 hfree
  exact hfails.2.2 Sample.clashing_mismatched

end RegionInference
