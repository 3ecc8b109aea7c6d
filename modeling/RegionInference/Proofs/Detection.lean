import RegionInference.Loan.Derive
import RegionInference.Proofs.UseSites

/-!
# What detection reports

A loan is active where a path of at least one step leads from the borrow without leaving the region
of the loan (`Detector.mem_reachAfter`). The conflicts of a loan are those with accesses that touch
and invalidate it and those with the end of the storage of what is on loan
(`Detector.mem_conflictsOf`). All of them are reported (`Detector.reported_of_invalidates`,
`Detector.reported_of_escapes`): of all conflicts about one loan and one action detection keeps the
first. The facts that detection goes by are those of the elements, unless facts are given
(`Body.facts_eq_ok`).
-/

namespace RegionInference

/-- A filter that may fail keeps what passes the test. -/
theorem mem_filterM {α : Type} {f : α → Except ε Bool} {items kept : List α}
    (h : items.filterM f = .ok kept) {a : α} : a ∈ kept ↔ a ∈ items ∧ f a = .ok true := by
  -- what has been kept so far stands in the accumulator
  have haux : ∀ (items acc : List α) {kept : List α}, items.filterAuxM f acc = .ok kept →
      (a ∈ kept ↔ a ∈ acc ∨ (a ∈ items ∧ f a = .ok true)) := by
    intro items
    induction items with
    | nil =>
      intro acc kept h
      cases h
      simp
    | cons item items ih =>
      intro acc kept h
      rw [List.filterAuxM] at h
      obtain ⟨passes, hpasses, h⟩ := exists_of_bind_eq_ok h
      rw [ih _ h]
      cases passes with
      | true =>
        rw [cond_true, List.mem_cons, List.mem_cons]
        constructor
        · rintro ((rfl | hacc) | ⟨hmem, hpass⟩)
          · exact .inr ⟨.inl rfl, hpasses⟩
          · exact .inl hacc
          · exact .inr ⟨.inr hmem, hpass⟩
        · rintro (hacc | ⟨rfl | hmem, hpass⟩)
          · exact .inl (.inr hacc)
          · exact .inl (.inl rfl)
          · exact .inr ⟨hmem, hpass⟩
      | false =>
        rw [cond_false, List.mem_cons]
        refine or_congr_right ⟨fun ⟨hmem, hpass⟩ => ⟨.inr hmem, hpass⟩, ?_⟩
        rintro ⟨rfl | hmem, hpass⟩
        · rw [hpasses] at hpass
          cases hpass
        · exact ⟨hmem, hpass⟩
  unfold List.filterM at h
  obtain ⟨found, hfound, h⟩ := exists_of_bind_eq_ok h
  cases h
  rw [List.mem_reverse, haux items [] hfound]
  simp

/-- If the test succeeds for each item, a filter does. -/
theorem exists_filterM {α : Type} {f : α → Except ε Bool} {items : List α}
    (h : ∀ a ∈ items, ∃ passes, f a = .ok passes) : ∃ kept, items.filterM f = .ok kept := by
  have haux : ∀ acc : List α, ∃ kept, items.filterAuxM f acc = .ok kept := by
    induction items with
    | nil => exact fun acc => ⟨acc, rfl⟩
    | cons item items ih =>
      intro acc
      obtain ⟨passes, hpasses⟩ := h item List.mem_cons_self
      rw [List.filterAuxM, hpasses]
      exact ih (fun a ha => h a (List.mem_cons_of_mem _ ha)) _
  obtain ⟨kept, hkept⟩ := haux []
  unfold List.filterM
  rw [hkept]
  exact ⟨kept.reverse, rfl⟩

/-- What a step gives for the items that pass a test. -/
theorem mem_results_of_filterM {α β : Type} {f : α → Except ε Bool} {g : α → Except ε β}
    {items : List α} {found : List β}
    (h : (do let kept ← items.filterM f; kept.mapM g) = .ok found) {b : β} :
    b ∈ found ↔ ∃ a ∈ items, f a = .ok true ∧ g a = .ok b := by
  obtain ⟨kept, hkept, h⟩ := exists_of_bind_eq_ok h
  constructor
  · intro hb
    obtain ⟨a, ha, heq⟩ := exists_of_mem_results h hb
    obtain ⟨hmem, hpasses⟩ := (mem_filterM hkept).1 ha
    exact ⟨a, hmem, hpasses, heq⟩
  · rintro ⟨a, ha, hpasses, heq⟩
    obtain ⟨b', hb', heq'⟩ := exists_of_mem_mapM h ((mem_filterM hkept).2 ⟨ha, hpasses⟩)
    rw [heq] at heq'
    cases heq'
    exact hb'

/-- If test and step succeed for each item, they give a list. -/
theorem exists_results_of_filterM {α β : Type} {f : α → Except ε Bool} {g : α → Except ε β}
    {items : List α} (htest : ∀ a ∈ items, ∃ passes, f a = .ok passes)
    (hstep : ∀ a ∈ items, ∃ b, g a = .ok b) :
    ∃ found, (do let kept ← items.filterM f; kept.mapM g) = .ok found := by
  obtain ⟨kept, hkept⟩ := exists_filterM htest
  have hkeptStep : ∀ a ∈ kept, ∃ b, g a = .ok b :=
    fun a ha => hstep a ((mem_filterM hkept).1 ha).1
  obtain ⟨found, hfound⟩ := exists_mapM hkeptStep
  rw [hkept]
  exact ⟨found, hfound⟩

namespace Conflict

/-- A loan is reported to be in conflict with an action at a point. -/
def Reported (conflicts : List Conflict) (loan : Loan) (point : Point) (cause : Cause) : Prop :=
  ∃ conflict ∈ conflicts, conflict.loan.point = loan.point ∧
    conflict.loan.lifetime = loan.lifetime ∧ conflict.loan.path = loan.path ∧
    conflict.point = point ∧ conflict.cause = cause

/-- Conflicts are about one loan and one action if they agree in what tells them apart. -/
theorem sameKey_iff {a b : Conflict} : a.sameKey b = true ↔
    a.loan.point = b.loan.point ∧ a.loan.lifetime = b.loan.lifetime ∧
      a.loan.path = b.loan.path ∧ a.point = b.point ∧ a.cause = b.cause := by
  unfold sameKey
  simp only [Bool.and_eq_true, beq_iff_eq, and_assoc]

end Conflict

namespace Detector

/-- Of conflicts about one loan and one action one is kept. -/
theorem exists_mem_firstOfEach {conflicts : List Conflict} {conflict : Conflict}
    (h : conflict ∈ conflicts) : ∃ kept ∈ firstOfEach conflicts, kept.sameKey conflict = true := by
  induction conflicts with
  | nil => cases h
  | cons first conflicts ih =>
    rw [firstOfEach]
    rcases List.mem_cons.1 h with rfl | hrest
    · exact ⟨conflict, List.mem_cons_self, Conflict.sameKey_iff.2 ⟨rfl, rfl, rfl, rfl, rfl⟩⟩
    · obtain ⟨kept, hkept, hsame⟩ := ih hrest
      by_cases hfirst : first.sameKey kept = true
      · refine ⟨first, List.mem_cons_self, ?_⟩
        rw [Conflict.sameKey_iff] at hsame hfirst ⊢
        exact ⟨hfirst.1.trans hsame.1, hfirst.2.1.trans hsame.2.1, hfirst.2.2.1.trans hsame.2.2.1,
          hfirst.2.2.2.1.trans hsame.2.2.2.1, hfirst.2.2.2.2.trans hsame.2.2.2.2⟩
      · refine ⟨kept, List.mem_cons_of_mem _ (List.mem_filter.2 ⟨hkept, ?_⟩), hsame⟩
        simpa using hfirst

/-- What is kept was there. -/
theorem mem_of_mem_firstOfEach {conflicts : List Conflict} {conflict : Conflict}
    (h : conflict ∈ firstOfEach conflicts) : conflict ∈ conflicts := by
  induction conflicts with
  | nil => cases h
  | cons first conflicts ih =>
    rw [firstOfEach] at h
    rcases List.mem_cons.1 h with rfl | hrest
    · exact List.mem_cons_self
    · exact List.mem_cons_of_mem _ (ih (List.mem_filter.1 hrest).1)

/-- A point can be reached after another one if it can be reached from one that follows. -/
theorem mem_reachAfter {g : Graph} {start : Nat} {region : PointSet} {i : Nat} :
    i ∈ reachAfter g start region ↔ ∃ next ∈ g.succ start, i ∈ g.reachWithin next region := by
  have hfold : ∀ (points : List Nat) (set : PointSet),
      i ∈ points.foldl (fun set next => set.union (g.reachWithin next region)) set ↔
        i ∈ set ∨ ∃ next ∈ points, i ∈ g.reachWithin next region := by
    intro points
    induction points with
    | nil => simp
    | cons point points ih =>
      intro set
      rw [List.foldl_cons, ih, PointSet.mem_union, or_assoc]
      simp
  unfold reachAfter
  rw [hfold]
  simp

section

variable {detector : Detector} {conflicts : List Conflict} {loan : Loan}

/-- What is reported are the conflicts of the loans, the first of each, sorted. -/
theorem detect_eq_ok (h : detector.detect = .ok conflicts) :
    ∃ rows, detector.facts.loans.mapM detector.conflictsOf = .ok rows ∧
      conflicts = (firstOfEach rows.flatten).mergeSort (listedBefore detector.graph) := by
  unfold detect at h
  obtain ⟨rows, hrows, h⟩ := exists_of_bind_eq_ok h
  cases h
  exact ⟨rows, hrows, rfl⟩

/-- The conflicts of a loan are reported. -/
theorem exists_of_detect (h : detector.detect = .ok conflicts)
    (hloan : loan ∈ detector.facts.loans) :
    ∃ found, detector.conflictsOf loan = .ok found ∧
      ∀ conflict ∈ found,
        Conflict.Reported conflicts conflict.loan conflict.point conflict.cause := by
  obtain ⟨rows, hrows, rfl⟩ := detect_eq_ok h
  obtain ⟨found, hfound, hconflicts⟩ := exists_of_mem_mapM hrows hloan
  refine ⟨found, hconflicts, fun conflict hconflict => ?_⟩
  obtain ⟨kept, hkept, hsame⟩ :=
    exists_mem_firstOfEach (List.mem_flatten.2 ⟨found, hfound, hconflict⟩)
  exact ⟨kept, List.mem_mergeSort.2 hkept, Conflict.sameKey_iff.1 hsame⟩

/-- What is reported is a conflict of a loan. -/
theorem exists_of_mem_detect (h : detector.detect = .ok conflicts) {conflict : Conflict}
    (hmem : conflict ∈ conflicts) :
    ∃ loan ∈ detector.facts.loans, ∃ found, detector.conflictsOf loan = .ok found ∧
      conflict ∈ found := by
  obtain ⟨rows, hrows, rfl⟩ := detect_eq_ok h
  obtain ⟨found, hfound, hconflict⟩ :=
    List.mem_flatten.1 (mem_of_mem_firstOfEach (List.mem_mergeSort.1 hmem))
  obtain ⟨loan, hloan, hconflicts⟩ := exists_of_mem_results hrows hfound
  exact ⟨loan, hloan, found, hconflicts, hconflict⟩

/-- An access invalidates an active loan if it touches the place on loan and the loan forbids it. -/
theorem invalidates_eq_true {carriers : NameSet} {active : PointSet} {access : Access} :
    detector.invalidates carriers loan active access = .ok true ↔
      ∃ i, detector.graph.index? access.point = some i ∧ i ∈ active ∧
        touches access loan = true ∧ forbids carriers loan access = true := by
  unfold invalidates Graph.index
  cases detector.graph.index? access.point with
  | none => simp [Except.map]
  | some i => simp [Except.map, and_assoc]

/-- Storage ends under an active loan if it is that of the local on loan, and the loan goes on. -/
theorem escapes_eq_true {active : PointSet} {exit : ScopeExit} :
    detector.escapes loan active exit = .ok true ↔ exit.name = loan.path.base ∧
      ∃ i, detector.graph.index? exit.point = some i ∧ i ∈ active ∧
        ∃ next ∈ detector.graph.succ i, next ∈ active := by
  unfold escapes Graph.index
  by_cases hname : exit.name = loan.path.base
  · rw [if_neg (by simpa using hname)]
    cases detector.graph.index? exit.point with
    | none => simp [Except.map]
    | some i => simp [Except.map, hname]
  · rw [if_pos (by simpa using hname)]
    simp [hname]

/-- A conflict can be made from any action at a point of the graph. -/
theorem exists_conflict {carriers : NameSet} {active : PointSet} {point : Point} {i : Nat}
    (hindex : detector.graph.index? point = some i) (access : Option AccessKind) (cause : Cause) :
    ∃ use, detector.conflict carriers loan active point access cause =
      .ok { loan, point, access, cause, use } := by
  obtain ⟨use, huse⟩ := exists_nearestUse carriers active hindex
  exact ⟨use, by rw [conflict, huse]; rfl⟩

/-- How a conflict of a loan with some active points comes about. -/
inductive Found (detector : Detector) (loan : Loan) (active : PointSet) (conflict : Conflict) :
    Prop where
  /-- By an access. -/
  | access (access : Access) (hmem : access ∈ detector.facts.accesses)
      (htest : detector.invalidates (detector.constraints.flowsTo loan.lifetime) loan active
        access = .ok true)
      (hmade : detector.conflict (detector.constraints.flowsTo loan.lifetime) loan active
        access.point (some access.kind) .invalidated = .ok conflict)
  /-- By the end of the storage of a local. -/
  | exit (exit : ScopeExit) (hmem : exit ∈ detector.facts.exits)
      (hdirect : loan.path.throughDeref = false)
      (htest : detector.escapes loan active exit = .ok true)
      (hmade : detector.conflict (detector.constraints.flowsTo loan.lifetime) loan active
        exit.point none .useAfterScope = .ok conflict)

/-- A conflict comes about at an active point, and has the nearest use from there. -/
theorem Found.nearestUse {active : PointSet} {conflict : Conflict}
    (h : detector.Found loan active conflict) : conflict.loan = loan ∧
      (∃ i, detector.graph.index? conflict.point = some i ∧ i ∈ active) ∧
      detector.nearestUse (detector.constraints.flowsTo loan.lifetime) conflict.point active =
        .ok conflict.use := by
  cases h with
  | access access hmem htest hmade =>
    obtain ⟨i, hindex, hi, -⟩ := invalidates_eq_true.1 htest
    obtain ⟨use, huse, rfl⟩ := exists_of_map_eq_ok hmade
    exact ⟨rfl, ⟨i, hindex, hi⟩, huse⟩
  | exit exit hmem hdirect htest hmade =>
    obtain ⟨-, i, hindex, hi, -⟩ := escapes_eq_true.1 htest
    obtain ⟨use, huse, rfl⟩ := exists_of_map_eq_ok hmade
    exact ⟨rfl, ⟨i, hindex, hi⟩, huse⟩

/-- The conflicts of a loan are those that come about. -/
theorem mem_conflictsOf {active : PointSet} {found : List Conflict} {conflict : Conflict}
    (hactive : detector.active loan = .ok active) (h : detector.conflictsOf loan = .ok found) :
    conflict ∈ found ↔ detector.Found loan active conflict := by
  unfold conflictsOf at h
  obtain ⟨active', hactive', h⟩ := exists_of_bind_eq_ok h
  rw [hactive] at hactive'
  cases hactive'
  split at h
  · next hempty =>
    cases h
    refine ⟨nofun, fun hfound => ?_⟩
    obtain ⟨-, ⟨i, -, hi⟩, -⟩ := hfound.nearestUse
    exact absurd hi (PointSet.isEmpty_iff.1 hempty i)
  · obtain ⟨invalidated, hinvalidated, h⟩ := exists_of_bind_eq_ok h
    obtain ⟨escaped, hescaped, h⟩ := exists_of_bind_eq_ok h
    cases h
    have hexit : conflict ∈ escaped ↔ loan.path.throughDeref = false ∧
        ∃ exit ∈ detector.facts.exits, detector.escapes loan active exit = .ok true ∧
          detector.conflict (detector.constraints.flowsTo loan.lifetime) loan active exit.point
            none .useAfterScope = .ok conflict := by
      unfold scopeEnds at hescaped
      cases hderef : loan.path.throughDeref with
      | true =>
        rw [hderef, if_pos rfl] at hescaped
        cases hescaped
        simp
      | false =>
        rw [hderef, if_neg Bool.false_ne_true] at hescaped
        simp [mem_results_of_filterM hescaped]
    rw [List.mem_append, mem_results_of_filterM hinvalidated, hexit]
    constructor
    · rintro (⟨access, hmem, htest, hmade⟩ | ⟨hdirect, exit, hmem, htest, hmade⟩)
      · exact .access access hmem htest hmade
      · exact .exit exit hmem hdirect htest hmade
    · rintro (⟨access, hmem, htest, hmade⟩ | ⟨exit, hmem, hdirect, htest, hmade⟩)
      · exact .inl ⟨access, hmem, htest, hmade⟩
      · exact .inr ⟨hdirect, exit, hmem, htest, hmade⟩

/-- An access that an active loan forbids is reported. -/
theorem reported_of_invalidates (h : detector.detect = .ok conflicts)
    (hloan : loan ∈ detector.facts.loans) {active : PointSet}
    (hactive : detector.active loan = .ok active) {access : Access}
    (haccess : access ∈ detector.facts.accesses) {i : Nat}
    (hindex : detector.graph.index? access.point = some i) (hi : i ∈ active)
    (htouches : touches access loan = true)
    (hforbids : forbids (detector.constraints.flowsTo loan.lifetime) loan access = true) :
    Conflict.Reported conflicts loan access.point .invalidated := by
  obtain ⟨found, hfound, hreported⟩ := exists_of_detect h hloan
  obtain ⟨use, hmade⟩ := exists_conflict hindex (some access.kind) .invalidated
  exact hreported _ ((mem_conflictsOf hactive hfound).2
    (.access access haccess (invalidates_eq_true.2 ⟨i, hindex, hi, htouches, hforbids⟩) hmade))

/-- The end of the storage of what is on loan, where the loan goes on being active, is
reported. -/
theorem reported_of_escapes (h : detector.detect = .ok conflicts)
    (hloan : loan ∈ detector.facts.loans) (hdirect : loan.path.throughDeref = false)
    {active : PointSet} (hactive : detector.active loan = .ok active) {exit : ScopeExit}
    (hexit : exit ∈ detector.facts.exits) (hname : exit.name = loan.path.base) {i next : Nat}
    (hindex : detector.graph.index? exit.point = some i) (hi : i ∈ active)
    (hnext : next ∈ detector.graph.succ i) (hnextActive : next ∈ active) :
    Conflict.Reported conflicts loan exit.point .useAfterScope := by
  obtain ⟨found, hfound, hreported⟩ := exists_of_detect h hloan
  obtain ⟨use, hmade⟩ := exists_conflict hindex none .useAfterScope
  exact hreported _ ((mem_conflictsOf hactive hfound).2 (.exit exit hexit hdirect
    (escapes_eq_true.2 ⟨hname, i, hindex, hi, next, hnext, hnextActive⟩) hmade))

end

end Detector

/-! ### The facts of the elements -/

namespace LoanFacts

/-- An access is at the point for which it is made. -/
theorem point_of_access {body : Body} {kind : AccessKind} {path : Place} {point : Point}
    {shallow : Bool} {made : Access} (h : access body kind path point shallow = .ok made) :
    made.point = point := by
  obtain ⟨through, -, rfl⟩ := exists_of_map_eq_ok h
  rfl

/-- The accesses of an operand are at its point. -/
theorem point_of_mem_operandAccess {body : Body} {point : Point} {operand : Operand}
    {accesses : List Access} (h : operandAccess body point operand = .ok accesses)
    {made : Access} (hmem : made ∈ accesses) : made.point = point := by
  cases operand with
  | const value =>
    cases h
    cases hmem
  | copy place =>
    obtain ⟨read, hread, rfl⟩ := exists_of_map_eq_ok h
    rw [List.mem_singleton.1 hmem]
    exact point_of_access hread
  | move place =>
    obtain ⟨moved, hmoved, rfl⟩ := exists_of_map_eq_ok h
    rw [List.mem_singleton.1 hmem]
    exact point_of_access hmoved

/-- The accesses of some operands are at their point. -/
theorem point_of_mem_operandAccesses {body : Body} {point : Point} {operands : List Operand}
    {accesses : List Access} (h : operandAccesses body point operands = .ok accesses)
    {made : Access} (hmem : made ∈ accesses) : made.point = point := by
  obtain ⟨rows, hrows, rfl⟩ := exists_of_map_eq_ok h
  obtain ⟨row, hrow, hmade⟩ := List.mem_flatten.1 hmem
  obtain ⟨operand, -, hoperand⟩ := exists_of_mem_results hrows hrow
  exact point_of_mem_operandAccess hoperand hmade

/-- What an assignment reads, and the place that it overwrites, are accessed at its point. -/
theorem point_of_mem_stored {body : Body} {point : Point} {place : Place} {rvalue : Rvalue}
    {accesses : List Access} (h : (do
      let read ← operandAccesses body point rvalue.operands
      return read ++ [← access body .write place point true]) = .ok accesses)
    {made : Access} (hmem : made ∈ accesses) : made.point = point := by
  obtain ⟨read, hread, h⟩ := exists_of_bind_eq_ok h
  obtain ⟨written, hwritten, h⟩ := exists_of_bind_eq_ok h
  cases h
  rcases List.mem_append.1 hmem with hmade | hmade
  · exact point_of_mem_operandAccesses hread hmade
  · rw [List.mem_singleton.1 hmade]
    exact point_of_access hwritten

/-- The accesses of an element are at its point. -/
theorem point_of_mem_accessesAt {body : Body} {point : Point} {element : Element}
    {accesses : List Access} (h : accessesAt body point element = .ok accesses)
    {made : Access} (hmem : made ∈ accesses) : made.point = point := by
  unfold accessesAt at h
  split at h
  · next place lifetime mutable borrowed =>
    obtain ⟨read, hread, h⟩ := exists_of_bind_eq_ok h
    obtain ⟨written, hwritten, h⟩ := exists_of_bind_eq_ok h
    cases h
    rcases List.mem_cons.1 hmem with rfl | hlast
    · exact point_of_access hread
    · rw [List.mem_singleton.1 hlast]
      exact point_of_access hwritten
  · exact point_of_mem_stored h hmem
  · exact point_of_mem_operandAccesses h hmem
  · obtain ⟨written, hwritten, rfl⟩ := exists_of_map_eq_ok h
    rw [List.mem_singleton.1 hmem]
    exact point_of_access hwritten
  · exact point_of_mem_operandAccess h hmem
  · cases h
    cases hmem

end LoanFacts

/-- Where no facts are given, the facts are those of the elements. -/
theorem Body.facts_eq_ok {body : Body} {facts : LoanFacts} (h : body.facts = .ok facts)
    (hloans : body.loans = none) (haccesses : body.accesses = none) (hexits : body.exits = none)
    {point : Point} {i : Nat} {element : Element} (hpoint : body.graph.index? point = some i)
    (helement : body.graph.elementAt? i = some element) :
    (∀ loan, LoanFacts.loan? point element = some loan → loan ∈ facts.loans) ∧
      (∃ accesses, LoanFacts.accessesAt body point element = .ok accesses ∧
        ∀ access ∈ accesses, access ∈ facts.accesses) ∧
      ∀ exit, LoanFacts.exit? point element = some exit → exit ∈ facts.exits := by
  have hitem := Graph.mem_items.2 ⟨i, hpoint, helement⟩
  unfold Body.facts at h
  obtain ⟨rows, hrows, h⟩ := exists_of_bind_eq_ok h
  cases h
  rw [hloans, haccesses, hexits]
  refine ⟨fun loan hloan => List.mem_filterMap.2 ⟨_, hitem, hloan⟩, ?_,
    fun exit hexit => List.mem_filterMap.2 ⟨_, hitem, hexit⟩⟩
  obtain ⟨row, hrow, hat⟩ := exists_of_mem_mapM hrows hitem
  exact ⟨row, hat, fun access haccess => List.mem_flatten.2 ⟨row, hrow, haccess⟩⟩

end RegionInference
