import RegionInference.Proofs.ConflictRules

/-!
# Conflicts without their uses

Two analyses that agree on what breaks a loan may find different uses for it. What they share is
stated about the *outline* of a conflict, which leaves the use out (`Conflict.outline`).

The outlines that a detector finds can be written down from the rules alone, loan by loan and
action by action (`Detector.outlines`), and what is reported are the first of each key among them
(`Detector.perm_outlines`). Which one is reported for a key depends only on the loans and actions of
that key, so detectors that agree about those report the same outline (`Detector.AgreeAt.mem`).
-/

namespace RegionInference

/-! ### Filters and steps that may fail -/

/-- A filter that may fail is the filter by its test. -/
theorem eq_filter_of_filterM {α : Type} {f : α → Except ε Bool} {items kept : List α}
    {P : α → Prop} [DecidablePred P] (hiff : ∀ a ∈ items, f a = .ok true ↔ P a)
    (h : items.filterM f = .ok kept) : kept = items.filter P := by
  -- what has been kept so far stands in the accumulator, the last first
  have haux : ∀ (items acc : List α) {kept : List α}, (∀ a ∈ items, f a = .ok true ↔ P a) →
      items.filterAuxM f acc = .ok kept → kept = (items.filter P).reverse ++ acc := by
    intro items
    induction items with
    | nil =>
      intro acc kept _ h
      cases h
      rfl
    | cons item items ih =>
      intro acc kept hiff h
      rw [List.filterAuxM] at h
      obtain ⟨passes, hpasses, h⟩ := exists_of_bind_eq_ok h
      rw [ih _ (fun a ha => hiff a (List.mem_cons_of_mem _ ha)) h]
      have hitem := hiff item List.mem_cons_self
      rw [hpasses] at hitem
      cases passes with
      | true =>
        rw [List.filter_cons_of_pos (by simpa using hitem), List.reverse_cons]
        simp
      | false =>
        rw [List.filter_cons_of_neg (by simpa using hitem)]
        rfl
  unfold List.filterM at h
  obtain ⟨found, hfound, h⟩ := exists_of_bind_eq_ok h
  cases h
  rw [haux items [] hiff hfound]
  simp

/-- What is read off the results of a step can be read off the items. -/
theorem map_results {f : α → Except ε β} {read : β → γ} {make : α → γ}
    (hread : ∀ a b, f a = .ok b → read b = make a) {items : List α} {results : List β}
    (h : items.mapM f = .ok results) : results.map read = items.map make := by
  have hall := mapM_eq_ok.1 h
  clear h
  induction hall with
  | nil => rfl
  | cons hstep _ ih => rw [List.map_cons, List.map_cons, hread _ _ hstep, ih]

namespace Conflict

/-- A conflict without its use. -/
def outline (conflict : Conflict) : Conflict :=
  { conflict with use := none }

/-- Whether two conflicts are reported as one does not depend on their uses. -/
@[simp] theorem sameKey_outline (a b : Conflict) : a.outline.sameKey b.outline = a.sameKey b := rfl

/-- The key of a conflict does not depend on its use. -/
@[simp] theorem key_outline (conflict : Conflict) : conflict.outline.key = conflict.key := rfl

/-- Conflicts with one outline differ in their uses only. -/
theorem outline_eq_outline {a b : Conflict} :
    a.outline = b.outline ↔ b = { a with use := b.use } := by
  cases a
  cases b
  simp only [outline, mk.injEq, and_true]
  constructor
  · rintro ⟨rfl, rfl, rfl, rfl⟩
    exact ⟨rfl, rfl, rfl, rfl⟩
  · rintro ⟨rfl, rfl, rfl, rfl⟩
    exact ⟨rfl, rfl, rfl, rfl⟩

end Conflict

/-- Whether two loans are of one place, borrowed at one point for one lifetime. -/
def Loan.sameBorrow (a b : Loan) : Bool :=
  a.point == b.point && a.lifetime == b.lifetime && a.path == b.path

namespace Detector

variable {detector other : Detector} {loan : Loan} {conflicts : List Conflict}

/-! ### The first of each key -/

/-- The conflicts to report can be chosen before their uses are found. -/
theorem map_outline_firstOfEach (conflicts : List Conflict) :
    (firstOfEach conflicts).map Conflict.outline =
      firstOfEach (conflicts.map Conflict.outline) := by
  induction conflicts with
  | nil => rfl
  | cons first conflicts ih =>
    rw [firstOfEach, List.map_cons, List.map_cons, firstOfEach, ← ih, List.filter_map]
    rfl

/-- Of the conflicts with one key, the first is kept. -/
theorem filter_firstOfEach (conflict : Conflict) (conflicts : List Conflict) :
    (firstOfEach conflicts).filter conflict.sameKey =
      (conflicts.filter conflict.sameKey).take 1 := by
  induction conflicts with
  | nil => rfl
  | cons first conflicts ih =>
    rw [firstOfEach]
    by_cases hfirst : conflict.sameKey first = true
    · -- the first one has the key, and all others that have it are left out
      rw [List.filter_cons_of_pos hfirst, List.filter_cons_of_pos hfirst, List.take_succ_cons,
        List.take_zero, List.filter_filter]
      refine congrArg (first :: ·) (List.filter_eq_nil_iff.2 fun next _ hnext => ?_)
      rw [Bool.and_eq_true, Bool.not_eq_true', ← Bool.not_eq_true] at hnext
      rw [Conflict.sameKey_iff_key] at hfirst hnext
      exact hnext.2 (Conflict.sameKey_iff_key.2 (hfirst.symm.trans hnext.1))
    · rw [List.filter_cons_of_neg hfirst, List.filter_cons_of_neg hfirst, ← ih, List.filter_filter]
      refine List.filter_congr fun next _ => ?_
      cases hnext : conflict.sameKey next with
      | false => rfl
      | true =>
        rw [Bool.true_and, Bool.not_eq_true', ← Bool.not_eq_true]
        intro hsame
        rw [Conflict.sameKey_iff_key] at hfirst hnext hsame
        exact hfirst (hnext.trans hsame.symm)

/-- A conflict is reported as one with itself. -/
theorem sameKey_self (conflict : Conflict) : conflict.sameKey conflict = true :=
  Conflict.sameKey_iff_key.2 rfl

/-- Lists with the same conflicts of a key keep the same one. -/
theorem mem_firstOfEach_of_filter_eq {conflict : Conflict} {conflicts conflicts' : List Conflict}
    (hfilter : conflicts.filter conflict.sameKey = conflicts'.filter conflict.sameKey)
    (h : conflict ∈ firstOfEach conflicts) : conflict ∈ firstOfEach conflicts' := by
  have hmem : conflict ∈ (firstOfEach conflicts).filter conflict.sameKey :=
    List.mem_filter.2 ⟨h, sameKey_self conflict⟩
  rw [filter_firstOfEach, hfilter, ← filter_firstOfEach] at hmem
  exact (List.mem_filter.1 hmem).1

/-! ### What is found -/

/-- An access at an active point touches the place on loan, and the loan forbids it. -/
def Hits (detector : Detector) (loan : Loan) (access : Access) : Prop :=
  (∃ i, detector.graph.index? access.point = some i ∧ detector.ActiveAt loan i) ∧
    access.Touches loan ∧ detector.Forbids loan access

/-- The storage of what is on loan ends while the loan is active and goes on being so. -/
def Ends (detector : Detector) (loan : Loan) (exit : ScopeExit) : Prop :=
  Projection.deref ∉ loan.path.projections ∧ exit.name = loan.path.base ∧
    ∃ i, detector.graph.index? exit.point = some i ∧ detector.ActiveAt loan i ∧
      ∃ next ∈ detector.graph.succ i, detector.ActiveAt loan next

section

open scoped Classical

/-- The outlines of the conflicts of a loan, by the rules. -/
noncomputable def outlinesOf (detector : Detector) (loan : Loan) : List Conflict :=
  (detector.facts.accesses.filter (detector.Hits loan)).map (fun access =>
    { loan, point := access.point, access := some access.kind, cause := .invalidated, use := none })
  ++ (detector.facts.exits.filter (detector.Ends loan)).map (fun exit =>
    { loan, point := exit.point, access := none, cause := .useAfterScope, use := none })

/-- The outlines of all conflicts, by the rules. -/
noncomputable def outlines (detector : Detector) : List Conflict :=
  detector.facts.loans.flatMap detector.outlinesOf

/-- But for the use, a conflict is made of what it is about. -/
theorem outline_of_conflict {carriers : NameSet} {active : PointSet} {point : Point}
    {access : Option AccessKind} {cause : Cause} {conflict : Conflict}
    (h : detector.conflict carriers loan active point access cause = .ok conflict) :
    conflict.outline = { loan, point, access, cause, use := none } := by
  obtain ⟨use, -, rfl⟩ := exists_of_map_eq_ok h
  rfl

/-- The test of an access is whether it hits the loan. -/
theorem invalidates_iff_hits {active : PointSet} (hactive : detector.active loan = .ok active)
    (access : Access) :
    detector.invalidates (detector.constraints.flowsTo loan.lifetime) loan active access =
      .ok true ↔ detector.Hits loan access := by
  simp only [invalidates_eq_true, mem_active hactive, Access.touches_iff, forbids_iff, Hits]
  constructor
  · rintro ⟨i, hi, hat, htouches, hforbids⟩
    exact ⟨⟨i, hi, hat⟩, htouches, hforbids⟩
  · rintro ⟨⟨i, hi, hat⟩, htouches, hforbids⟩
    exact ⟨i, hi, hat, htouches, hforbids⟩

/-- The test of a scope exit is whether it ends what is on loan. -/
theorem escapes_iff_ends {active : PointSet} (hactive : detector.active loan = .ok active)
    (hdirect : loan.path.throughDeref = false) (exit : ScopeExit) :
    detector.escapes loan active exit = .ok true ↔ detector.Ends loan exit := by
  have hpath : Projection.deref ∉ loan.path.projections := by
    simpa [Place.throughDeref] using hdirect
  simp only [escapes_eq_true, mem_active hactive, Ends, hpath, not_false_iff, true_and]

/-- Where a loan is not active, nothing breaks it. -/
theorem outlinesOf_eq_nil (h : ∀ i, ¬detector.ActiveAt loan i) : detector.outlinesOf loan = [] := by
  unfold outlinesOf
  rw [List.append_eq_nil_iff, List.map_eq_nil_iff, List.map_eq_nil_iff, List.filter_eq_nil_iff,
    List.filter_eq_nil_iff]
  constructor
  · intro access _ hhits
    obtain ⟨⟨i, -, hat⟩, -⟩ := of_decide_eq_true hhits
    exact h i hat
  · intro exit _ hends
    obtain ⟨-, -, i, -, hat, -⟩ := of_decide_eq_true hends
    exact h i hat

/-- The conflicts of a loan have the outlines that the rules give. -/
theorem map_outline_conflictsOf {found : List Conflict}
    (h : detector.conflictsOf loan = .ok found) :
    found.map Conflict.outline = detector.outlinesOf loan := by
  unfold conflictsOf at h
  obtain ⟨active, hactive, h⟩ := exists_of_bind_eq_ok h
  split at h
  · next hempty =>
    cases h
    refine (outlinesOf_eq_nil fun i hat => ?_).symm
    exact PointSet.isEmpty_iff.1 hempty i ((mem_active hactive).2 hat)
  · obtain ⟨invalidated, hinvalidated, h⟩ := exists_of_bind_eq_ok h
    obtain ⟨escaped, hescaped, h⟩ := exists_of_bind_eq_ok h
    cases h
    unfold outlinesOf
    rw [List.map_append]
    congr 1
    · obtain ⟨kept, hkept, hmade⟩ := exists_of_bind_eq_ok hinvalidated
      rw [← eq_filter_of_filterM (fun access _ => invalidates_iff_hits hactive access) hkept]
      exact map_results (fun _ _ => outline_of_conflict) hmade
    · unfold scopeEnds at hescaped
      cases hderef : loan.path.throughDeref with
      | true =>
        rw [hderef, if_pos rfl] at hescaped
        cases hescaped
        have hpath : Projection.deref ∈ loan.path.projections := by
          simpa [Place.throughDeref] using hderef
        rw [List.map_nil, eq_comm, List.map_eq_nil_iff, List.filter_eq_nil_iff]
        exact fun exit _ hends => (of_decide_eq_true hends).1 hpath
      | false =>
        rw [hderef, if_neg Bool.false_ne_true] at hescaped
        obtain ⟨kept, hkept, hmade⟩ := exists_of_bind_eq_ok hescaped
        rw [← eq_filter_of_filterM (fun exit _ => escapes_iff_ends hactive hderef exit) hkept]
        exact map_results (fun _ _ => outline_of_conflict) hmade

/-- What is reported are, but for the uses, the first of each key that the rules give. -/
theorem perm_outlines (h : detector.detect = .ok conflicts) :
    (conflicts.map Conflict.outline).Perm (firstOfEach detector.outlines) := by
  obtain ⟨rows, hrows, rfl⟩ := detect_eq_ok h
  have hrowsOutlines : rows.flatten.map Conflict.outline = detector.outlines := by
    rw [List.map_flatten, map_results (fun _ _ => map_outline_conflictsOf) hrows, outlines,
      List.flatMap_def]
  rw [← hrowsOutlines, ← map_outline_firstOfEach]
  exact (List.mergeSort_perm _ _).map _

/-! ### Detectors that agree -/

/-- Two detectors agree about the key of a conflict: they have the same loans and actions for it, in
the same order, and the same of the actions break the loans. -/
structure AgreeAt (detector other : Detector) (conflict : Conflict) : Prop where
  /-- The loans are the same. -/
  loans : detector.facts.loans.filter conflict.loan.sameBorrow =
    other.facts.loans.filter conflict.loan.sameBorrow
  /-- The accesses at the point are the same. -/
  accesses : detector.facts.accesses.filter (·.point = conflict.point) =
    other.facts.accesses.filter (·.point = conflict.point)
  /-- The scope exits at the point are the same. -/
  exits : detector.facts.exits.filter (·.point = conflict.point) =
    other.facts.exits.filter (·.point = conflict.point)
  /-- The same accesses hit the loans. -/
  hits : conflict.cause = .invalidated → ∀ loan, conflict.loan.sameBorrow loan = true →
    ∀ access : Access, access.point = conflict.point →
      (detector.Hits loan access ↔ other.Hits loan access)
  /-- The same scope exits end what is on loan. -/
  ends : conflict.cause = .useAfterScope → ∀ loan, conflict.loan.sameBorrow loan = true →
    ∀ exit : ScopeExit, exit.point = conflict.point →
      (detector.Ends loan exit ↔ other.Ends loan exit)

/-- The outlines for a loan are about that loan. -/
theorem loan_of_mem_outlinesOf {outline : Conflict} (h : outline ∈ detector.outlinesOf loan) :
    outline.loan = loan := by
  rcases List.mem_append.1 h with hmem | hmem
  · obtain ⟨access, -, rfl⟩ := List.mem_map.1 hmem
    rfl
  · obtain ⟨exit, -, rfl⟩ := List.mem_map.1 hmem
    rfl

/-- Lists with the same items of one kind have the same of them that pass tests which agree on the
kind. -/
theorem filter_and_eq {α : Type} {items items' : List α} {applies : Bool}
    {kind test test' : α → Bool} (hitems : items.filter kind = items'.filter kind)
    (htest : applies = true → ∀ a, kind a = true → test a = test' a) :
    items.filter (fun a => (applies && kind a) && test a) =
      items'.filter (fun a => (applies && kind a) && test' a) := by
  cases applies with
  | false => simp
  | true =>
    simp only [Bool.true_and, Bool.and_comm (kind _)]
    rw [← List.filter_filter, hitems, List.filter_filter]
    refine List.filter_congr fun a _ => ?_
    cases hkind : kind a with
    | false => simp
    | true => rw [htest rfl a hkind]

/-- Items that give nothing may be left out. -/
theorem flatMap_filter_of_nil {α β : Type} {f : α → List β} {kind : α → Bool}
    (hnil : ∀ a, kind a = false → f a = []) (items : List α) :
    (items.filter kind).flatMap f = items.flatMap f := by
  induction items with
  | nil => rfl
  | cons a items ih =>
    rw [List.flatMap_cons, List.filter_cons]
    cases hkind : kind a with
    | false => rw [if_neg Bool.false_ne_true, hnil a hkind, ih, List.nil_append]
    | true => rw [if_pos rfl, List.flatMap_cons, ih]

/-- Detectors that agree about the key of a conflict find the same outlines of the key for each
loan. -/
theorem AgreeAt.filter_outlinesOf {conflict : Conflict} (h : detector.AgreeAt other conflict)
    (hloan : conflict.loan.sameBorrow loan = true) :
    (detector.outlinesOf loan).filter conflict.sameKey =
      (other.outlinesOf loan).filter conflict.sameKey := by
  have hkey : ∀ point access cause, conflict.sameKey ⟨loan, point, access, cause, none⟩ =
      (decide (conflict.cause = cause) && decide (point = conflict.point)) := by
    intro point access cause
    unfold Loan.sameBorrow at hloan
    rw [Conflict.sameKey, hloan, Bool.true_and, Bool.and_comm, Bool.eq_iff_iff]
    simp only [Bool.and_eq_true, beq_iff_eq, decide_eq_true_eq, eq_comm (a := point)]
  unfold outlinesOf
  rw [List.filter_append, List.filter_append, List.filter_map, List.filter_map, List.filter_map,
    List.filter_map, List.filter_filter, List.filter_filter, List.filter_filter, List.filter_filter]
  simp only [Function.comp_apply, hkey]
  rw [filter_and_eq h.accesses, filter_and_eq h.exits]
  · intro hcause exit hpoint
    exact decide_eq_decide.2
      (h.ends (of_decide_eq_true hcause) loan hloan exit (of_decide_eq_true hpoint))
  · intro hcause access hpoint
    exact decide_eq_decide.2
      (h.hits (of_decide_eq_true hcause) loan hloan access (of_decide_eq_true hpoint))

/-- Detectors that agree about the key of a conflict find the same outlines of the key. -/
theorem AgreeAt.filter_outlines {conflict : Conflict} (h : detector.AgreeAt other conflict) :
    detector.outlines.filter conflict.sameKey = other.outlines.filter conflict.sameKey := by
  have hnil : ∀ (d : Detector) (loan : Loan), conflict.loan.sameBorrow loan = false →
      (d.outlinesOf loan).filter conflict.sameKey = [] := by
    intro d loan hloan
    refine List.filter_eq_nil_iff.2 fun outline houtline hsame => ?_
    have hborrow : conflict.loan.sameBorrow outline.loan = true := by
      unfold Conflict.sameKey at hsame
      unfold Loan.sameBorrow
      simp only [Bool.and_eq_true] at hsame ⊢
      exact hsame.1.1
    rw [loan_of_mem_outlinesOf houtline, hloan] at hborrow
    cases hborrow
  unfold outlines
  rw [List.filter_flatMap, List.filter_flatMap, ← flatMap_filter_of_nil (hnil detector),
    ← flatMap_filter_of_nil (hnil other), h.loans]
  refine List.flatMap_congr fun loan hloan => ?_
  exact h.filter_outlinesOf (List.mem_filter.1 hloan).2

end

/-- What a detector reports, another one that agrees about it reports too, but for the use. -/
theorem AgreeAt.exists_mem {conflict : Conflict} (h : detector.AgreeAt other conflict)
    {conflicts' : List Conflict} (hdetect : detector.detect = .ok conflicts)
    (hdetect' : other.detect = .ok conflicts') (hmem : conflict ∈ conflicts) :
    ∃ conflict' ∈ conflicts', conflict'.outline = conflict.outline := by
  have hfirst : conflict.outline ∈ firstOfEach detector.outlines :=
    (perm_outlines hdetect).mem_iff.1 (List.mem_map_of_mem hmem)
  have hother : conflict.outline ∈ firstOfEach other.outlines :=
    mem_firstOfEach_of_filter_eq h.filter_outlines hfirst
  exact List.mem_map.1 ((perm_outlines hdetect').mem_iff.2 hother)

end Detector

end RegionInference
