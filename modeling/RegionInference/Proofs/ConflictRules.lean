import Mathlib
import RegionInference.Proofs.Detection
import RegionInference.Proofs.Flow
import RegionInference.Proofs.Subtyping

/-!
# The rules for conflicts

When an action breaks a loan is said here without the sets that detection computes
(`Detector.Breaks`). A loan is active at a point if a walk of at least one step leads there from the
borrow, all of whose points after the first are in the region of the loan. An access breaks the loan
if it touches the place on loan and is none that the kind of the loan allows. The end of the storage
of a local breaks a loan of a place in it that goes on being active.

Detection reports exactly that (`Detector.detect_exact`): for facts about points of the graph it
ends with a list, which has one conflict for each broken loan and action, in a fixed order.
-/

namespace RegionInference

/-! ### Walks -/

namespace Graph

variable {g : Graph} {set : PointSet} {i j : Nat}

/-- A step that leads into a set. -/
def StepInto (g : Graph) (set : PointSet) (i j : Nat) : Prop :=
  j ∈ g.succ i ∧ j ∈ set

/-- A walk of at least one step, all of whose points after the first are in a set. -/
def WalksWithin (g : Graph) (set : PointSet) : Nat → Nat → Prop :=
  Relation.TransGen (g.StepInto set)

/-- What is reached within a set is reached by steps that lead into it. -/
theorem reachedWithin_iff :
    g.ReachedWithin set i j ↔ i ∈ set ∧ Relation.ReflTransGen (g.StepInto set) i j := by
  constructor
  · intro h
    induction h with
    | start hi => exact ⟨hi, .refl⟩
    | step _ hsucc hj ih => exact ⟨ih.1, ih.2.tail ⟨hsucc, hj⟩⟩
  · rintro ⟨hi, h⟩
    induction h with
    | refl => exact .start hi
    | tail _ hstep ih => exact .step ih hstep.1 hstep.2

/-- What can be reached after a point is where walks from it lead. -/
theorem walksWithin_iff : g.WalksWithin set i j ↔ j ∈ Detector.reachAfter g i set := by
  unfold WalksWithin
  rw [Relation.TransGen.head'_iff, Detector.mem_reachAfter]
  simp only [mem_reachWithin, reachedWithin_iff, StepInto, and_assoc]

end Graph

/-! ### Places -/

/-- Two places share storage: they start at one local, and the way to one of them leads through the
other. -/
def Place.Shares (a b : Place) : Prop :=
  a.base = b.base ∧ (a.projections <+: b.projections ∨ b.projections <+: a.projections)

/-- The test for an overlap is right: two places overlap iff they share memory. -/
theorem Place.overlaps_iff {a b : Place} : a.overlaps b = true ↔ a.Shares b := by
  unfold overlaps Shares
  simp only [Bool.and_eq_true, beq_iff_eq, Bool.or_eq_true, List.isPrefixOf_iff_prefix]

/-- Sharing memory goes both ways. -/
theorem Place.Shares.symm {a b : Place} (h : a.Shares b) : b.Shares a :=
  ⟨h.1.symm, h.2.symm⟩

/-- Of two lists one of which begins with the other, the one goes on from the other with an item iff
it has the item there. -/
theorem append_singleton_prefix_iff {α : Type} {short long : List α} {a : α}
    (h : short <+: long ∨ long <+: short) :
    short ++ [a] <+: long ↔ long[short.length]? = some a := by
  rcases h with ⟨rest, rfl⟩ | hlong
  · rw [List.prefix_append_right_inj, List.getElem?_append_right (Nat.le_refl _), Nat.sub_self]
    cases rest with
    | nil => simp
    | cons b rest => simp [eq_comm]
  · -- the other list ends before
    have hle := hlong.length_le
    rw [List.getElem?_eq_none hle]
    refine ⟨fun hprefix => ?_, nofun⟩
    have hlt := hprefix.length_le
    rw [List.length_append, List.length_singleton] at hlt
    omega

namespace Access

/-- An access touches the place on loan: they share storage, and a shallow access does not stop at a
reference that the way to the place on loan goes through next. -/
def Touches (access : Access) (loan : Loan) : Prop :=
  loan.path.Shares access.path ∧
    (access.shallow = true → ¬access.path.projections ++ [.deref] <+: loan.path.projections)

/-- The test whether an access touches a loan is right. -/
theorem touches_iff {access : Access} {loan : Loan} :
    Detector.touches access loan = true ↔ access.Touches loan := by
  unfold Detector.touches Touches
  cases access.shallow with
  | false => simp [Place.overlaps_iff]
  | true =>
    simp only [if_true, Place.overwriteOverlaps, Bool.and_eq_true, Place.overlaps_iff, bne_iff_ne,
      true_implies]
    constructor
    · rintro ⟨hshares, hnext⟩
      exact ⟨hshares.symm, by rwa [append_singleton_prefix_iff hshares.2]⟩
    · rintro ⟨hshares, hnext⟩
      exact ⟨hshares.symm, by rwa [append_singleton_prefix_iff hshares.symm.2] at hnext⟩

end Access

/-! ### The rules -/

namespace Detector

variable {detector : Detector} {loan : Loan}

/-- A loan is active where a walk within its region leads from the borrow. -/
def ActiveAt (detector : Detector) (loan : Loan) (i : Nat) : Prop :=
  ∃ start region, detector.graph.index? loan.point = some start ∧
    detector.regions.get? loan.lifetime = some region ∧ detector.graph.WalksWithin region start i

/-- The kind of a loan forbids an access: any but a read, if the loan is shared; else any that does
not go through a reference into whose lifetime the loan has flowed. -/
def Forbids (detector : Detector) (loan : Loan) (access : Access) : Prop :=
  match loan.kind with
  | .shared => access.kind = .write ∨ access.kind = .move
  | .mutable => ∀ l, access.through = some l →
      ¬detector.constraints.FlowsInto loan.lifetime l

/-- An action at a point breaks a loan. -/
inductive Breaks (detector : Detector) (loan : Loan) : Point → Cause → Prop where
  /-- An access to what is on loan that the loan forbids. -/
  | invalidated {access : Access} {i : Nat} : access ∈ detector.facts.accesses →
      detector.graph.index? access.point = some i → detector.ActiveAt loan i →
      access.Touches loan → detector.Forbids loan access →
      Breaks detector loan access.point .invalidated
  /-- The end of the storage of what is on loan, when the loan goes on. -/
  | useAfterScope {exit : ScopeExit} {i next : Nat} : exit ∈ detector.facts.exits →
      exit.name = loan.path.base → Projection.deref ∉ loan.path.projections →
      detector.graph.index? exit.point = some i → detector.ActiveAt loan i →
      next ∈ detector.graph.succ i → detector.ActiveAt loan next →
      Breaks detector loan exit.point .useAfterScope

/-- The computed active points are those at which the loan is active. -/
theorem mem_active {active : PointSet} (h : detector.active loan = .ok active) {i : Nat} :
    i ∈ active ↔ detector.ActiveAt loan i := by
  unfold Detector.active at h
  split at h
  · cases h
  · next region hregion =>
    obtain ⟨start, hstart, rfl⟩ := exists_of_map_eq_ok h
    rw [Graph.index_eq_ok] at hstart
    rw [← Graph.walksWithin_iff]
    constructor
    · intro hwalk
      exact ⟨start, region, hstart, hregion, hwalk⟩
    · rintro ⟨start', region', hstart', hregion', hwalk⟩
      rw [hstart] at hstart'
      rw [hregion] at hregion'
      cases hstart'
      cases hregion'
      exact hwalk

/-- The test whether a loan forbids an access is right. -/
theorem forbids_iff {access : Access} :
    forbids (detector.constraints.flowsTo loan.lifetime) loan access = true ↔
      detector.Forbids loan access := by
  unfold forbids Forbids
  cases loan.kind with
  | shared => simp
  | mutable => simp [Option.all_eq_true, ConstraintSet.mem_flowsTo]

/-- A conflict that comes about is one of a broken loan. -/
theorem Found.breaks {active : PointSet} {conflict : Conflict}
    (hactive : detector.active loan = .ok active) (h : detector.Found loan active conflict) :
    conflict.loan = loan ∧ detector.Breaks loan conflict.point conflict.cause := by
  cases h with
  | access access hmem htest hmade =>
    obtain ⟨i, hindex, hi, htouches, hforbids⟩ := invalidates_eq_true.1 htest
    obtain ⟨use, -, rfl⟩ := exists_of_map_eq_ok hmade
    exact ⟨rfl, .invalidated hmem hindex ((mem_active hactive).1 hi)
      (Access.touches_iff.1 htouches) (forbids_iff.1 hforbids)⟩
  | exit exit hmem hdirect htest hmade =>
    obtain ⟨hname, i, hindex, hi, next, hnext, hnextActive⟩ := escapes_eq_true.1 htest
    obtain ⟨use, -, rfl⟩ := exists_of_map_eq_ok hmade
    exact ⟨rfl, .useAfterScope hmem hname (by simpa [Place.throughDeref] using hdirect) hindex
      ((mem_active hactive).1 hi) hnext ((mem_active hactive).1 hnextActive)⟩

/-- For a broken loan a conflict comes about. -/
theorem Breaks.exists_found {active : PointSet} (hactive : detector.active loan = .ok active)
    {point : Point} {cause : Cause} (h : detector.Breaks loan point cause) :
    ∃ conflict, detector.Found loan active conflict ∧ conflict.loan = loan ∧
      conflict.point = point ∧ conflict.cause = cause := by
  cases h with
  | @invalidated access i hmem hindex hi htouches hforbids =>
    obtain ⟨use, hmade⟩ := exists_conflict hindex (some access.kind) .invalidated
    refine ⟨_, .access access hmem ?_ hmade, rfl, rfl, rfl⟩
    exact invalidates_eq_true.2 ⟨i, hindex, (mem_active hactive).2 hi,
      Access.touches_iff.2 htouches, forbids_iff.2 hforbids⟩
  | @useAfterScope exit i next hmem hname hdirect hindex hi hnext hnextActive =>
    obtain ⟨use, hmade⟩ := exists_conflict hindex none .useAfterScope
    refine ⟨_, .exit exit hmem (by simpa [Place.throughDeref] using hdirect) ?_ hmade, rfl, rfl,
      rfl⟩
    exact escapes_eq_true.2 ⟨hname, i, hindex, (mem_active hactive).2 hi, next, hnext,
      (mem_active hactive).2 hnextActive⟩

end Detector

/-! ### Keys and order -/

namespace Conflict

/-- What tells conflicts apart. -/
structure Key where
  /-- The point of the borrow. -/
  borrow : Point
  /-- The lifetime of the loan. -/
  lifetime : String
  /-- The place on loan. -/
  path : Place
  /-- The point of the action. -/
  action : Point
  /-- What makes the conflict. -/
  cause : Cause

/-- The key of a conflict. -/
def key (conflict : Conflict) : Key :=
  ⟨conflict.loan.point, conflict.loan.lifetime, conflict.loan.path, conflict.point, conflict.cause⟩

/-- Two conflicts are reported as one iff they have the same key. -/
theorem sameKey_iff_key {a b : Conflict} : a.sameKey b = true ↔ a.key = b.key := by
  rw [sameKey_iff, key, key, Key.mk.injEq]

/-- A conflict is reported iff its key is among those reported. -/
theorem reported_iff_mem_key {conflicts : List Conflict} {loan : Loan} {point : Point}
    {cause : Cause} : Reported conflicts loan point cause ↔
      ⟨loan.point, loan.lifetime, loan.path, point, cause⟩ ∈ conflicts.map key := by
  rw [List.mem_map]
  unfold Reported key
  simp only [Key.mk.injEq]

/-- What conflicts are ordered by, given the numbers of the action's point and of the borrow: the
numbers, the name of the cause and the text of the place. -/
def rank (conflict : Conflict) (action borrow : Nat) : ℕ ×ₗ ℕ ×ₗ String ×ₗ String :=
  toLex (action, toLex (borrow, toLex (conflict.cause.text, conflict.loan.path.text)))

end Conflict

namespace Detector

variable {detector : Detector} {loan : Loan}

/-- No two of the conflicts that are kept have one key. -/
theorem nodup_firstOfEach (conflicts : List Conflict) :
    ((firstOfEach conflicts).map Conflict.key).Nodup := by
  induction conflicts with
  | nil => exact List.nodup_nil
  | cons first conflicts ih =>
    rw [firstOfEach, List.map_cons, List.nodup_cons]
    refine ⟨fun hmem => ?_, (List.filter_sublist.map _).nodup ih⟩
    obtain ⟨other, hother, hkey⟩ := List.mem_map.1 hmem
    have hdiffers := (List.mem_filter.1 hother).2
    rw [Conflict.sameKey_iff_key.2 hkey.symm] at hdiffers
    cases hdiffers

/-- Conflicts are listed by rank. -/
theorem listedBefore_iff {g : Graph} {a b : Conflict} :
    listedBefore g a b = true ↔
      a.rank ((g.index? a.point).getD 0) ((g.index? a.loan.point).getD 0) ≤
        b.rank ((g.index? b.point).getD 0) ((g.index? b.loan.point).getD 0) := by
  unfold listedBefore Conflict.rank
  simp only [Prod.Lex.toLex_le_toLex, Bool.or_eq_true, Bool.and_eq_true, decide_eq_true_eq,
    beq_iff_eq]

/-- Sorted conflicts are listed by rank. -/
theorem pairwise_mergeSort_listedBefore (g : Graph) (conflicts : List Conflict) :
    (conflicts.mergeSort (listedBefore g)).Pairwise fun a b => listedBefore g a b = true := by
  refine List.pairwise_mergeSort ?_ ?_ conflicts
  · intro a b c hab hbc
    rw [listedBefore_iff] at hab hbc ⊢
    exact hab.trans hbc
  · intro a b
    rw [Bool.or_eq_true, listedBefore_iff, listedBefore_iff]
    exact le_total _ _

/-! ### Detection -/

/-- The facts are about points of the graph, and every loan has a region. -/
structure Placed (detector : Detector) : Prop where
  /-- The lifetime of a loan has a region. -/
  region : ∀ loan ∈ detector.facts.loans, ∃ region,
    detector.regions.get? loan.lifetime = some region
  /-- A loan is at a point of the graph. -/
  loan : ∀ loan ∈ detector.facts.loans, ∃ i, detector.graph.index? loan.point = some i
  /-- An access is at a point of the graph. -/
  access : ∀ access ∈ detector.facts.accesses, ∃ i, detector.graph.index? access.point = some i
  /-- A scope exit is at a point of the graph. -/
  exit : ∀ exit ∈ detector.facts.exits, ∃ i, detector.graph.index? exit.point = some i

namespace Placed

/-- The active points of a loan can be found. -/
theorem exists_active (h : detector.Placed) (hloan : loan ∈ detector.facts.loans) :
    ∃ active, detector.active loan = .ok active := by
  obtain ⟨region, hregion⟩ := h.region loan hloan
  obtain ⟨i, hi⟩ := h.loan loan hloan
  unfold Detector.active
  rw [hregion]
  dsimp only
  rw [Graph.index_eq_ok.2 hi]
  exact ⟨_, rfl⟩

/-- The conflicts of a loan can be found. -/
theorem exists_conflictsOf (h : detector.Placed) (hloan : loan ∈ detector.facts.loans) :
    ∃ found, detector.conflictsOf loan = .ok found := by
  obtain ⟨active, hactive⟩ := h.exists_active hloan
  generalize hcarriers : detector.constraints.flowsTo loan.lifetime = carriers
  obtain ⟨invalidated, hinvalidated⟩ : ∃ invalidated,
      detector.invalidations carriers loan active = .ok invalidated := by
    refine exists_results_of_filterM (fun access haccess => ?_) fun access haccess => ?_
    · obtain ⟨i, hi⟩ := h.access access haccess
      exact ⟨_, by rw [invalidates, Graph.index_eq_ok.2 hi]; rfl⟩
    · obtain ⟨i, hi⟩ := h.access access haccess
      obtain ⟨use, hmade⟩ := exists_conflict hi (some access.kind) .invalidated
      exact ⟨_, hmade⟩
  obtain ⟨escaped, hescaped⟩ : ∃ escaped,
      detector.scopeEnds carriers loan active = .ok escaped := by
    unfold scopeEnds
    split
    · exact ⟨[], rfl⟩
    · refine exists_results_of_filterM (fun exit hexit => ?_) fun exit hexit => ?_
      · obtain ⟨i, hi⟩ := h.exit exit hexit
        unfold escapes
        split
        · exact ⟨_, rfl⟩
        · exact ⟨_, by rw [Graph.index_eq_ok.2 hi]; rfl⟩
      · obtain ⟨i, hi⟩ := h.exit exit hexit
        obtain ⟨use, hmade⟩ := exists_conflict hi none .useAfterScope
        exact ⟨_, hmade⟩
  unfold conflictsOf
  rw [hactive]
  simp only [bind, Except.bind]
  split
  · exact ⟨[], rfl⟩
  · exact ⟨invalidated ++ escaped, by simp only [hcarriers, hinvalidated, hescaped]; rfl⟩

/-- Detection ends with a list of conflicts. -/
theorem exists_detect (h : detector.Placed) : ∃ conflicts, detector.detect = .ok conflicts := by
  obtain ⟨rows, hrows⟩ := exists_mapM fun loan hloan => h.exists_conflictsOf hloan
  unfold detect
  rw [hrows]
  exact ⟨_, rfl⟩

end Placed

/-- A key is reported iff it is that of a broken loan. -/
theorem mem_key_detect (h : detector.Placed) {conflicts : List Conflict}
    (hdetect : detector.detect = .ok conflicts) {key : Conflict.Key} :
    key ∈ conflicts.map Conflict.key ↔ ∃ loan ∈ detector.facts.loans,
      loan.point = key.borrow ∧ loan.lifetime = key.lifetime ∧ loan.path = key.path ∧
        detector.Breaks loan key.action key.cause := by
  constructor
  · intro hkey
    obtain ⟨conflict, hconflict, rfl⟩ := List.mem_map.1 hkey
    obtain ⟨loan, hloan, found, hfound, hmem⟩ := exists_of_mem_detect hdetect hconflict
    obtain ⟨active, hactive⟩ := h.exists_active hloan
    obtain ⟨rfl, hbreaks⟩ := ((mem_conflictsOf hactive hfound).1 hmem).breaks hactive
    exact ⟨conflict.loan, hloan, rfl, rfl, rfl, hbreaks⟩
  · obtain ⟨borrow, lifetime, path, action, cause⟩ := key
    rintro ⟨loan, hloan, rfl, rfl, rfl, hbreaks⟩
    obtain ⟨active, hactive⟩ := h.exists_active hloan
    obtain ⟨found, hfound, hreported⟩ := exists_of_detect hdetect hloan
    obtain ⟨conflict, hmem, rfl, rfl, rfl⟩ := hbreaks.exists_found hactive
    exact Conflict.reported_iff_mem_key.1
      (hreported conflict ((mem_conflictsOf hactive hfound).2 hmem))

/-- **Detection reports exactly what the rules say.** For facts about points of the graph and a
region for each loan, detection ends with a list of conflicts. Their keys are pairwise different,
they are listed by the number of the action's point, then by that of the borrow, the name of the
cause and the text of the place, and a key occurs iff an action of the kind at the point breaks a
loan of that borrow, lifetime and place. -/
theorem detect_exact (detector : Detector) (h : detector.Placed) :
    ∃ conflicts, detector.detect = .ok conflicts ∧
      (conflicts.map Conflict.key).Nodup ∧
      conflicts.Pairwise (fun a b => ∀ i j i' j', detector.graph.index? a.point = some i →
        detector.graph.index? a.loan.point = some j → detector.graph.index? b.point = some i' →
        detector.graph.index? b.loan.point = some j' → a.rank i j ≤ b.rank i' j') ∧
      ∀ key : Conflict.Key, key ∈ conflicts.map Conflict.key ↔
        ∃ loan ∈ detector.facts.loans, loan.point = key.borrow ∧ loan.lifetime = key.lifetime ∧
          loan.path = key.path ∧ detector.Breaks loan key.action key.cause := by
  obtain ⟨conflicts, hdetect⟩ := h.exists_detect
  refine ⟨conflicts, hdetect, ?_, ?_, fun key => mem_key_detect h hdetect⟩
  · obtain ⟨rows, -, rfl⟩ := detect_eq_ok hdetect
    exact ((List.mergeSort_perm _ _).map _).nodup_iff.2 (nodup_firstOfEach _)
  · obtain ⟨rows, -, rfl⟩ := detect_eq_ok hdetect
    refine (pairwise_mergeSort_listedBefore _ _).imp ?_
    intro a b hbefore i j i' j' hi hj hi' hj'
    rw [listedBefore_iff, hi, hj, hi', hj'] at hbefore
    exact hbefore

end Detector

/-! ### Hand-written facts -/

namespace Sample

/-- While `x` is on loan for writing, it is read directly, and through a reference that the loan has
flowed into. Its storage ends in the loop. -/
def facts : LoanFacts where
  loans := [⟨"r", .mutable, ⟨"x", []⟩, ⟨"A", 0⟩⟩]
  accesses := [
    { kind := .read, path := ⟨"x", []⟩, point := ⟨"B", 1⟩ },
    { kind := .read, path := ⟨"x", []⟩, point := ⟨"B", 1⟩, through := some "l" },
    { kind := .read, path := ⟨"x", []⟩, point := ⟨"B", 2⟩, through := some "l" }]
  exits := [⟨"x", ⟨"B", 3⟩⟩]

/-- The sample body with these facts. -/
def detector : Detector :=
  { body, regions, facts, constraints := bodyConstraints }

/-- The facts of the sample are about points of its graph, and its loans have regions. -/
theorem detector_placed : detector.Placed where
  region loan hloan := by
    obtain rfl : loan = _ := List.mem_singleton.1 hloan
    exact ⟨⟨62⟩, rfl⟩
  loan loan hloan := by
    obtain rfl : loan = _ := List.mem_singleton.1 hloan
    exact ⟨0, rfl⟩
  access access haccess := by
    simp only [detector, facts, List.mem_cons, List.not_mem_nil, or_false] at haccess
    rcases haccess with rfl | rfl | rfl
    · exact ⟨3, rfl⟩
    · exact ⟨3, rfl⟩
    · exact ⟨4, rfl⟩
  exit exit hexit := by
    obtain rfl : exit = _ := List.mem_singleton.1 hexit
    exact ⟨5, rfl⟩

/-- The loan is active from the point after the borrow to the end of the loop. -/
theorem detector_activeAt {i : Nat} (h : i ∈ [1, 2, 3, 4, 5]) :
    detector.ActiveAt ⟨"r", .mutable, ⟨"x", []⟩, ⟨"A", 0⟩⟩ i := by
  have hactive : detector.active ⟨"r", .mutable, ⟨"x", []⟩, ⟨"A", 0⟩⟩ = .ok ⟨62⟩ := by cbv
  rw [← Detector.mem_active hactive]
  revert i
  decide

end Sample

/-- In the sample the direct read breaks the loan, and so does the end of the storage. The read
through the reference does not. -/
theorem Detector.reads_through_carrier_allowed : ∃ conflicts,
    Sample.detector.detect = .ok conflicts ∧
      ⟨⟨"A", 0⟩, "r", ⟨"x", []⟩, ⟨"B", 1⟩, .invalidated⟩ ∈ conflicts.map Conflict.key ∧
      ⟨⟨"A", 0⟩, "r", ⟨"x", []⟩, ⟨"B", 3⟩, .useAfterScope⟩ ∈ conflicts.map Conflict.key ∧
      ⟨⟨"A", 0⟩, "r", ⟨"x", []⟩, ⟨"B", 2⟩, .invalidated⟩ ∉ conflicts.map Conflict.key := by
  obtain ⟨conflicts, hdetect, -, -, hkeys⟩ := detect_exact Sample.detector Sample.detector_placed
  refine ⟨conflicts, hdetect, (hkeys _).2 ?_, (hkeys _).2 ?_, fun hkey => ?_⟩
  · have hread : { kind := .read, path := ⟨"x", []⟩, point := ⟨"B", 1⟩ } ∈
        Sample.detector.facts.accesses := List.mem_cons_self
    exact ⟨_, List.mem_cons_self, rfl, rfl, rfl, .invalidated hread rfl
      (Sample.detector_activeAt (by decide)) ⟨⟨rfl, .inl (List.prefix_refl _)⟩, nofun⟩ nofun⟩
  · have hexit : ⟨"x", ⟨"B", 3⟩⟩ ∈ Sample.detector.facts.exits := List.mem_cons_self
    have hround : 2 ∈ Sample.detector.graph.succ 5 := by decide
    exact ⟨_, List.mem_cons_self, rfl, rfl, rfl, .useAfterScope hexit rfl (by decide) rfl
      (Sample.detector_activeAt (by decide)) hround (Sample.detector_activeAt (by decide))⟩
  · obtain ⟨loan, hloan, -, -, -, hbreaks⟩ := (hkeys _).1 hkey
    obtain rfl : loan = _ := List.mem_singleton.1 hloan
    have hflows : Sample.bodyConstraints.FlowsInto "r" "l" :=
      .single ⟨⟨"r", "l", ⟨"A", 1⟩, 1, .assignment⟩, by decide, rfl, rfl⟩
    generalize hpoint : (⟨"B", 2⟩ : Point) = point at hbreaks
    cases hbreaks with
    | invalidated hmem _ _ _ hforbids =>
      simp only [Sample.detector, Sample.facts, List.mem_cons, List.not_mem_nil, or_false] at hmem
      rcases hmem with rfl | rfl | rfl
      · cases hpoint
      · cases hpoint
      · exact hforbids "l" rfl hflows

end RegionInference
