import RegionInference.Proofs.Detection
import RegionInference.Proofs.Subtyping

/-!
# Soundness of the borrow check along paths

A reference is carried along a path: each element leaves the local that holds it alone, or stores
what it holds, a reborrow of it, or the result of a call that was handed it, in another local
(`Element.Carries`). If the path starts with a borrow and ends with a use of the last local, the
loan is active at all points after the borrow, so whatever it forbids there is reported
(`Body.carried_loan_reported`).

The proof goes along the path from its end. The local that holds the reference is live at each
point, because it is read where the reference moves on (`Body.Analyzed.carried_live`). So the region
of its lifetime has the point; and where the reference moves on, the region of the old lifetime
outlasts that of the new one (`Body.Analyzed.outlasts_of_carries`), so it has the rest of the path
too (`Body.Analyzed.carried_mem`).
-/

namespace RegionInference

/-! ### References on their way -/

/-- An element lets a reference in one local go on in another: the local is left alone, copied,
moved, reborrowed, or handed to a call that returns a reference of the lifetime of the
parameter. -/
inductive Element.Carries : Element → String → String → Prop where
  /-- The local is not overwritten. -/
  | kept {element : Element} {v : String} (h : v ∉ element.defs) : Carries element v v
  /-- The local is copied. -/
  | copied (v w : String) : Carries (.stmt (.assign ⟨w, []⟩ (.use (.copy ⟨v, []⟩)))) v w
  /-- The local is moved. -/
  | moved (v w : String) : Carries (.stmt (.assign ⟨w, []⟩ (.use (.move ⟨v, []⟩)))) v w
  /-- What the local refers to is borrowed. -/
  | reborrowed (v w lifetime : String) (mutable : Bool) :
      Carries (.stmt (.assign ⟨w, []⟩ (.borrow lifetime mutable ⟨v, [.deref]⟩))) v w
  /-- The local is handed to a call. -/
  | passed {v w func lifetime : String} {args : List Operand} {params : List Ty} {arg : Operand}
      {j : Nat} {mutable mutable' : Bool} {referent referent' : Ty} (harg : args[j]? = some arg)
      (hplace : arg.place? = some ⟨v, []⟩)
      (hparam : params[j]? = some (.ref lifetime mutable referent)) :
      Carries (.stmt (.assign ⟨w, []⟩
        (.call func args params (some (.ref lifetime mutable' referent'))))) v w

/-- What goes on elsewhere is read. -/
theorem Element.Carries.uses_or_kept {element : Element} {v w : String}
    (h : element.Carries v w) : v ∈ element.uses ∨ (w = v ∧ v ∉ element.defs) := by
  cases h with
  | kept hkeeps => exact .inr ⟨rfl, hkeeps⟩
  | copied => exact .inl (by simp [uses, Statement.uses, Rvalue.uses, Rvalue.operands,
      Operand.uses, Operand.place?])
  | moved => exact .inl (by simp [uses, Statement.uses, Rvalue.uses, Rvalue.operands,
      Operand.uses, Operand.place?])
  | reborrowed => exact .inl (by simp [uses, Statement.uses, Rvalue.uses])
  | @passed _ _ func lifetime args params arg j mutable mutable' referent referent' harg hplace =>
    refine .inl ?_
    have hread : v ∈ args.flatMap Operand.uses := by
      refine List.mem_flatMap.2 ⟨arg, List.mem_of_getElem? harg, ?_⟩
      simp [Operand.uses, hplace]
    rw [uses, Statement.uses, List.mem_eraseDups]
    exact List.mem_append_left _ hread

/-- A local holds a reference of a lifetime. -/
def Body.HoldsRef (body : Body) (v lifetime : String) : Prop :=
  ∃ mutable referent, body.placeType ⟨v, []⟩ = .ok (some (.ref lifetime mutable referent))

/-- Along the points `p 1` to `p k` a reference is carried through the locals `c 1` to `c k`, and at
the end it is used. -/
structure Body.CarriedAlong (body : Body) (p : Nat → Nat) (c : Nat → String) (k : Nat) : Prop where
  /-- The locals hold references. -/
  holds : ∀ i, 1 ≤ i → i ≤ k → ∃ lifetime, body.HoldsRef (c i) lifetime
  /-- Each element lets the reference go on. -/
  carries : ∀ i, 1 ≤ i → i < k →
    ∃ element, body.graph.elementAt? (p i) = some element ∧ element.Carries (c i) (c (i + 1))
  /-- The last element uses it. -/
  used : ∃ element, body.graph.elementAt? (p k) = some element ∧ c k ∈ element.uses

namespace Ty.SubAt

/-- A subtype that is a reference to be stored as a reference lasts at least as long. -/
theorem order_of_ref {order : String → String → Prop} {a b : String} {mutable mutable' : Bool}
    {s t : Ty} (h : SubAt order .covariant (.ref a mutable s) (.ref b mutable' t)) : order a b := by
  cases h with
  | shared hab => exact hab
  | mutable hab => exact hab

end Ty.SubAt

namespace Body

/-- A local that holds a reference of a lifetime has the lifetime in its type. -/
theorem HoldsRef.exists_var {body : Body} {v lifetime : String} (h : body.HoldsRef v lifetime) :
    ∃ found, body.var v = .ok found ∧ lifetime ∈ found.ty.lifetimes := by
  obtain ⟨mutable, referent, htype⟩ := h
  obtain ⟨found, hfound, heq⟩ := exists_of_map_eq_ok htype
  refine ⟨found, hfound, ?_⟩
  have hty : found.ty = .ref lifetime mutable referent := by simpa [Ty.project?] using heq
  rw [hty, Ty.lifetimes, List.mem_eraseDups, Ty.lifetimeWalk]
  exact List.mem_cons_self

/-- A local holds references of one lifetime at most. -/
theorem HoldsRef.unique {body : Body} {v a b : String} (ha : body.HoldsRef v a)
    (hb : body.HoldsRef v b) : a = b := by
  obtain ⟨mutable, referent, ha⟩ := ha
  obtain ⟨mutable', referent', hb⟩ := hb
  rw [ha] at hb
  cases hb
  rfl

/-- The references that a dereferenced local goes through: the one that it holds. -/
theorem HoldsRef.derefs_eq {body : Body} {v lifetime : String} (h : body.HoldsRef v lifetime) :
    ∃ mutable referent, body.derefs ⟨v, [.deref]⟩ = .ok [(lifetime, mutable)] ∧
      body.placeType ⟨v, [.deref]⟩ = .ok (some referent) := by
  obtain ⟨mutable, referent, htype⟩ := h
  obtain ⟨found, hfound, heq⟩ := exists_of_map_eq_ok htype
  have hty : found.ty = .ref lifetime mutable referent := by simpa [Ty.project?] using heq
  refine ⟨mutable, referent, ?_, ?_⟩
  · rw [derefs, hfound, Except.map]
    simp [hty, Ty.project?]
  · rw [placeType, hfound, Except.map]
    simp [hty, Ty.project?]

namespace Analyzed

variable {body : Body} {settings : Settings} {report : Report} {liveness : Liveness}
  {set : ConstraintSet} {solution : Solution} {p : Nat → Nat} {c : Nat → String} {k : Nat}

/-- The local that holds the reference is live at each point of the path. -/
theorem carried_live (h : body.Analyzed settings report liveness set solution)
    (hpath : body.graph.IsPath p k) (hcarried : body.CarriedAlong p c k) {i : Nat} (hi : 1 ≤ i)
    (hik : i ≤ k) : c i ∈ (liveness.factAt (p i)).1 := by
  obtain ⟨limit, hran⟩ := Liveness.exists_ran h.live
  -- from the end of the path back to its start
  induction hn : k - i generalizing i with
  | zero =>
    obtain rfl : i = k := by omega
    obtain ⟨element, helement, hused⟩ := hcarried.used
    show c i ∈ Liveness.Aspect.read.part (liveness.factAt (p i))
    exact (hran.mem_factAt helement).2 (.inl hused)
  | succ n ih =>
    obtain ⟨element, helement, hcarries⟩ := hcarried.carries i hi (by omega)
    show c i ∈ Liveness.Aspect.read.part (liveness.factAt (p i))
    rw [hran.mem_factAt helement]
    rcases hcarries.uses_or_kept with hused | ⟨heq, hkept⟩
    · exact .inl hused
    · have hnext : c (i + 1) ∈ (liveness.factAt (p (i + 1))).1 :=
        ih (by omega) (by omega) (by omega)
      rw [heq] at hnext
      exact .inr ⟨hkept, p (i + 1), hpath i (by omega), hnext⟩

/-- What a reborrow goes through outlasts it. -/
theorem outlasts_of_reborrow (h : body.Analyzed settings report liveness set solution)
    (hmet : set.MetBy report.regions.regionOf)
    {i q : Nat} {place : Place} {v a lifetime : String} {mutable : Bool}
    (helement : body.graph.elementAt? i =
      some (.stmt (.assign place (.borrow lifetime mutable ⟨v, [.deref]⟩))))
    (hq : q ∈ body.graph.succ i) (hv : body.HoldsRef v a) :
    body.graph.Outlasts report.regions.regionOf q a lifetime := by
  obtain ⟨point, demands, hpoint, hdemands, hhas⟩ := h.exists_assignment helement hq
  obtain ⟨mutable', referent, hderefs, -⟩ := hv.derefs_eq
  have hdemand : ⟨a, lifetime, point, .reborrow⟩ ∈ demands := by
    unfold Demand.assignment at hdemands
    obtain ⟨target, -, hdemands⟩ := exists_of_bind_eq_ok hdemands
    obtain ⟨value, -, hdemands⟩ := exists_of_bind_eq_ok hdemands
    obtain ⟨stored, -, hdemands⟩ := exists_of_bind_eq_ok hdemands
    obtain ⟨through, hthrough, hdemands⟩ := exists_of_bind_eq_ok hdemands
    cases hdemands
    rw [Demand.reborrow, hderefs] at hthrough
    cases hthrough
    refine List.mem_append_right _ ?_
    cases mutable' <;> exact List.mem_cons_self
  exact h.outlasts hmet (hhas _ hdemand) hpoint

/-- Where a reference goes on in another local, its lifetime outlasts that of the other one. -/
theorem outlasts_of_carries (h : body.Analyzed settings report liveness set solution)
    (hmet : set.MetBy report.regions.regionOf)
    {i q : Nat} {element : Element} (helement : body.graph.elementAt? i = some element)
    (hq : q ∈ body.graph.succ i) {v w a b : String} (hcarries : element.Carries v w)
    (hv : body.HoldsRef v a) (hw : body.HoldsRef w b) :
    body.graph.Outlasts report.regions.regionOf q a b := by
  obtain ⟨mutable, referent, hvType⟩ := id hv
  obtain ⟨mutable', referent', hwType⟩ := id hw
  cases hcarries with
  | kept hkept =>
    rw [hv.unique hw]
    exact .refl _ _ _ _
  | copied => exact (h.subAt_of_assign hmet helement hq hvType hwType).order_of_ref
  | moved => exact (h.subAt_of_assign hmet helement hq hvType hwType).order_of_ref
  | reborrowed _ _ lifetime mutable =>
    obtain ⟨-, inner, -, hinner⟩ := hv.derefs_eq
    have hvalue : body.rvalueType (.borrow lifetime mutable ⟨v, [.deref]⟩) =
        .ok (some (.ref lifetime mutable inner)) := by
      rw [rvalueType, hinner]
      rfl
    have hstored := h.subAt_of_assign hmet helement hq hvalue hwType
    exact (h.outlasts_of_reborrow hmet helement hq hv).trans hstored.order_of_ref
  | @passed _ _ func lifetime args params arg j given _ inner _ harg hplace hparam =>
    have htype : body.operandType arg = .ok (some (.ref a mutable referent)) := by
      rw [operandType, hplace]
      exact hvType
    have hzip : (arg, .ref lifetime given inner) ∈ args.zip params :=
      List.mem_of_getElem? (List.getElem?_zip_eq_some.2 ⟨harg, hparam⟩)
    have hpassed := h.subAt_of_argument hmet helement hq hzip htype
    have hstored := h.subAt_of_assign hmet helement hq rfl hwType
    exact .trans hpassed.order_of_ref hstored.order_of_ref

/-- The region of the lifetime of each local has the rest of the path. -/
theorem carried_mem (h : body.Analyzed settings report liveness set solution)
    (hmet : set.MetBy report.regions.regionOf)
    (hpath : body.graph.IsPath p k) (hcarried : body.CarriedAlong p c k) {i j : Nat} {a : String}
    (hi : 1 ≤ i) (ha : body.HoldsRef (c i) a) (hij : i ≤ j) (hjk : j ≤ k) :
    p j ∈ report.regions.regionOf a := by
  have hhere : ∀ {i : Nat} {a : String}, 1 ≤ i → i ≤ k → body.HoldsRef (c i) a →
      p i ∈ report.regions.regionOf a := by
    intro i a hi hik ha
    obtain ⟨found, hfound, hmem⟩ := ha.exists_var
    refine h.mem_of_read hmet ?_ (h.carried_live hpath hcarried hi hik) hfound hmem
    by_cases hend : i = k
    · obtain ⟨element, helement, -⟩ := hcarried.used
      rw [hend]
      exact Graph.lt_size_of_elementAt? helement
    · exact Graph.lt_size_of_mem_succ (hpath i (by omega))
  -- from the end of the path back to its start
  induction hn : k - i generalizing i j a with
  | zero =>
    obtain rfl : i = k := by omega
    obtain rfl : j = i := by omega
    exact hhere hi hjk ha
  | succ n ih =>
    by_cases hsame : j = i
    · subst hsame
      exact hhere hi hjk ha
    · obtain ⟨element, helement, hcarries⟩ := hcarried.carries i hi (by omega)
      obtain ⟨b, hb⟩ := hcarried.holds (i + 1) (by omega) (by omega)
      have hrest : ∀ m, i + 1 ≤ m → m ≤ j → p m ∈ report.regions.regionOf b :=
        fun m hm hmj => ih (by omega) hb hm (by omega) (by omega)
      have hreach := hpath.mem_reachWithin (by omega) hjk hrest
      exact h.outlasts_of_carries hmet helement (hpath i (by omega)) hcarries ha hb
        (p j) hreach

/-- The region of a loan has all points after the borrow. -/
theorem loan_mem (h : body.Analyzed settings report liveness set solution)
    (hmet : set.MetBy report.regions.regionOf)
    {lifetime : String} {mutable : Bool} {place : Place} {ty : Ty}
    (hborrow : body.graph.elementAt? (p 0) =
      some (.stmt (.assign ⟨c 1, []⟩ (.borrow lifetime mutable place))))
    (htype : body.placeType place = .ok (some ty)) (hpath : body.graph.IsPath p k)
    (hcarried : body.CarriedAlong p c k) {j : Nat} (hj : 1 ≤ j) (hjk : j ≤ k) :
    p j ∈ report.regions.regionOf lifetime := by
  obtain ⟨a, ha⟩ := hcarried.holds 1 (Nat.le_refl 1) (by omega)
  obtain ⟨mutable', referent, hlocal⟩ := id ha
  have hvalue : body.rvalueType (.borrow lifetime mutable place) =
      .ok (some (.ref lifetime mutable ty)) := by
    rw [rvalueType, htype]
    rfl
  have hstored := h.subAt_of_assign hmet hborrow (hpath 0 (by omega)) hvalue hlocal
  refine hstored.order_of_ref (p j) (hpath.mem_reachWithin hj hjk fun m hm hmj => ?_)
  exact h.carried_mem hmet hpath hcarried (Nat.le_refl 1) ha hm (by omega)

end Analyzed

/-- A loan is active at all points after the borrow that its region has. -/
theorem active_of_mem (detector : Detector) (loan : Loan) {p : Nat → Nat} {k : Nat}
    (hstart : detector.graph.index? loan.point = some (p 0)) (hk : 1 ≤ k)
    (hpath : detector.graph.IsPath p k)
    (hmem : ∀ j, 1 ≤ j → j ≤ k → p j ∈ detector.regions.regionOf loan.lifetime) :
    ∃ active, detector.active loan = .ok active ∧ ∀ j, 1 ≤ j → j ≤ k → p j ∈ active := by
  cases hregion : detector.regions.get? loan.lifetime with
  | none =>
    have hnone := hmem 1 (Nat.le_refl 1) hk
    rw [NameMap.regionOf, hregion] at hnone
    exact absurd hnone (PointSet.not_mem_empty _)
  | some region =>
    rw [NameMap.regionOf_of_get? hregion] at hmem
    refine ⟨Detector.reachAfter detector.graph (p 0) region, ?_, fun j hj hjk => ?_⟩
    · rw [Detector.active, hregion, Graph.index_eq_ok.2 hstart]
      rfl
    · rw [Detector.mem_reachAfter]
      refine ⟨p 1, hpath 0 (by omega), hpath.mem_reachWithin hj hjk fun m hm hmj => ?_⟩
      exact hmem m hm (by omega)

/-- **Soundness of the borrow check along paths.** Take an analysis of a body without placeholders
and without given facts that has converged and has looked for conflicts. If a borrow is stored in a
local, and a path leads on from it along which the reference is carried to a use, then the loan is
active at all points of the path after the borrow. So an access there that touches the borrowed
place is reported if it writes or moves what is on loan for reading, or does not go through the
reference to what is on loan for writing; and so is the end of the storage of the borrowed local
before the last point. -/
theorem carried_loan_reported {body : Body} {settings : Settings} {report : Report}
    (h : body.analyze settings = .ok report) (hconverged : report.converged = true)
    (hdetect : settings.detectConflicts = true)
    (hfree : ∀ lifetime ∈ body.placeholders, lifetime.isPlaceholder = false)
    (hloans : body.loans = none) (haccesses : body.accesses = none) (hexits : body.exits = none)
    {p : Nat → Nat} {c : Nat → String} {k : Nat} {start : Point} {lifetime : String}
    {mutable : Bool} {place : Place} {ty : Ty} (hstart : body.graph.index? start = some (p 0))
    (hborrow : body.graph.elementAt? (p 0) =
      some (.stmt (.assign ⟨c 1, []⟩ (.borrow lifetime mutable place))))
    (htype : body.placeType place = .ok (some ty)) (hk : 1 ≤ k) (hpath : body.graph.IsPath p k)
    (hcarried : body.CarriedAlong p c k) :
    ∃ liveness constraints facts,
      Liveness.run body settings.order settings.maxIterations = .ok liveness ∧
      ConstraintSet.ofBody body liveness = .ok constraints ∧ body.facts = .ok facts ∧
      let detector : Detector := { body, regions := report.regions, facts, constraints }
      let loan : Loan := ⟨lifetime, if mutable then .mutable else .shared, place, start⟩
      loan ∈ facts.loans ∧
      (∃ active, detector.active loan = .ok active ∧ ∀ i, 1 ≤ i → i ≤ k → p i ∈ active) ∧
      (∀ i point element accesses access, 1 ≤ i → i ≤ k → body.graph.index? point = some (p i) →
        body.graph.elementAt? (p i) = some element →
        LoanFacts.accessesAt body point element = .ok accesses → access ∈ accesses →
        (if access.shallow then access.path.overwriteOverlaps place
          else place.overlaps access.path) = true →
        (if mutable then ∀ l, access.through = some l → l ∉ constraints.flowsTo lifetime
          else access.kind = .write ∨ access.kind = .move) →
        Conflict.Reported report.conflicts loan access.point .invalidated) ∧
      ∀ i point, 1 ≤ i → i < k → body.graph.index? point = some (p i) →
        body.graph.elementAt? (p i) = some (.stmt (.storageDead place.base)) →
        place.throughDeref = false →
        Conflict.Reported report.conflicts loan point .useAfterScope := by
  obtain ⟨liveness, set, solution, hrun⟩ := analyze_eq_ok h
  have hchecked := hrun.checked hdetect
  rw [← hrun.regions_eq] at hchecked
  obtain ⟨facts, hfacts, hconflicts⟩ := exists_of_bind_eq_ok hchecked
  refine ⟨liveness, set, facts, hrun.live, hrun.generated, hfacts, ?_⟩
  intro detector loan
  have hloan : loan ∈ facts.loans :=
    (facts_eq_ok hfacts hloans haccesses hexits hstart hborrow).1 loan rfl
  have hmet := hrun.metBy hconverged (.inr (free_of_placeholders hfree))
  obtain ⟨active, hactive, hmem⟩ := active_of_mem detector loan hstart hk hpath fun j hj hjk =>
    hrun.loan_mem hmet hborrow htype hpath hcarried hj hjk
  refine ⟨hloan, ⟨active, hactive, hmem⟩, ?_, ?_⟩
  · intro i point element accesses access hi hik hpoint helement haccess hat htouches hforbids
    obtain ⟨-, ⟨accesses', haccess', hsubset⟩, -⟩ :=
      facts_eq_ok hfacts hloans haccesses hexits hpoint helement
    rw [haccess] at haccess'
    cases haccess'
    have hindex : detector.graph.index? access.point = some (p i) := by
      rw [LoanFacts.point_of_mem_accessesAt haccess hat]
      exact hpoint
    refine Detector.reported_of_invalidates hconflicts hloan hactive (hsubset access hat) hindex
      (hmem i hi hik) htouches ?_
    cases mutable with
    | false => simpa [Detector.forbids, loan] using hforbids
    | true =>
      cases hthrough : access.through with
      | none => simp [Detector.forbids, loan, hthrough]
      | some l => simpa [Detector.forbids, loan, hthrough] using hforbids
  · intro i point hi hik hpoint helement hdirect
    have hexit : ⟨place.base, point⟩ ∈ facts.exits :=
      (facts_eq_ok hfacts hloans haccesses hexits hpoint helement).2.2 _ rfl
    exact Detector.reported_of_escapes hconflicts hloan hdirect hactive hexit rfl hpoint
      (hmem i hi (by omega)) (hpath i hik) (hmem (i + 1) (by omega) hik)

end Body

/-! ### A loan that is carried round the loop -/

namespace Sample

/-- Through the loop of the sample body twice. -/
def path (i : Nat) : Nat :=
  [0, 1, 2, 3, 4, 5, 2, 3, 4].getD i 0

/-- The reference stays in `p` until it is copied in the second round. -/
def carrier (i : Nat) : String :=
  if i ≤ 6 then "p" else "q"

/-- Along the sample path the reference is carried from local to local. -/
theorem carriedAlong_path : body.CarriedAlong path carrier 8 where
  holds i _ _ := by
    unfold carrier
    split
    · exact ⟨"l", false, .scalar "i32", rfl⟩
    · exact ⟨"m", false, .scalar "i32", rfl⟩
  carries i hi hik := by
    by_cases hcopy : i = 6
    · subst hcopy
      exact ⟨_, rfl, .copied "p" "q"⟩
    · -- every other element leaves the local alone
      have hcases : i = 1 ∨ i = 2 ∨ i = 3 ∨ i = 4 ∨ i = 5 ∨ i = 7 := by omega
      obtain ⟨element, helement, hsame, hdefs⟩ : ∃ element, body.graph.elementAt? (path i) =
          some element ∧ carrier (i + 1) = carrier i ∧ carrier i ∉ element.defs := by
        rcases hcases with rfl | rfl | rfl | rfl | rfl | rfl <;>
          exact ⟨_, rfl, by decide, by decide⟩
      rw [hsame]
      exact ⟨element, helement, .kept hdefs⟩
  used := ⟨.stmt (.use [.copy ⟨"q", [.deref]⟩]), rfl, by decide⟩

end Sample

/-- In the sample body, overwriting `x` in the loop is reported: the loan of `x` is carried to the
use in the second round. -/
theorem Body.overwrite_in_loop_reported : ∃ report, Sample.body.analyze = .ok report ∧
    report.converged = true ∧
    Conflict.Reported report.conflicts ⟨"r", .shared, ⟨"x", []⟩, ⟨"A", 0⟩⟩ ⟨"B", 1⟩
      .invalidated := by
  obtain ⟨report, hreport, -, -, hconverged⟩ := Sample.exists_report
  refine ⟨report, hreport, hconverged, ?_⟩
  have hpath : Sample.body.graph.IsPath Sample.path 8 := by
    unfold Graph.IsPath
    decide
  have hplace : Sample.body.placeType ⟨"x", []⟩ = .ok (some (.scalar "i32")) := rfl
  obtain ⟨liveness, constraints, facts, -, -, -, -, -, hreported, -⟩ :=
    carried_loan_reported hreport hconverged rfl (by decide) rfl rfl rfl
      (show Sample.body.graph.index? ⟨"A", 0⟩ = some (Sample.path 0) by decide) rfl hplace
      (by decide) hpath Sample.carriedAlong_path
  exact hreported 7 ⟨"B", 1⟩ _ _ ⟨.write, ⟨"x", []⟩, ⟨"B", 1⟩, none, true⟩ (by decide) (by decide)
    (by decide) rfl rfl List.mem_cons_self (by decide) (.inl rfl)

end RegionInference
