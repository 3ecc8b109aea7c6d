import RegionInference.Loan.Derive
import RegionInference.Proofs.BodyConstraints

/-!
# Which demands become constraints

The types of places and values, what elements demand and what they access depend on the locals of a
body and on nothing else of it (`Demand.ofElement_congr`, `LoanFacts.accessesAt_congr`).

Of several demands between two lifetimes at a point, the first becomes a constraint and gives it its
origin; a demand between a lifetime and itself becomes none (`ConstraintSet.mem_outlives_ofBody`).
So what matters is which demand is the first, not how the others are arranged.
-/

namespace RegionInference

/-! ### Bodies with the same locals -/

section

variable {body other : Body} (h : other.vars = body.vars)

include h

/-- Bodies with the same locals find the same local under a name. -/
theorem Body.var_congr : other.var = body.var := by
  funext name
  unfold Body.var
  rw [h]

/-- They give a place the same type. -/
theorem Body.placeType_congr : other.placeType = body.placeType := by
  funext place
  unfold Body.placeType
  rw [Body.var_congr h]

/-- They give an operand the same type. -/
theorem Body.operandType_congr : other.operandType = body.operandType := by
  funext operand
  unfold Body.operandType
  rw [Body.placeType_congr h]

/-- They give a right side the same type. -/
theorem Body.rvalueType_congr : other.rvalueType = body.rvalueType := by
  funext rvalue
  unfold Body.rvalueType
  rw [Body.operandType_congr h, Body.placeType_congr h]

/-- They find the same references on the way to a place. -/
theorem Body.derefs_congr : other.derefs = body.derefs := by
  funext place
  unfold Body.derefs
  rw [Body.var_congr h]

/-- They find the same reference that a place goes through. -/
theorem Body.through_congr : other.through = body.through := by
  funext place
  unfold Body.through
  rw [Body.placeType_congr h]

/-- What an element demands depends on the locals only. -/
theorem Demand.ofElement_congr : Demand.ofElement other = Demand.ofElement body := by
  funext point element
  unfold Demand.ofElement Demand.assignment Demand.reborrow
  rw [Body.placeType_congr h, Body.operandType_congr h, Body.rvalueType_congr h,
    Body.derefs_congr h]

/-- What an element accesses depends on the locals only. -/
theorem LoanFacts.accessesAt_congr : LoanFacts.accessesAt other = LoanFacts.accessesAt body := by
  have haccess : @LoanFacts.access other = @LoanFacts.access body := by
    funext kind path point shallow
    unfold LoanFacts.access
    rw [Body.through_congr h]
  have hoperand : LoanFacts.operandAccess other = LoanFacts.operandAccess body := by
    funext point operand
    unfold LoanFacts.operandAccess
    rw [haccess]
  have hoperands : LoanFacts.operandAccesses other = LoanFacts.operandAccesses body := by
    funext point operands
    unfold LoanFacts.operandAccesses
    rw [hoperand]
  funext point element
  unfold LoanFacts.accessesAt
  rw [haccess, hoperand, hoperands]

end

/-! ### The first demand -/

/-- Whether a demand is the one that a constraint would stand for. -/
def Demand.asks (demand : Demand) (c : Outlives) : Bool :=
  demand.longer == c.longer && demand.shorter == c.shorter && demand.point == c.point

/-- A demand asks for a constraint between the same lifetimes at the same point. -/
theorem Demand.asks_iff {demand : Demand} {c : Outlives} : demand.asks c = true ↔
    demand.longer = c.longer ∧ demand.shorter = c.shorter ∧ demand.point = c.point := by
  simp only [asks, Bool.and_eq_true, beq_iff_eq, and_assoc]

namespace ConstraintSet

variable {set next : ConstraintSet} {c : Outlives}

/-- A set has a constraint between the lifetimes and at the point of another one. -/
def HasLike (set : ConstraintSet) (c : Outlives) : Prop :=
  ∃ old ∈ set.outlives, old.longer = c.longer ∧ old.shorter = c.shorter ∧ old.point = c.point

/-- A demand is taken up iff it relates two lifetimes that are not related yet at the point. -/
theorem addOutlives_takes_new {demand : Demand} {added : Bool}
    (h : set.addOutlives demand.longer demand.shorter demand.point demand.origin =
      .ok (next, added)) :
    ∃ i, set.graph.index? demand.point = some i ∧
      let made : Outlives := ⟨demand.longer, demand.shorter, demand.point, i, demand.origin⟩
      (next = set ∧ (demand.longer = demand.shorter ∨ set.HasLike made)) ∨
        (next = set.appendOutlives [made] ∧
          demand.longer ≠ demand.shorter ∧ ¬set.HasLike made) := by
  unfold addOutlives at h
  obtain ⟨i, hcheck, h⟩ := exists_of_bind_eq_ok h
  obtain ⟨-, -, hindex⟩ := check_eq_ok.1 hcheck
  refine ⟨i, hindex, ?_⟩
  dsimp only
  split at h
  · next hsame =>
    cases h
    exact .inl ⟨rfl, .inl (by simpa using hsame)⟩
  · next hdiffer =>
    split at h
    · next hthere =>
      cases h
      exact .inl ⟨rfl, .inr (seen_outlives.1 hthere)⟩
    · next hnew =>
      cases h
      exact .inr ⟨rfl, by simpa using hdiffer, fun hthere => hnew (seen_outlives.2 hthere)⟩

/-- What a set has when demands have been added to it: what it had, and for each two lifetimes and
each point that were not related the first demand that relates them. -/
def Takes (set : ConstraintSet) (demands : List Demand) (c : Outlives) : Prop :=
  c ∈ set.outlives ∨ (¬set.HasLike c ∧ c.longer ≠ c.shorter ∧
    set.graph.index? c.point = some c.index ∧
    ∃ demand, demands.find? (·.asks c) = some demand ∧ demand.origin = c.origin)

/-- Adding the first of some demands leaves the same to be taken up. -/
theorem takes_cons {demand : Demand} {demands : List Demand} {added : Bool}
    (h : set.addOutlives demand.longer demand.shorter demand.point demand.origin =
      .ok (next, added)) : next.Takes demands c ↔ set.Takes (demand :: demands) c := by
  have hskip : ¬demand.asks c = true →
      (demand :: demands).find? (·.asks c) = demands.find? (·.asks c) :=
    fun hother => List.find?_cons_of_neg hother
  have htake : demand.asks c = true → (demand :: demands).find? (·.asks c) = some demand :=
    fun hasks => List.find?_cons_of_pos hasks
  unfold Takes
  obtain ⟨i, hi, ⟨rfl, hidle⟩ | ⟨rfl, hdiffer, hnew⟩⟩ := addOutlives_takes_new h
  · refine or_congr_right (and_congr_right fun hfresh => and_congr_right fun hne => ?_)
    -- the demand is not the one of the constraint, since it was not taken up
    rw [hskip]
    intro hasks
    obtain ⟨hlonger, hshorter, hpoint⟩ := Demand.asks_iff.1 hasks
    rcases hidle with htrivial | ⟨old, hold, hlike⟩
    · exact hne (by rw [← hlonger, ← hshorter, htrivial])
    · exact hfresh ⟨old, hold, hlike.1.trans hlonger, hlike.2.1.trans hshorter,
        hlike.2.2.trans hpoint⟩
  · by_cases hasks : demand.asks c = true
    · obtain ⟨hlonger, hshorter, hpoint⟩ := Demand.asks_iff.1 hasks
      rw [htake hasks, outlives_appendOutlives, List.mem_append, List.mem_singleton]
      constructor
      · rintro ((hold | rfl) | ⟨hfresh, -⟩)
        · exact .inl hold
        · exact .inr ⟨hnew, hdiffer, hi, demand, rfl, rfl⟩
        · exact absurd ⟨_, List.mem_append_right _ List.mem_cons_self, hlonger, hshorter, hpoint⟩
            hfresh
      · rintro (hold | ⟨-, -, hindex, _, hfirst, horigin⟩)
        · exact .inl (.inl hold)
        · cases hfirst
          rw [hpoint, hindex] at hi
          obtain rfl := Option.some.inj hi
          refine .inl (.inr ?_)
          rw [hlonger, hshorter, hpoint, horigin]
    · rw [hskip hasks, outlives_appendOutlives, List.mem_append, List.mem_singleton]
      have hlike : (set.appendOutlives
          [⟨demand.longer, demand.shorter, demand.point, i, demand.origin⟩]).HasLike c ↔
            set.HasLike c := by
        constructor
        · rintro ⟨old, hold, hkey⟩
          rcases List.mem_append.1 hold with hold | hlast
          · exact ⟨old, hold, hkey⟩
          · rw [List.mem_singleton.1 hlast] at hkey
            exact absurd (Demand.asks_iff.2 hkey) hasks
        · rintro ⟨old, hold, hkey⟩
          exact ⟨old, List.mem_append_left _ hold, hkey⟩
      rw [hlike, or_assoc]
      refine or_congr_right ⟨?_, .inr⟩
      rintro (rfl | hrest)
      · exact absurd (Demand.asks_iff.2 ⟨rfl, rfl, rfl⟩) hasks
      · exact hrest

/-- What a set has after demands were added. -/
theorem mem_outlives_addDemands {demands : List Demand} (h : set.addDemands demands = .ok next) :
    c ∈ next.outlives ↔ set.Takes demands c := by
  unfold addDemands at h
  induction demands generalizing set with
  | nil =>
    cases h
    simp [Takes]
  | cons demand demands ih =>
    rw [List.foldlM_cons] at h
    obtain ⟨_, hadded, h⟩ := exists_of_bind_eq_ok h
    obtain ⟨⟨grown, added⟩, hadd, rfl⟩ := exists_of_map_eq_ok hadded
    rw [ih h, takes_cons hadd]

/-- The constraints of a body between regions are, for each two lifetimes and each point, the first
demand that relates them there. -/
theorem mem_outlives_ofBody {body : Body} {liveness : Liveness}
    (h : ofBody body liveness = .ok set) {demands : List Demand}
    (hdemands : Demand.ofBody body = .ok demands) :
    c ∈ set.outlives ↔ c.longer ≠ c.shorter ∧ body.graph.index? c.point = some c.index ∧
      ∃ demand, demands.find? (·.asks c) = some demand ∧ demand.origin = c.origin := by
  obtain ⟨live, demands', opened, -, hdemands', hopened, rfl⟩ := ofBody_eq_ok h
  rw [hdemands] at hdemands'
  cases hdemands'
  have hfresh : ¬HasLike
      ((ConstraintSet.new body.graph (body.lifetimes.map Lifetime.name)).appendLive live) c := by
    rintro ⟨old, hold, -⟩
    exact List.not_mem_nil hold
  have hset : opened.freeze.outlives = opened.outlives := rfl
  rw [hset, mem_outlives_addDemands hopened]
  constructor
  · rintro (hold | ⟨-, htaken⟩)
    · exact absurd hold List.not_mem_nil
    · exact htaken
  · exact fun htaken => .inr ⟨hfresh, htaken⟩

end ConstraintSet

end RegionInference
