import RegionInference.Proofs.ConstraintSet
import RegionInference.Proofs.Reach
import RegionInference.Solve.Basic

/-!
# What applying a constraint does

Regions are looked up in a map (`NameMap.regionOf`), and a placeholder has the points that it lists,
or all points (`Lifetime.mem_fixedRegion`). What a constraint needs depends on one region only and
grows with it (`Constraint.needed_congr`, `Constraint.needed_mono`).

Applying a constraint does one of three things (`Problem.applied_of_grow`): it holds what the
constraint needs against a fixed region and records what is lacking, it finds that a free region has
it already, or it lets the free region grow.
-/

namespace RegionInference

namespace NameMap

/-- A map has a value for each of its names. -/
theorem exists_get?_of_mem {map : NameMap α} {name : String} (h : name ∈ map.keys) :
    ∃ value, map.get? name = some value := by
  obtain ⟨entries⟩ := map
  simp only [keys, get?] at *
  induction entries with
  | nil => simp at h
  | cons entry entries ih =>
    obtain ⟨other, value⟩ := entry
    rw [findPair?]
    split
    · exact ⟨value, rfl⟩
    · next hne =>
      rw [List.map_cons, List.mem_cons] at h
      exact ih (h.resolve_left hne)

/-- A value of a map stands in it with its name. -/
theorem mem_entries_of_get? {map : NameMap α} {name : String} {value : α}
    (h : map.get? name = some value) : (name, value) ∈ map.entries := by
  obtain ⟨entries⟩ := map
  simp only [get?] at *
  induction entries with
  | nil => simp [findPair?] at h
  | cons entry entries ih =>
    obtain ⟨other, old⟩ := entry
    rw [findPair?] at h
    split at h
    · next heq =>
      cases h
      rw [heq]
      exact List.mem_cons_self
    · exact List.mem_cons_of_mem _ (ih h)

/-- What a map has a value for is one of its names. -/
theorem mem_keys_of_get? {map : NameMap α} {name : String} {value : α}
    (h : map.get? name = some value) : name ∈ map.keys :=
  List.mem_map.2 ⟨(name, value), mem_entries_of_get? h, rfl⟩

/-- Maps whose values were computed for the names of a list. -/
theorem get?_of_forall₂ {f : String → Except ε α} {names : List String}
    {entries : List (String × α)}
    (h : List.Forall₂ (fun name entry => entry.1 = name ∧ f name = .ok entry.2) names entries) :
    (⟨entries⟩ : NameMap α).keys = names ∧
      ∀ name value, (⟨entries⟩ : NameMap α).get? name = some value → f name = .ok value := by
  induction h with
  | nil => simp [keys, get?, findPair?]
  | @cons name entry names entries hentry hrest ih =>
    obtain ⟨other, old⟩ := entry
    obtain ⟨rfl, hvalue⟩ := hentry
    obtain ⟨hkeys, hget⟩ := ih
    constructor
    · simpa [keys] using hkeys
    · intro name value h
      rw [get?, findPair?] at h
      split at h
      · next heq =>
        cases h
        rwa [heq]
      · exact hget name value h

/-- The region of a lifetime; it is empty if there is none. -/
def regionOf (regions : NameMap PointSet) (lifetime : String) : PointSet :=
  (regions.get? lifetime).getD ∅

/-- The region of a lifetime that has one. -/
theorem regionOf_of_get? {regions : NameMap PointSet} {lifetime : String} {region : PointSet}
    (h : regions.get? lifetime = some region) : regions.regionOf lifetime = region := by
  rw [regionOf, h, Option.getD_some]

/-- Only the names of a map have points. -/
theorem mem_keys_of_regionOf {regions : NameMap PointSet} {lifetime : String} {i : Nat}
    (h : i ∈ regions.regionOf lifetime) : lifetime ∈ regions.keys := by
  unfold regionOf at h
  cases hget : regions.get? lifetime with
  | none =>
    rw [hget] at h
    exact absurd h (PointSet.not_mem_empty i)
  | some region => exact mem_keys_of_get? hget

/-- The regions after one of them was set. -/
theorem regionOf_set (regions : NameMap PointSet) (name other : String) (region : PointSet) :
    (regions.set name region).regionOf other =
      if other = name then region else regions.regionOf other := by
  unfold regionOf
  rw [get?_set]
  split <;> rfl

end NameMap

/-! ### Fixed regions -/

/-- The points of a set that is made of a list of points. -/
theorem Graph.setOf_eq_ok {g : Graph} {points : List Point} {set : PointSet}
    (h : g.setOf points = .ok set) :
    (∀ point ∈ points, ∃ i, g.index? point = some i) ∧
      ∀ i, i ∈ set ↔ ∃ point ∈ points, g.index? point = some i := by
  have hfold : ∀ (points : List Point) (start : PointSet),
      points.foldlM (fun set point => (g.index point).map set.insert) start = .ok set →
        (∀ point ∈ points, ∃ i, g.index? point = some i) ∧
          ∀ i, i ∈ set ↔ i ∈ start ∨ ∃ point ∈ points, g.index? point = some i := by
    intro points
    induction points with
    | nil =>
      intro start h
      cases h
      simp
    | cons point points ih =>
      intro start h
      rw [List.foldlM_cons] at h
      obtain ⟨next, hnext, h⟩ := exists_of_bind_eq_ok h
      obtain ⟨j, hj, rfl⟩ := exists_of_map_eq_ok hnext
      rw [Graph.index_eq_ok] at hj
      obtain ⟨hknown, hmem⟩ := ih _ h
      refine ⟨by simpa [hj] using hknown, fun i => ?_⟩
      rw [hmem, PointSet.mem_insert, or_assoc]
      simp [hj, eq_comm]
  obtain ⟨hknown, hmem⟩ := hfold points ∅ h
  exact ⟨hknown, fun i => by simpa using hmem i⟩

/-- Points of the graph make a set. -/
theorem Graph.exists_setOf {g : Graph} {points : List Point}
    (h : ∀ point ∈ points, ∃ i, g.index? point = some i) : ∃ set, g.setOf points = .ok set := by
  unfold setOf
  generalize (∅ : PointSet) = start
  induction points generalizing start with
  | nil => exact ⟨start, rfl⟩
  | cons point points ih =>
    obtain ⟨i, hi⟩ := h point List.mem_cons_self
    rw [List.foldlM_cons, Graph.index_eq_ok.2 hi]
    exact ih (fun other hother => h other (List.mem_cons_of_mem _ hother)) (start.insert i)

namespace Lifetime

/-- The points of the fixed region of a placeholder: all of them, or the listed ones. -/
def Spans (lifetime : Lifetime) (g : Graph) (i : Nat) : Prop :=
  if lifetime.coversAll then i < g.size
  else ∃ point ∈ lifetime.fixed.getD [], g.index? point = some i

/-- A placeholder has a fixed region iff the listed points, if they count, are points of the
graph. -/
def Placed (lifetime : Lifetime) (g : Graph) : Prop :=
  lifetime.coversAll = false → ∀ point ∈ lifetime.fixed.getD [], ∃ i, g.index? point = some i

/-- A placeholder has a fixed region iff the points listed for it are points of the graph, where
they count. -/
theorem exists_fixedRegion {lifetime : Lifetime} {g : Graph}
    (hkind : lifetime.isPlaceholder = true) :
    (∃ region, lifetime.fixedRegion g = .ok region) ↔ lifetime.Placed g := by
  have hplaceholder : lifetime.kind = .placeholder := by simpa [isPlaceholder] using hkind
  unfold fixedRegion Placed
  rw [hplaceholder]
  cases lifetime.coversAll with
  | true => simp
  | false =>
    constructor
    · rintro ⟨region, h⟩ -
      exact (Graph.setOf_eq_ok h).1
    · intro h
      exact Graph.exists_setOf (h rfl)

/-- The fixed region of a placeholder has what its declaration spans. -/
theorem mem_fixedRegion {lifetime : Lifetime} {g : Graph} {region : PointSet}
    (hkind : lifetime.isPlaceholder = true) (h : lifetime.fixedRegion g = .ok region) {i : Nat} :
    i ∈ region ↔ lifetime.Spans g i := by
  have hplaceholder : lifetime.kind = .placeholder := by simpa [isPlaceholder] using hkind
  unfold fixedRegion at h
  unfold Spans
  rw [hplaceholder] at h
  cases hall : lifetime.coversAll with
  | true =>
    rw [hall] at h
    cases h
    simp [Graph.all]
  | false =>
    rw [hall] at h
    simpa using (Graph.setOf_eq_ok h).2 i

end Lifetime

/-! ### What constraints need -/

namespace Constraint

/-- Greater regions need more. -/
theorem needed_mono {g : Graph} {R R' : String → PointSet} {c : Constraint}
    (h : ∀ l, c.source? = some l → ∀ i ∈ R l, i ∈ R' l) :
    ∀ i ∈ c.needed g R, i ∈ c.needed g R' := by
  cases c with
  | live c => exact fun i hi => hi
  | outlives c => exact fun i hi => Graph.reachWithin_mono (h c.shorter rfl) hi

/-- What is needed depends on one region only. -/
theorem needed_congr {g : Graph} {R R' : String → PointSet} {c : Constraint}
    (h : ∀ l, c.source? = some l → R l = R' l) : c.needed g R = c.needed g R' := by
  cases c with
  | live c => rfl
  | outlives c => rw [needed, needed, h c.shorter rfl]

end Constraint

namespace Problem

/-! ### Where regions start -/

/-- The fixed lifetimes are the declared placeholders. -/
theorem isFixed_eq_true {problem : Problem} {l : String} :
    problem.isFixed l = true ↔
      ∃ lifetime, problem.declared.get? l = some lifetime ∧ lifetime.isPlaceholder = true := by
  unfold isFixed
  cases problem.declared.get? l <;> simp

/-- A lifetime that is solved for starts with what is given. -/
theorem initialRegion_of_free {problem : Problem} {initial : NameMap PointSet} {l : String}
    (h : problem.isFixed l = false) :
    problem.initialRegion initial l = .ok (initial.regionOf l) := by
  unfold isFixed at h
  unfold initialRegion
  cases hget : problem.declared.get? l with
  | none => rfl
  | some lifetime =>
    rw [hget, Option.any_some] at h
    dsimp only
    rw [h]
    rfl

/-- A placeholder starts with its fixed region. -/
theorem initialRegion_of_fixed {problem : Problem} {initial : NameMap PointSet} {l : String}
    {lifetime : Lifetime} (hget : problem.declared.get? l = some lifetime)
    (hkind : lifetime.isPlaceholder = true) :
    problem.initialRegion initial l = lifetime.fixedRegion problem.constraints.graph := by
  unfold initialRegion
  rw [hget]
  exact if_pos hkind

/-! ### Applying a constraint -/

/-- The points that are recorded for a constraint. -/
def recorded (violations : List Violation) (c : Constraint) : PointSet :=
  ((violations.find? (·.constraint = c)).map Violation.extra).getD ∅

/-- A violation adds its points to the record of its own constraint, and leaves the others. -/
theorem recorded_recordViolation (violation : Violation) (violations : List Violation)
    (c : Constraint) {i : Nat} :
    i ∈ recorded (recordViolation violation violations) c ↔
      i ∈ recorded violations c ∨ (c = violation.constraint ∧ i ∈ violation.extra) := by
  induction violations with
  | nil =>
    unfold recorded recordViolation
    by_cases hc : violation.constraint = c
    · simp [hc]
    · simp [hc, Ne.symm hc]
  | cons other violations ih =>
    unfold recorded at ih ⊢
    rw [recordViolation]
    by_cases hsame : other.constraint = violation.constraint
    · rw [if_pos hsame]
      by_cases hc : violation.constraint = c
      · simp [hsame, hc]
      · simp [hsame, hc, Ne.symm hc]
    · rw [if_neg hsame]
      by_cases hc : other.constraint = c
      · subst hc
        simp [hsame]
      · simpa [hc] using ih

/-- Applying a constraint on a fixed region holds what it needs against the region. -/
theorem grow_of_fixed {problem : Problem} {state : State} {c : Constraint} {region : PointSet}
    (hregion : state.regions.get? c.target = some region)
    (hfixed : problem.isFixed c.target = true) :
    problem.grow state c = (problem.growFixed state
      ⟨c, (c.needed problem.constraints.graph state.region).diff region⟩).map (·, false) := by
  rw [grow, hregion]
  exact if_pos hfixed

/-- Applying a constraint on a free region adds what is needed, if something is lacking. -/
theorem grow_of_free {problem : Problem} {state : State} {c : Constraint} {region : PointSet}
    (hregion : state.regions.get? c.target = some region)
    (hfree : problem.isFixed c.target = false) :
    problem.grow state c =
      if region.union (c.needed problem.constraints.graph state.region) = region then
        .ok (state, false)
      else
        (problem.growFree state ⟨c.target, region,
          region.union (c.needed problem.constraints.graph state.region)⟩).map (·, true) := by
  rw [grow, hregion]
  exact if_neg (by simp [hfree])

/-- What applying a constraint comes to, given the region of its target. -/
inductive Applied (problem : Problem) (state : State) (c : Constraint) (region : PointSet) :
    State → Bool → Prop where
  /-- The region is fixed: what it lacks is recorded. -/
  | fixed {violations : List Violation} (hfixed : problem.isFixed c.target = true)
      (hrecorded : ∀ other i, i ∈ recorded violations other ↔ i ∈ recorded state.violations other ∨
        (other = c ∧ i ∈ c.needed problem.constraints.graph state.region ∧ i ∉ region)) :
      Applied problem state c region { state with violations } false
  /-- The region has what is needed. -/
  | met (hfree : problem.isFixed c.target = false)
      (hmet : ∀ i ∈ c.needed problem.constraints.graph state.region, i ∈ region) :
      Applied problem state c region state false
  /-- The region grows. -/
  | grown {history : List Growth} (hfree : problem.isFixed c.target = false) :
      Applied problem state c region
        { state with
          regions := state.regions.set c.target
            (region.union (c.needed problem.constraints.graph state.region))
          applications := state.applications + 1
          history } true

/-- Holding points against a fixed region does nothing if there are none, and else records them. -/
theorem growFixed_eq_ok {problem : Problem} {state next : State} {violation : Violation}
    (h : problem.growFixed state violation = .ok next) :
    ((∀ i, i ∉ violation.extra) ∧ next = state) ∨ ((∃ i, i ∈ violation.extra) ∧
      next = { state with violations := recordViolation violation state.violations }) := by
  unfold growFixed at h
  split at h
  · next hempty =>
    cases h
    exact .inl ⟨PointSet.isEmpty_iff.1 hempty, rfl⟩
  · next hsome =>
    split at h
    · cases h
    · cases h
      rw [PointSet.isEmpty_iff] at hsome
      exact .inr ⟨by simpa using hsome, rfl⟩

/-- Applying a constraint does one of three things. -/
theorem applied_of_grow {problem : Problem} {state next : State} {c : Constraint}
    {region : PointSet} {grew : Bool} (h : problem.grow state c = .ok (next, grew))
    (hregion : state.regions.get? c.target = some region) :
    Applied problem state c region next grew := by
  unfold grow at h
  rw [hregion] at h
  dsimp only at h
  split at h
  · next hfixed =>
    obtain ⟨grown, hgrown, heq⟩ := exists_of_map_eq_ok h
    cases heq
    rcases growFixed_eq_ok hgrown with ⟨hnone, rfl⟩ | ⟨-, rfl⟩
    · refine .fixed hfixed fun other i => ⟨.inl, ?_⟩
      rintro (hold | ⟨-, hneeded, hout⟩)
      · exact hold
      · exact absurd (PointSet.mem_diff.2 ⟨hneeded, hout⟩) (hnone i)
    · refine .fixed hfixed fun other i => ?_
      rw [recorded_recordViolation, PointSet.mem_diff]
  · next hfree =>
    split at h
    · next hsame =>
      cases h
      refine .met (by simpa using hfree) fun i hi => ?_
      rw [← hsame]
      exact PointSet.mem_union.2 (.inr hi)
    · obtain ⟨grown, hgrown, heq⟩ := exists_of_map_eq_ok h
      cases heq
      unfold growFree at hgrown
      split at hgrown
      · cases hgrown
      · cases hgrown
        exact .grown (by simpa using hfree)

/-- Applying a constraint lets at most one region grow, a free one. -/
theorem regions_of_grow {problem : Problem} {state next : State} {c : Constraint} {grew : Bool}
    (h : problem.grow state c = .ok (next, grew)) :
    next.regions = state.regions ∨ (problem.isFixed c.target = false ∧
      next.regions = state.regions.set c.target ((state.regions.regionOf c.target).union
        (c.needed problem.constraints.graph state.regions.regionOf))) := by
  cases hregion : state.regions.get? c.target with
  | none =>
    rw [grow, hregion] at h
    cases h
    exact .inl rfl
  | some region =>
    rw [NameMap.regionOf_of_get? hregion]
    cases applied_of_grow h hregion with
    | fixed => exact .inl rfl
    | met => exact .inl rfl
    | grown hfree => exact .inr ⟨hfree, rfl⟩

/-- Applying a constraint records at most one violation, of a fixed region, with some points. -/
theorem violations_of_grow {problem : Problem} {state next : State} {c : Constraint} {grew : Bool}
    (h : problem.grow state c = .ok (next, grew)) :
    next.violations = state.violations ∨ ∃ extra : PointSet, (∃ i, i ∈ extra) ∧
      problem.isFixed c.target = true ∧
      next.violations = recordViolation ⟨c, extra⟩ state.violations := by
  cases hregion : state.regions.get? c.target with
  | none =>
    rw [grow, hregion] at h
    cases h
    exact .inl rfl
  | some region =>
    cases hfixed : problem.isFixed c.target with
    | false =>
      cases applied_of_grow h hregion with
      | fixed hfixed' => simp [hfixed] at hfixed'
      | met => exact .inl rfl
      | grown => exact .inl rfl
    | true =>
      rw [grow, hregion] at h
      dsimp only at h
      rw [if_pos hfixed] at h
      obtain ⟨grown, hgrown, heq⟩ := exists_of_map_eq_ok h
      cases heq
      rcases growFixed_eq_ok hgrown with ⟨-, rfl⟩ | ⟨hsome, rfl⟩
      · exact .inl rfl
      · exact .inr ⟨_, hsome, rfl, rfl⟩

/-- Applying a constraint leaves the worklist alone. -/
theorem work_of_grow {problem : Problem} {state next : State} {c : Constraint} {grew : Bool}
    (h : problem.grow state c = .ok (next, grew)) : next.work = state.work := by
  cases hregion : state.regions.get? c.target with
  | none =>
    rw [grow, hregion] at h
    cases h
    rfl
  | some region => cases applied_of_grow h hregion <;> rfl

/-- Without strictness a constraint can always be applied. -/
theorem exists_grow {problem : Problem} (hstrict : problem.options.strict = false) (state : State)
    (c : Constraint) : ∃ next grew, problem.grow state c = .ok (next, grew) := by
  unfold grow
  cases state.regions.get? c.target with
  | none => exact ⟨state, false, rfl⟩
  | some region =>
    dsimp only
    split
    · rw [growFixed, hstrict]
      split
      · exact ⟨_, _, rfl⟩
      · exact ⟨_, _, rfl⟩
    · split
      · exact ⟨_, _, rfl⟩
      · -- growth cannot shrink a region
        have hsub : ∀ needed : PointSet, region.subset (region.union needed) = true :=
          fun needed => PointSet.subset_iff.2 fun i hi => PointSet.mem_union.2 (.inl hi)
        rw [growFree, hsub, Bool.not_true, Bool.and_false]
        exact ⟨_, _, rfl⟩

end Problem

end RegionInference
