import RegionInference.Proofs.Limits

/-!
# Solving only adds

A step of solving lets regions grow and never shrinks one. It keeps every record of a violation in
its place, perhaps with more points, and puts new records behind the others
(`Violation.Continue`). So the states of a run are ordered (`Problem.State.Grows`): each application
of a constraint leads upwards (`Problem.grows_of_grow`), and with it each pass of the solver and
each run, whether it is stopped or not (`Problem.grows_of_run`).
-/

namespace RegionInference

namespace Violation

/-- A second record is for the same constraint and has all points of the first. -/
def Within (violation other : Violation) : Prop :=
  other.constraint = violation.constraint ∧ ∀ i ∈ violation.extra, i ∈ other.extra

/-- A violation is within itself. -/
theorem Within.refl (violation : Violation) : violation.Within violation :=
  ⟨rfl, fun _ hi => hi⟩

/-- A violation within a second one is within what the second one is within. -/
theorem Within.trans {a b c : Violation} (hab : a.Within b) (hbc : b.Within c) : a.Within c :=
  ⟨hbc.1.trans hab.1, fun i hi => hbc.2 i (hab.2 i hi)⟩

/-- Records go on from others: those are kept in their places, perhaps with more points, and new
ones may follow. -/
inductive Continue : List Violation → List Violation → Prop where
  /-- New records follow. -/
  | more (added : List Violation) : Continue [] added
  /-- A record is kept. -/
  | keep {violation other : Violation} {violations others : List Violation} :
      violation.Within other → Continue violations others →
        Continue (violation :: violations) (other :: others)

namespace Continue

variable {violations others : List Violation}

/-- Records continue themselves. -/
theorem refl : (violations : List Violation) → Continue violations violations
  | [] => .more []
  | violation :: violations => .keep (.refl violation) (refl violations)

/-- What continues records that continue others continues those. -/
theorem trans {further : List Violation} (h : Continue violations others)
    (h' : Continue others further) : Continue violations further := by
  induction h generalizing further with
  | more => exact .more further
  | keep hwithin _ ih =>
    cases h' with
    | keep hwithin' hrest => exact .keep (hwithin.trans hwithin') (ih hrest)

/-- Every record is still there. -/
theorem exists_within (h : Continue violations others) {violation : Violation}
    (hmem : violation ∈ violations) : ∃ other ∈ others, violation.Within other := by
  induction h with
  | more => exact absurd hmem List.not_mem_nil
  | keep hwithin _ ih =>
    rcases List.mem_cons.1 hmem with rfl | hrest
    · exact ⟨_, List.mem_cons_self, hwithin⟩
    · obtain ⟨other, hother, hwithin'⟩ := ih hrest
      exact ⟨other, List.mem_cons_of_mem _ hother, hwithin'⟩

/-- The first record stays the first. -/
theorem exists_cons {violation : Violation} (h : Continue (violation :: violations) others) :
    ∃ first rest, others = first :: rest ∧ violation.Within first := by
  cases h with
  | keep hwithin _ => exact ⟨_, _, rfl, hwithin⟩

/-- Recording a violation keeps the records. -/
theorem recordViolation (violation : Violation) :
    (violations : List Violation) →
      Continue violations (Problem.recordViolation violation violations)
  | [] => .more _
  | other :: violations => by
    rw [Problem.recordViolation]
    by_cases hsame : other.constraint = violation.constraint
    · rw [if_pos hsame]
      exact .keep ⟨rfl, fun i hi => PointSet.mem_union.2 (.inl hi)⟩ (refl violations)
    · rw [if_neg hsame]
      exact .keep (.refl other) (recordViolation violation violations)

end Continue

end Violation

namespace Problem

/-- What solving has got further with: the same lifetimes have regions with no points less, and the
records go on from those before. -/
structure State.Grows (state next : State) : Prop where
  /-- The same lifetimes have regions. -/
  keys : next.regions.keys = state.regions.keys
  /-- No region has lost a point. -/
  regions : ∀ l, ∀ i ∈ state.regions.regionOf l, i ∈ next.regions.regionOf l
  /-- No record is lost. -/
  violations : Violation.Continue state.violations next.violations

namespace State.Grows

/-- A state has grown from itself. -/
theorem refl (state : State) : state.Grows state :=
  ⟨rfl, fun _ _ hi => hi, .refl _⟩

/-- What grows from a state grows from what the state has grown from. -/
theorem trans {a b c : State} (hab : a.Grows b) (hbc : b.Grows c) : a.Grows c :=
  ⟨hbc.keys.trans hab.keys, fun l i hi => hbc.regions l i (hab.regions l i hi),
    hab.violations.trans hbc.violations⟩

end State.Grows

variable {problem : Problem} {state next final : State}

/-- Applying a constraint leads upwards. -/
theorem grows_of_grow {c : Constraint} {grew : Bool} (h : problem.grow state c = .ok (next, grew)) :
    state.Grows next := by
  have hviolations : Violation.Continue state.violations next.violations := by
    rcases violations_of_grow h with hsame | ⟨extra, -, -, hrecorded⟩
    · rw [hsame]
      exact .refl _
    · rw [hrecorded]
      exact .recordViolation _ _
  cases hregion : state.regions.get? c.target with
  | none =>
    rw [grow, hregion] at h
    cases h
    exact .refl state
  | some region =>
    rcases regions_of_grow h with hsame | ⟨-, hgrown⟩
    · exact ⟨by rw [hsame], fun l i hi => by rwa [hsame], hviolations⟩
    · refine ⟨?_, fun l i hi => ?_, hviolations⟩
      · rw [hgrown, NameMap.keys_set_of_mem _ (NameMap.mem_keys_of_get? hregion)]
      · rw [hgrown, NameMap.regionOf_set]
        by_cases hl : l = c.target
        · rw [if_pos hl, PointSet.mem_union, ← hl]
          exact .inl hi
        · rwa [if_neg hl]

/-- The pass over the constraints on points leads upwards. -/
theorem grows_of_runLive (h : problem.runLive state = .ok next) : state.Grows next := by
  refine foldlM_keeps (P := state.Grows) (fun c _ other _ hother hgrown => ?_) (.refl state) h
  obtain ⟨⟨grown, grew⟩, hgrow, rfl⟩ := exists_of_map_eq_ok hgrown
  exact hother.trans (grows_of_grow hgrow)

/-- A round leads upwards. -/
theorem grows_of_advance {c : Outlives} {work : List Outlives}
    (h : problem.advance state c work = .ok next) : state.Grows next := by
  obtain ⟨grown, grew, hgrow, rfl⟩ := advance_eq_ok h
  have hgrows := grows_of_grow hgrow
  cases grew
  · exact ⟨hgrows.keys, hgrows.regions, hgrows.violations⟩
  · exact ⟨hgrows.keys, hgrows.regions, hgrows.violations⟩

/-- A run leads upwards, also if a limit stops it. -/
theorem grows_of_run (h : problem.run state = .ok final) : state.Grows final :=
  run_induct (P := (·.Grows final)) h (fun _ => .refl final) fun _ _ _ _ _ _ hadvance hgrows =>
    (grows_of_advance hadvance).trans hgrows

end Problem

end RegionInference
