import RegionInference.Constraint.Set
import RegionInference.Graph.Reach
import RegionInference.Lifetime
import RegionInference.Solve.Supply
import RegionInference.Worklist

/-!
# The least solution of constraints

Regions start empty, or from a given assignment, and grow until every constraint is met. First each
constraint on a point adds its point. Then the constraints between regions are processed off a
worklist: each adds to the longer region what can be reached within the shorter one, and when a
region grows, the constraints that read it are put back on the list. A placeholder keeps its
fixed region; what a constraint would add to it is recorded as a violation.

The loop ends because growth takes points from a finite supply: a region grows by points that some
region has already, so the points that each region lacks of all points in any region become fewer.
-/

namespace RegionInference

/-- A result that was mapped comes from a result. -/
theorem exists_of_map_eq_ok {f : α → β} {result : Except ε α} {b : β} (h : result.map f = .ok b) :
    ∃ a, result = .ok a ∧ f a = b := by
  cases result with
  | error e => cases h
  | ok a => exact ⟨a, rfl, by simpa [Except.map] using h⟩

/-- How regions are solved. -/
structure SolveOptions where
  /-- A bound on the rounds. -/
  maxRounds : Option Bound := none
  /-- Whether reaching the bound is a fault rather than the end of the run. -/
  raiseAtLimit : Bool := true
  /-- Whether a violation is a fault rather than recorded. -/
  strict : Bool := false
  /-- Whether each growth is checked and recorded. -/
  checkGrowth : Bool := false

/-- A step in which a region grew. -/
structure Growth where
  /-- The lifetime. -/
  lifetime : String
  /-- The region before. -/
  before : PointSet
  /-- The region after. -/
  after : PointSet
deriving DecidableEq

/-- What solving came to. -/
structure Solution where
  /-- The regions, in the order of the lifetimes. -/
  regions : NameMap PointSet
  /-- The constraints that fixed regions fail, in the order in which they were found. -/
  violations : List Violation
  /-- How many constraints were taken off the worklist. -/
  rounds : Nat
  /-- How many times a region grew. -/
  applications : Nat
  /-- Whether the worklist was emptied. -/
  converged : Bool
  /-- The growths, if they were recorded. -/
  history : List Growth

/-- The region of a lifetime, which has to be there. -/
def Solution.region (solution : Solution) (lifetime : String) : Except Fault PointSet :=
  match solution.regions.get? lifetime with
  | some region => .ok region
  | none => .error (.unknownLifetime lifetime)

/-- The points that a constraint demands of the region of its target, given the regions. -/
def Constraint.needed (g : Graph) (region : String → PointSet) : Constraint → PointSet
  | .live c => .single c.index
  | .outlives c => g.reachWithin c.index (region c.shorter)

/-- Constraints, what is declared about their lifetimes, and how to solve them. -/
structure Problem where
  /-- The constraints. -/
  constraints : ConstraintSet
  /-- The declared lifetimes; all others are solved for. -/
  declared : NameMap Lifetime := {}
  /-- How to solve. -/
  options : SolveOptions := {}

namespace Problem

/-- How far solving is. -/
structure State where
  /-- The regions so far. -/
  regions : NameMap PointSet
  /-- The constraints to process. -/
  work : List Outlives
  /-- The violations so far. -/
  violations : List Violation := []
  /-- The rounds so far. -/
  rounds : Nat := 0
  /-- The growths so far. -/
  applications : Nat := 0
  /-- The recorded growths. -/
  history : List Growth := []

/-- The region of a lifetime so far. -/
def State.region (state : State) (lifetime : String) : PointSet :=
  (state.regions.get? lifetime).getD ∅

/-- Whether the region of a lifetime is fixed. -/
def isFixed (problem : Problem) (lifetime : String) : Bool :=
  (problem.declared.get? lifetime).any Lifetime.isPlaceholder

/-- Where the region of a lifetime starts. -/
def initialRegion (problem : Problem) (initial : NameMap PointSet) (lifetime : String) :
    Except Fault PointSet :=
  match problem.declared.get? lifetime with
  | some declared =>
    if declared.isPlaceholder then declared.fixedRegion problem.constraints.graph
    else .ok ((initial.get? lifetime).getD ∅)
  | none => .ok ((initial.get? lifetime).getD ∅)

/-- Where solving starts. -/
def start (problem : Problem) (initial : NameMap PointSet) : Except Fault State := do
  let regions ← problem.constraints.lifetimes.mapM fun lifetime => do
    return (lifetime, ← problem.initialRegion initial lifetime)
  return { regions := ⟨regions⟩, work := problem.constraints.outlives }

/-- Adds points to what a constraint is recorded to need outside a fixed region. -/
def recordViolation (violation : Violation) : List Violation → List Violation
  | [] => [violation]
  | other :: violations =>
    if other.constraint = violation.constraint then
      { other with extra := other.extra.union violation.extra } :: violations
    else other :: recordViolation violation violations

/-- Holds what a constraint needs against the fixed region of its target. -/
def growFixed (problem : Problem) (state : State) (violation : Violation) : Except Fault State :=
  if violation.extra.isEmpty then .ok state
  else if problem.options.strict then .error (.placeholderViolation violation)
  else .ok { state with violations := recordViolation violation state.violations }

/-- Lets the region of a lifetime grow. -/
def growFree (problem : Problem) (state : State) (growth : Growth) : Except Fault State :=
  if problem.options.checkGrowth && !growth.before.subset growth.after then
    .error (.regionShrank growth.lifetime)
  else
    .ok { state with
      regions := state.regions.set growth.lifetime growth.after
      applications := state.applications + 1
      history :=
        if problem.options.checkGrowth then state.history ++ [growth] else state.history }

/-- Applies a constraint. The answer tells whether a region grew. -/
def grow (problem : Problem) (state : State) (c : Constraint) : Except Fault (State × Bool) :=
  match state.regions.get? c.target with
  | none => .ok (state, false)
  | some region =>
    let needed := c.needed problem.constraints.graph state.region
    if problem.isFixed c.target then
      (problem.growFixed state ⟨c, needed.diff region⟩).map (·, false)
    else if region.union needed = region then .ok (state, false)
    else (problem.growFree state ⟨c.target, region, region.union needed⟩).map (·, true)

/-- Applies a constraint that was taken off the worklist, and puts those on it that read a region
that grew. -/
def advance (problem : Problem) (state : State) (c : Outlives) (work : List Outlives) :
    Except Fault State := do
  let (state, grew) ← problem.grow { state with work, rounds := state.rounds + 1 } (.outlives c)
  return if grew then
    { state with work := enqueue state.work (problem.constraints.readers c.longer) }
  else state

/-! ### The loop -/

/-- A fixed region is not grown: what it lacks is recorded, and nothing else changes. -/
theorem growFixed_keeps {problem : Problem} {state next : State} {violation : Violation}
    (h : problem.growFixed state violation = .ok next) :
    next.regions = state.regions ∧ next.work = state.work := by
  simp only [growFixed] at h
  split at h
  · cases h
    simp
  · split at h
    · cases h
    · cases h
      simp

/-- A free region is set to what it grows to, and the work stays. -/
theorem growFree_sets {problem : Problem} {state next : State} {growth : Growth}
    (h : problem.growFree state growth = .ok next) :
    next.regions = state.regions.set growth.lifetime growth.after ∧ next.work = state.work := by
  simp only [growFree] at h
  split at h
  · cases h
  · cases h
    simp

/-- Applying a constraint between regions lets a region grow, so that less is lacking, or leaves
the regions as they are. -/
theorem grow_outlives {problem : Problem} {state next : State} {c : Outlives} {grew : Bool}
    (h : problem.grow state (.outlives c) = .ok (next, grew)) :
    (grew = true → Supply.lackOfAll next.regions < Supply.lackOfAll state.regions) ∧
      (grew = false → next.regions = state.regions) ∧ next.work = state.work := by
  simp only [grow] at h
  split at h
  · cases h
    simp
  · next region hregion =>
    split at h
    · obtain ⟨grown, hgrown, heq⟩ := exists_of_map_eq_ok h
      cases heq
      simp [growFixed_keeps hgrown]
    · split at h
      · cases h
        simp
      · next hne =>
        obtain ⟨grown, hgrown, heq⟩ := exists_of_map_eq_ok h
        cases heq
        obtain ⟨hregions, hwork⟩ := growFree_sets hgrown
        refine ⟨fun _ => ?_, by simp, hwork⟩
        rw [hregions]
        refine Supply.lackOfAll_set_lt hregion (fun i hi => PointSet.mem_union.2 (.inl hi)) hne ?_
        intro i hi
        rcases PointSet.mem_union.1 hi with hold | hreach
        · exact Supply.mem_all_of_findPair? hregion hold
        · have hshorter := Graph.mem_of_mem_reachWithin hreach
          simp only [State.region] at hshorter
          cases hget : state.regions.get? c.shorter with
          | none => simp [hget] at hshorter
          | some shorter =>
            simp only [hget, Option.getD_some] at hshorter
            exact Supply.mem_all_of_findPair? hget hshorter

/-- A round leaves less lacking, or leaves the regions as they are and shortens the worklist. -/
theorem advance_decreases {problem : Problem} {state next : State} {c : Outlives}
    {work : List Outlives} (hwork : state.work = c :: work)
    (h : problem.advance state c work = .ok next) :
    Prod.Lex (· < ·) (· < ·) (Supply.lackOfAll next.regions, next.work.length)
      (Supply.lackOfAll state.regions, state.work.length) := by
  simp only [advance, bind, Except.bind] at h
  split at h
  · cases h
  · next result hgrow =>
    obtain ⟨grown, grew⟩ := result
    obtain ⟨hlt, hsame, hlist⟩ := grow_outlives hgrow
    cases grew with
    | true =>
      cases h
      exact Prod.Lex.left _ _ (hlt rfl)
    | false =>
      cases h
      simp only [Bool.false_eq_true, if_false, hsame rfl, hlist, hwork]
      exact Prod.Lex.right _ (Nat.lt_succ_self _)

/-- The limit that the rounds have reached. -/
def limitReached? (problem : Problem) (rounds : Nat) : Except Fault (Option Bound) :=
  match problem.options.maxRounds with
  | none => .ok none
  | some bound =>
    match bound.reached? rounds with
    | none => .error .incomparableLimit
    | some reached => .ok (if reached then some bound else none)

/-- Processes the worklist until it is empty or the limit is reached. -/
def run (problem : Problem) (state : State) : Except Fault State :=
  match _hwork : state.work with
  | [] => .ok state
  | c :: work =>
    match problem.limitReached? state.rounds with
    | .error fault => .error fault
    | .ok (some limit) =>
      if problem.options.raiseAtLimit then .error (.limitReached .solving state.rounds limit)
      else .ok state
    | .ok none =>
      match _h : problem.advance state c work with
      | .error fault => .error fault
      | .ok next => problem.run next
termination_by (Supply.lackOfAll state.regions, state.work.length)
decreasing_by exact advance_decreases _hwork _h

/-- Applies the constraints on points. -/
def runLive (problem : Problem) (state : State) : Except Fault State :=
  problem.constraints.live.foldlM (fun state c => (problem.grow state (.live c)).map Prod.fst) state

/-- The least regions above the initial ones that meet the constraints. -/
def solve (problem : Problem) (initial : NameMap PointSet := {}) : Except Fault Solution := do
  match problem.declared.keys.find? (· ∉ problem.constraints.lifetimes) with
  | some lifetime => throw (.unknownLifetime lifetime)
  | none =>
    let state ← problem.start initial
    let state ← problem.runLive state
    let state ← problem.run state
    return {
      regions := state.regions, violations := state.violations, rounds := state.rounds
      applications := state.applications, converged := state.work.isEmpty
      history := state.history }

end Problem

namespace ConstraintSet

/-- The constraints that regions fail; a region that is not given is empty. -/
def failing (set : ConstraintSet) (regions : NameMap PointSet) : List Constraint :=
  let region (lifetime : String) : PointSet := (regions.get? lifetime).getD ∅
  set.toList.filter fun c => !(c.needed set.graph region).subset (region c.target)

end ConstraintSet

end RegionInference
