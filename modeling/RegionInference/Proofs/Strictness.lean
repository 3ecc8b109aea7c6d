import Mathlib
import RegionInference.Proofs.Growth
import RegionInference.Proofs.Violations

/-!
# Violations that are raised and violations that are recorded

A strict run fails at the first violation, where another run records it and goes on. Up to there the
two are the same run, and from there on the second one keeps the violation as its first record,
perhaps with more points. `Paired` says of two results that they are related in this way; a chain of
two steps is paired if the steps are (`Paired.bind`). So the steps of a strict and of a recording
solver are paired one by one, up to the whole of solving (`Problem.paired_solve`), and what the two
modes have in common is read off (`Problem.strict_raises_first_record`).
-/

namespace RegionInference

/-- A fault that is no violation of a fixed region. -/
def Fault.IsOther (fault : Fault) : Prop :=
  ∀ violation, fault ≠ .placeholderViolation violation

/-- The fault of an unknown point is no violation. -/
theorem Fault.isOther_unknownPoint (point : Point) : (Fault.unknownPoint point).IsOther := by
  intro _ h
  cases h

/-- What a strict and a recording computation come to: both fail for another reason, both end
without a violation, or the strict one fails with a violation that the other has as its first
record. -/
inductive Paired (view : α → List Violation) : Except Fault α → Except Fault α → Prop where
  /-- Both fail for another reason. -/
  | fails {fault : Fault} : fault.IsOther → Paired view (.error fault) (.error fault)
  /-- Both end without a violation. -/
  | clean {a : α} : view a = [] → Paired view (.ok a) (.ok a)
  /-- The strict one fails with the first record of the other. -/
  | broken {violation : Violation} {a : α} : (∃ i, i ∈ violation.extra) →
      Violation.Continue [violation] (view a) →
        Paired view (.error (.placeholderViolation violation)) (.ok a)

namespace Paired

variable {view : α → List Violation} {view' : β → List Violation}
  {strict recording : Except Fault α}

/-- A computation that has nothing to do with violations is paired with itself. -/
theorem same {result : Except Fault α} (h : Ends (fun a => view a = []) Fault.IsOther result) :
    Paired view result result := by
  cases result with
  | ok a => exact .clean h
  | error fault => exact .fails h

/-- Paired results stay paired when they are mapped, if the records are kept. -/
theorem map {f : α → β} (h : Paired view strict recording)
    (hview : ∀ a, view' (f a) = view a) : Paired view' (strict.map f) (recording.map f) := by
  cases h with
  | fails hother => exact .fails hother
  | clean hnone => exact .clean ((hview _).trans hnone)
  | broken hsome hfirst => exact .broken hsome (by rwa [hview])

/-- The strict computation returns what the other one returns without a record. -/
theorem eq_ok_iff (h : Paired view strict recording) {a : α} :
    strict = .ok a ↔ recording = .ok a ∧ view a = [] := by
  cases h with
  | fails => simp
  | @clean a' hnone =>
    constructor
    · rintro ⟨⟩
      exact ⟨rfl, hnone⟩
    · exact fun h => h.1
  | @broken violation a' _ hfirst =>
    constructor
    · nofun
    · rintro ⟨⟨⟩, hnone⟩
      rw [hnone] at hfirst
      cases hfirst

/-- The strict computation fails with a violation iff the other one returns with a record. -/
theorem raises_iff (h : Paired view strict recording) :
    (∃ violation, strict = .error (.placeholderViolation violation)) ↔
      ∃ a, recording = .ok a ∧ view a ≠ [] := by
  cases h with
  | fails hother =>
    constructor
    · rintro ⟨violation, hraised⟩
      exact absurd (Except.error.inj hraised) (hother violation)
    · rintro ⟨_, hreturned, -⟩
      cases hreturned
  | clean hnone =>
    constructor
    · rintro ⟨_, hraised⟩
      cases hraised
    · rintro ⟨_, hreturned, hsome⟩
      cases hreturned
      exact absurd hnone hsome
  | @broken violation a _ hfirst =>
    refine ⟨fun _ => ⟨a, rfl, ?_⟩, fun _ => ⟨violation, rfl⟩⟩
    obtain ⟨first, rest, hview, -⟩ := hfirst.exists_cons
    rw [hview]
    exact List.cons_ne_nil _ _

/-- The violation has some points of the first record. -/
theorem exists_first (h : Paired view strict recording) {violation : Violation}
    (hraised : strict = .error (.placeholderViolation violation)) :
    (∃ i, i ∈ violation.extra) ∧ ∃ a first rest, recording = .ok a ∧ view a = first :: rest ∧
      violation.Within first := by
  cases h with
  | fails hother => exact absurd (Except.error.inj hraised) (hother violation)
  | clean => cases hraised
  | @broken _ a hsome hfirst =>
    cases hraised
    obtain ⟨first, rest, hview, hwithin⟩ := hfirst.exists_cons
    exact ⟨hsome, a, first, rest, rfl, hview, hwithin⟩

/-- Without a violation both computations come to the same. -/
theorem eq_of_not_raised (h : Paired view strict recording)
    (hnever : ∀ violation, strict ≠ .error (.placeholderViolation violation)) :
    strict = recording := by
  cases h with
  | fails => rfl
  | clean => rfl
  | broken => exact absurd rfl (hnever _)

/-- A chain of two steps is paired if the steps are, and if the second one goes on from the records
of the first. -/
theorem bind {f g : α → Except Fault β} (h : Paired view strict recording)
    (hclean : ∀ a, view a = [] → Paired view' (f a) (g a))
    (hrest : ∀ a, ∃ b, g a = .ok b ∧ Violation.Continue (view a) (view' b)) :
    Paired view' (strict >>= f) (recording >>= g) := by
  cases h with
  | fails hother => exact .fails hother
  | clean hnone => exact hclean _ hnone
  | @broken violation a hsome hfirst =>
    obtain ⟨b, hb, hcontinue⟩ := hrest a
    show Paired view' (.error (.placeholderViolation violation)) (g a)
    rw [hb]
    exact .broken hsome (hfirst.trans hcontinue)

/-- Where each step succeeds and goes on from the records, steps taken in turn do. -/
theorem exists_foldlM {g : α → β → Except Fault α}
    (hrest : ∀ a b, ∃ next, g a b = .ok next ∧ Violation.Continue (view a) (view next))
    (items : List β) (a : α) :
    ∃ last, items.foldlM g a = .ok last ∧ Violation.Continue (view a) (view last) := by
  induction items generalizing a with
  | nil => exact ⟨a, rfl, .refl _⟩
  | cons b items ih =>
    obtain ⟨next, hnext, hcontinue⟩ := hrest a b
    obtain ⟨last, hlast, hcontinue'⟩ := ih next
    refine ⟨last, ?_, hcontinue.trans hcontinue'⟩
    rw [List.foldlM_cons, hnext]
    exact hlast

/-- Steps taken in turn are paired if each step is. -/
theorem foldlM {f g : α → β → Except Fault α}
    (hclean : ∀ a b, view a = [] → Paired view (f a b) (g a b))
    (hrest : ∀ a b, ∃ next, g a b = .ok next ∧ Violation.Continue (view a) (view next))
    (items : List β) {a : α} (ha : view a = []) :
    Paired view (items.foldlM f a) (items.foldlM g a) := by
  induction items generalizing a with
  | nil => exact .clean ha
  | cons b items ih =>
    rw [List.foldlM_cons, List.foldlM_cons]
    exact (hclean a b ha).bind (fun next hnext => ih hnext) (exists_foldlM hrest items)

end Paired

namespace Problem

/-- The problem with violations raised or recorded. -/
def withStrict (problem : Problem) (strict : Bool) : Problem :=
  { problem with options := { problem.options with strict } }

/-- A problem with the mode that it has is the problem. -/
theorem withStrict_eq {problem : Problem} {strict : Bool} (h : problem.options.strict = strict) :
    problem.withStrict strict = problem := by
  subst h
  rfl

/-- A limit on the rounds, if there is one, is a number, and reaching it is no fault. -/
def StopsQuietly (problem : Problem) : Prop :=
  problem.options.maxRounds = none ∨
    (problem.options.maxRounds ≠ some .incomparable ∧ problem.options.raiseAtLimit = false)

variable {problem : Problem} {initial : NameMap PointSet} {state : State}

/-! ### Steps -/

/-- Holding points against a fixed region where nothing is recorded. -/
theorem paired_growFixed (problem : Problem) (violation : Violation)
    (hnone : state.violations = []) :
    Paired State.violations ((problem.withStrict true).growFixed state violation)
      ((problem.withStrict false).growFixed state violation) := by
  unfold growFixed
  by_cases hempty : violation.extra.isEmpty = true
  · rw [if_pos hempty, if_pos hempty]
    exact .clean hnone
  · rw [if_neg hempty, if_neg hempty]
    refine .broken ?_ ?_
    · rw [PointSet.isEmpty_iff] at hempty
      simpa using hempty
    · show Violation.Continue [violation] (recordViolation violation state.violations)
      rw [hnone]
      exact .refl _

/-- Applying a constraint where nothing is recorded. Only a fixed region makes a difference. -/
theorem paired_grow (problem : Problem) (c : Constraint) (hnone : state.violations = []) :
    Paired (fun result => result.1.violations) ((problem.withStrict true).grow state c)
      ((problem.withStrict false).grow state c) := by
  cases hregion : state.regions.get? c.target with
  | none =>
    rw [grow, grow, hregion]
    exact .clean hnone
  | some region =>
    have hsame : ∀ strict, (problem.withStrict strict).isFixed c.target =
        problem.isFixed c.target := fun _ => rfl
    cases hfixed : problem.isFixed c.target with
    | true =>
      rw [grow_of_fixed hregion ((hsame true).trans hfixed),
        grow_of_fixed hregion ((hsame false).trans hfixed)]
      exact (paired_growFixed problem _ hnone).map fun _ => rfl
    | false =>
      rw [grow_of_free hregion ((hsame true).trans hfixed),
        grow_of_free hregion ((hsame false).trans hfixed)]
      apply Paired.same
      split
      · exact hnone
      · unfold growFree
        split
        · intro violation hshrank
          cases hshrank
        · exact hnone

/-- A round where nothing is recorded. -/
theorem paired_advance (problem : Problem) (c : Outlives) (work : List Outlives)
    (hnone : state.violations = []) :
    Paired State.violations ((problem.withStrict true).advance state c work)
      ((problem.withStrict false).advance state c work) := by
  refine (paired_grow problem (.outlives c) ?_).map ?_
  · exact hnone
  · rintro ⟨grown, grew⟩
    cases grew <;> rfl

/-- The pass over the constraints on points, where nothing is recorded. -/
theorem paired_runLive (problem : Problem) (hnone : state.violations = []) :
    Paired State.violations ((problem.withStrict true).runLive state)
      ((problem.withStrict false).runLive state) := by
  refine .foldlM (fun state c hnone => ?_) (fun state c => ?_) _ hnone
  · exact (paired_grow problem (.live c) hnone).map fun _ => rfl
  · obtain ⟨next, grew, hgrow⟩ := @exists_grow (problem.withStrict false) rfl state (.live c)
    exact ⟨next, by rw [hgrow]; rfl, (grows_of_grow hgrow).violations⟩

/-! ### Where solving starts -/

section Starting

variable {kind : Fault → Prop} (hpoint : ∀ point, kind (.unknownPoint point))
include hpoint

/-- A set of points fails for a point that the graph does not have. -/
theorem ends_setOf (g : Graph) (points : List Point) :
    Ends (fun _ => True) kind (g.setOf points) := by
  have hindex : ∀ point, Ends (fun _ => True) kind (g.index point) := by
    intro point
    unfold Graph.index
    split
    · trivial
    · exact hpoint point
  exact .foldlM (fun point _ set _ => (hindex point).map fun _ => id) trivial

/-- Where a region starts is known, or the declared points are not in the graph. -/
theorem ends_initialRegion (problem : Problem) (initial : NameMap PointSet) (l : String) :
    Ends (fun _ => True) kind (problem.initialRegion initial l) := by
  cases hfixed : problem.isFixed l with
  | false =>
    rw [initialRegion_of_free hfixed]
    trivial
  | true =>
    obtain ⟨lifetime, hget, hkind⟩ := isFixed_eq_true.1 hfixed
    rw [initialRegion_of_fixed hget hkind, Lifetime.fixedRegion]
    split
    · trivial
    · trivial
    · exact ends_setOf hpoint _ _

/-- Solving starts without a violation, or fails for a point that the graph does not have. -/
theorem ends_start (problem : Problem) (initial : NameMap PointSet) :
    Ends (fun state => state.violations = []) kind (problem.start initial) := by
  have hentry : ∀ l ∈ problem.constraints.lifetimes, Ends (fun _ => True) kind
      (do return (l, ← problem.initialRegion initial l) : Except Fault (String × PointSet)) :=
    fun l _ => (ends_initialRegion hpoint problem initial l).bind fun _ => id
  exact (Ends.mapM hentry).bind fun _ _ => rfl

end Starting

/-! ### Runs -/

/-- A limit that is a number can be compared. -/
theorem StopsQuietly.limitReached?_ne_error (h : problem.StopsQuietly) (rounds : Nat)
    (fault : Fault) : problem.limitReached? rounds ≠ .error fault := by
  unfold Problem.limitReached?
  cases hbound : problem.options.maxRounds with
  | none => exact nofun
  | some bound =>
    cases bound with
    | incomparable => simp [StopsQuietly, hbound] at h
    | _ =>
      dsimp only [Bound.reached?]
      split <;> exact nofun

/-- Where a limit is reached, reaching it is no fault. -/
theorem StopsQuietly.raiseAtLimit_eq_false (h : problem.StopsQuietly) {rounds : Nat} {limit : Bound}
    (hreached : problem.limitReached? rounds = .ok (some limit)) :
    problem.options.raiseAtLimit = false := by
  rcases h with hnone | ⟨-, hraise⟩
  · rw [Problem.limitReached?, hnone] at hreached
    cases hreached
  · exact hraise

/-- A run that records violations and stops quietly returns. -/
theorem exists_run_of_quiet (hstrict : problem.options.strict = false)
    (hquiet : problem.StopsQuietly) (state : State) : ∃ final, problem.run state = .ok final := by
  fun_induction problem.run state with
  | case1 state hwork => exact ⟨state, rfl⟩
  | case2 state c work hwork fault hreached =>
    exact absurd hreached (hquiet.limitReached?_ne_error _ _)
  | case3 state c work hwork limit hreached hraise =>
    simp [hquiet.raiseAtLimit_eq_false hreached] at hraise
  | case4 state c work hwork limit hreached hraise => exact ⟨state, rfl⟩
  | case5 state c work hwork hreached fault hadvance =>
    obtain ⟨next, hnext⟩ := exists_advance hstrict state c work
    rw [hnext] at hadvance
    cases hadvance
  | case6 state c work hwork hreached next hadvance ih => exact ih

/-- A run where nothing is recorded. -/
theorem paired_run (hquiet : problem.StopsQuietly) (hnone : state.violations = []) :
    Paired State.violations ((problem.withStrict true).run state)
      ((problem.withStrict false).run state) := by
  have hlimit : (problem.withStrict false).StopsQuietly := hquiet
  fun_induction (problem.withStrict false).run state with
  | case1 state hwork =>
    rw [run_of_nil hwork]
    exact .clean hnone
  | case2 state c work hwork fault hreached =>
    exact absurd hreached (hlimit.limitReached?_ne_error _ _)
  | case3 state c work hwork limit hreached hraise =>
    simp [hlimit.raiseAtLimit_eq_false hreached] at hraise
  | case4 state c work hwork limit hreached hraise =>
    rw [@run_of_limit (problem.withStrict true) _ _ hreached
      (hlimit.raiseAtLimit_eq_false hreached)]
    exact .clean hnone
  | case5 state c work hwork hreached fault hadvance =>
    obtain ⟨next, hnext⟩ := @exists_advance (problem.withStrict false) rfl state c work
    rw [hnext] at hadvance
    cases hadvance
  | case6 state c work hwork hreached next hadvance ih =>
    have hround := paired_advance problem c work hnone
    rw [hadvance] at hround
    generalize hstrict : (problem.withStrict true).advance state c work = strict at hround
    cases hround with
    | clean hclean =>
      rw [@run_of_advance (problem.withStrict true) _ _ _ _ hwork hreached hstrict]
      exact ih hclean
    | broken hsome hfirst =>
      -- the strict run ends here, and the other one keeps what it has recorded
      rw [@run_of_advance_error (problem.withStrict true) _ _ _ _ hwork hreached hstrict]
      obtain ⟨final, hfinal⟩ := exists_run_of_quiet rfl hlimit next
      rw [hfinal]
      exact .broken hsome (hfirst.trans (grows_of_run hfinal).violations)

/-- A strict and a recording solver. -/
theorem paired_solve (hquiet : problem.StopsQuietly) :
    Paired Solution.violations ((problem.withStrict true).solve initial)
      ((problem.withStrict false).solve initial) := by
  cases hfind : problem.declared.keys.find? (· ∉ problem.constraints.lifetimes) with
  | some l =>
    rw [@solve_of_unknown (problem.withStrict true) _ _ hfind,
      @solve_of_unknown (problem.withStrict false) _ _ hfind]
    exact .fails fun _ => nofun
  | none =>
    rw [@solve_of_known (problem.withStrict true) _ hfind,
      @solve_of_known (problem.withStrict false) _ hfind]
    have hstart : Paired State.violations ((problem.withStrict true).start initial)
        ((problem.withStrict false).start initial) :=
      .same (ends_start Fault.isOther_unknownPoint problem initial)
    have hlive := hstart.bind (fun _ => paired_runLive problem) fun first => by
      obtain ⟨second, hsecond⟩ := @exists_runLive (problem.withStrict false) rfl first
      exact ⟨second, hsecond, (grows_of_runLive hsecond).violations⟩
    have hrun := hlive.bind (fun _ => paired_run hquiet) fun second => by
      obtain ⟨final, hfinal⟩ :=
        @exists_run_of_quiet (problem.withStrict false) rfl hquiet second
      exact ⟨final, hfinal, (grows_of_run hfinal).violations⟩
    exact hrun.map fun _ => rfl

/-- **The strict solver raises the first record.** Whatever the initial regions, and under any limit
that stops a run quietly, the strict solver fails with a violation iff the recording one returns
with some record. The violation is of the same constraint and lifetime as the first record, and it
has some of its points and no other. If the strict solver does not fail with a violation, both come
to the same. -/
theorem strict_raises_first_record (problem : Problem) (initial : NameMap PointSet)
    (hbuilt : problem.constraints.Built) (hquiet : problem.StopsQuietly) :
    ((∃ violation,
        (problem.withStrict true).solve initial = .error (.placeholderViolation violation)) ↔
      ∃ solution, (problem.withStrict false).solve initial = .ok solution ∧
        solution.violations ≠ []) ∧
    (∀ violation,
      (problem.withStrict true).solve initial = .error (.placeholderViolation violation) →
        ∃ solution first rest, (problem.withStrict false).solve initial = .ok solution ∧
          solution.violations = first :: rest ∧
          violation.lifetime = first.lifetime ∧ violation.constraint = first.constraint ∧
          ∃ raised recorded, problem.constraints.graph.pointsOf violation.extra = .ok raised ∧
            problem.constraints.graph.pointsOf first.extra = .ok recorded ∧
            raised ≠ [] ∧ ∀ point ∈ raised, point ∈ recorded) ∧
    ((∀ violation,
      (problem.withStrict true).solve initial ≠ .error (.placeholderViolation violation)) →
        (problem.withStrict true).solve initial = (problem.withStrict false).solve initial) := by
  have hpaired := @paired_solve problem initial hquiet
  refine ⟨hpaired.raises_iff, fun violation hraised => ?_, hpaired.eq_of_not_raised⟩
  obtain ⟨⟨i, hi⟩, solution, first, rest, hsolution, hviolations, hconstraint, hpoints⟩ :=
    hpaired.exists_first hraised
  -- the points of the violation are recorded, so they are in the graph
  have hmem : first ∈ solution.violations := hviolations ▸ List.mem_cons_self
  have hgraph : ∀ j ∈ first.extra, j < problem.constraints.graph.size :=
    @lt_size_of_mem_extra (problem.withStrict false) _ _ hbuilt hsolution _ hmem
  obtain ⟨recorded, hrecorded⟩ := Graph.exists_pointsOf hgraph
  obtain ⟨raised, hlisted⟩ := Graph.exists_pointsOf fun j hj => hgraph j (hpoints j hj)
  refine ⟨solution, first, rest, hsolution, hviolations, ?_, hconstraint.symm, raised, recorded,
    hlisted, hrecorded, ?_, ?_⟩
  · rw [Violation.lifetime, Violation.lifetime, hconstraint]
  · obtain ⟨point, hpoint⟩ := Graph.exists_point (hgraph i (hpoints i hi))
    exact List.ne_nil_of_mem ((Graph.mem_pointsOf hlisted).2 ⟨i, hi, hpoint⟩)
  · intro point hpoint
    obtain ⟨j, hj, hindex⟩ := (Graph.mem_pointsOf hlisted).1 hpoint
    exact (Graph.mem_pointsOf hrecorded).2 ⟨j, hpoints j hj, hindex⟩

end Problem

/-! ### A record that grows -/

namespace Sample

/-- The placeholder `s` outlives `b`, which outlives `c` and so grows by a further point. -/
def widening : ConstraintSet :=
  .ofLists graph ["s", "b", "c"]
    [⟨"b", ⟨"B", 2⟩, 4, .liveness⟩, ⟨"b", ⟨"B", 3⟩, 5, .liveness⟩, ⟨"c", ⟨"B", 3⟩, 5, .liveness⟩,
      ⟨"c", ⟨"C", 0⟩, 6, .liveness⟩]
    [⟨"s", "b", ⟨"B", 2⟩, 4, .obligation⟩, ⟨"b", "c", ⟨"B", 3⟩, 5, .assignment⟩]

/-- It can be built. -/
theorem widening_built : widening.Built := by
  have hadd : (ConstraintSet.new graph ["s", "b", "c"]).addAll widening.toList = .ok widening := rfl
  exact (ConstraintSet.Built.new _ _).addAll hadd

/-- Where solving ends after three rounds: the first finds one point against `s`, and the last one
adds another to the record. -/
def wideningEnd : Problem.State where
  regions := ⟨[("s", ⟨16⟩), ("b", ⟨112⟩), ("c", ⟨96⟩)]⟩
  work := []
  violations := [⟨.outlives ⟨"s", "b", ⟨"B", 2⟩, 4, .obligation⟩, ⟨96⟩⟩]
  rounds := 3
  applications := 5

/-- The problem of the constraints, where `s` covers one point of the loop. -/
def wideningProblem : Problem :=
  { constraints := widening, declared }

/-- Where solving ends, after three rounds. -/
theorem run_widening :
    (wideningProblem.start {} >>= wideningProblem.runLive >>= wideningProblem.runFor 3) =
      .ok wideningEnd := by
  cbv

end Sample

/-- In the sample the strict solver fails with the constraint on `s`, and with points of its
record. -/
theorem Problem.strict_fails_on_widening :
    Sample.wideningProblem.constraints.Built ∧ Sample.wideningProblem.StopsQuietly ∧
    ∃ violation,
      (Sample.wideningProblem.withStrict true).solve = .error (.placeholderViolation violation) ∧
      violation.constraint = .outlives ⟨"s", "b", ⟨"B", 2⟩, 4, .obligation⟩ ∧
      violation.lifetime = "s" ∧ ∃ raised, Sample.graph.pointsOf violation.extra = .ok raised ∧
        raised ≠ [] ∧ ∀ point ∈ raised, point = ⟨"B", 3⟩ ∨ point = ⟨"C", 0⟩ := by
  have hquiet : Sample.wideningProblem.StopsQuietly := .inl rfl
  have hsolve : (Sample.wideningProblem.withStrict false).solve = .ok _ :=
    Problem.solve_of_runFor rfl (by decide) Sample.run_widening rfl
  obtain ⟨hiff, hfirst, -⟩ :=
    strict_raises_first_record Sample.wideningProblem {} Sample.widening_built hquiet
  obtain ⟨violation, hraised⟩ := hiff.2 ⟨_, hsolve, List.cons_ne_nil _ _⟩
  refine ⟨Sample.widening_built, hquiet, violation, hraised, ?_⟩
  obtain ⟨solution, first, rest, hsolution, hviolations, hlifetime, hconstraint, raised, recorded,
    hlisted, hrecorded, hsome, hpoints⟩ := hfirst violation hraised
  cases hsolve.symm.trans hsolution
  cases hviolations
  refine ⟨hconstraint, hlifetime, raised, hlisted, hsome, fun point hpoint => ?_⟩
  obtain rfl : [⟨"B", 3⟩, ⟨"C", 0⟩] = recorded := Except.ok.inj hrecorded
  simpa using hpoints point hpoint

end RegionInference
