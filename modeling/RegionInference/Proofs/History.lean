import Mathlib
import RegionInference.Proofs.Strictness
import RegionInference.Proofs.Tuning

/-!
# The notes of growth

A solver that checks growth notes each growth of a region, with the region before and after it. The
notes are a faithful log of the run (`Problem.history_is_faithful`).

Applying a constraint does nothing but for its records, or it lets one region grow that is solved
for and that lacked a point, and it can only fail with a violation (`Problem.ends_grow`). In
particular no region ever shrinks, so the check never fails.

What the notes say is an invariant of the run (`Problem.Logged`). Its part that is about one
lifetime at a time takes the notes of that lifetime out of those of all others: they lead from the
initial region to the region that the lifetime has (`Growth.Leads`). A growth puts one note behind
the others, so it goes on with one of these chains and leaves all others as they are
(`Problem.Logged.note`).
-/

namespace RegionInference

/-! ### Chains of growths -/

/-- Growths lead from one region to another: the first of them starts from the one region, each
other one where the last has ended, and the last ends with the other region. -/
inductive Growth.Leads : PointSet → List Growth → PointSet → Prop where
  /-- Without growths a region stays as it is. -/
  | stay (region : PointSet) : Leads region [] region
  /-- A growth comes first. -/
  | grow {growth : Growth} {growths : List Growth} {last : PointSet} :
      Leads growth.after growths last → Leads growth.before (growth :: growths) last

/-- One more growth leads on from where the others have ended. -/
theorem Growth.Leads.snoc {first : PointSet} {growths : List Growth} {growth : Growth}
    (h : Leads first growths growth.before) : Leads first (growths ++ [growth]) growth.after := by
  generalize hlast : growth.before = last at h
  induction h with
  | stay region =>
    rw [← hlast]
    exact .grow (.stay growth.after)
  | grow _ ih => exact .grow (ih hlast)

/-! ### What a step can do -/

/-- What solving can fail with. -/
inductive Fault.OfSolving : Fault → Prop where
  /-- A lifetime is declared that the constraints do not have. -/
  | unknownLifetime (l : String) : OfSolving (.unknownLifetime l)
  /-- A placeholder lists a point that the graph does not have. -/
  | unknownPoint (point : Point) : OfSolving (.unknownPoint point)
  /-- A fixed region lacks something. -/
  | violation (violation : Violation) : OfSolving (.placeholderViolation violation)
  /-- The limit on the rounds is reached. -/
  | limitReached (rounds : Nat) (limit : Bound) : OfSolving (.limitReached .solving rounds limit)
  /-- The limit on the rounds is no number. -/
  | incomparableLimit : OfSolving .incomparableLimit

/-- A set that is changed by a union lacked a point. -/
theorem PointSet.exists_new {s t : PointSet} (h : s.union t ≠ s) : ∃ i ∈ t, i ∉ s := by
  by_contra hnone
  have hsubset : ∀ i ∈ t, i ∈ s := by simpa using hnone
  apply h
  apply ext
  intro i
  rw [mem_union]
  exact ⟨fun hi => hi.elim id (hsubset i), .inl⟩

namespace Problem

variable {problem : Problem} {initial : NameMap PointSet} {state next : State} {c : Constraint}
  {grew : Bool}

/-- What applying a constraint does but for its records: nothing, or the region of its target, which
is solved for, grows by what is needed, of which it lacked a point. -/
inductive Moves (problem : Problem) (state : State) (c : Constraint) : State → Bool → Prop where
  /-- No region grows. -/
  | rest (violations : List Violation) : Moves problem state c { state with violations } false
  /-- The region of the target grows. -/
  | grow {region : PointSet} (hregion : state.regions.get? c.target = some region)
      (hfree : problem.isFixed c.target = false)
      (hnew : ∃ i ∈ c.needed problem.constraints.graph state.region, i ∉ region) :
      Moves problem state c
        { state with
          regions := state.regions.set c.target
            (region.union (c.needed problem.constraints.graph state.region))
          applications := state.applications + 1
          history := if problem.options.checkGrowth then
            state.history ++ [⟨c.target, region,
              region.union (c.needed problem.constraints.graph state.region)⟩]
          else state.history } true

/-- Applying a constraint moves the state or fails with a violation. -/
theorem ends_grow (problem : Problem) (state : State) (c : Constraint) :
    Ends (fun result => problem.Moves state c result.1 result.2) Fault.OfSolving
      (problem.grow state c) := by
  cases hregion : state.regions.get? c.target with
  | none =>
    rw [grow, hregion]
    exact .rest state.violations
  | some region =>
    cases hfixed : problem.isFixed c.target with
    | true =>
      rw [grow_of_fixed hregion hfixed, growFixed]
      split
      · exact .rest state.violations
      · split
        · exact .violation _
        · exact .rest _
    | false =>
      rw [grow_of_free hregion hfixed]
      split
      · exact .rest state.violations
      · next hgrows =>
        have hsubset : region.subset
            (region.union (c.needed problem.constraints.graph state.region)) = true :=
          PointSet.subset_iff.2 fun i hi => PointSet.mem_union.2 (.inl hi)
        rw [growFree, hsubset, Bool.not_true, Bool.and_false]
        exact .grow hregion hfixed (PointSet.exists_new hgrows)

/-- Growing a region is one of the moves. -/
theorem moves_of_grow (h : problem.grow state c = .ok (next, grew)) :
    problem.Moves state c next grew := by
  have hends := ends_grow problem state c
  rw [h] at hends
  exact hends

/-! ### The log -/

/-- What the notes say of a run so far. -/
structure Logged (problem : Problem) (initial regions : NameMap PointSet) (applications : Nat)
    (history : List Growth) : Prop where
  /-- There is a region for each lifetime. -/
  keys : regions.keys = problem.constraints.lifetimes
  /-- There is a note for each growth. -/
  length : history.length = applications
  /-- Each is of a lifetime that is solved for. -/
  free : ∀ growth ∈ history,
    growth.lifetime ∈ problem.constraints.lifetimes ∧ problem.isFixed growth.lifetime = false
  /-- Each is of a region that has got a point and lost none. -/
  grown : ∀ growth ∈ history,
    growth.before.subset growth.after = true ∧ growth.before ≠ growth.after
  /-- Those of a lifetime lead from its initial region to the one that it has. -/
  leads : ∀ l ∈ problem.constraints.lifetimes, problem.isFixed l = false →
    Growth.Leads (initial.regionOf l) (history.filter (·.lifetime == l)) (regions.regionOf l)

namespace Logged

variable {regions : NameMap PointSet} {applications : Nat} {history : List Growth}

/-- A growth puts one note behind the others. -/
theorem note (h : Logged problem initial regions applications history) {l : String}
    {region added : PointSet} (hregion : regions.get? l = some region)
    (hfree : problem.isFixed l = false) (hnew : ∃ i ∈ added, i ∉ region) :
    Logged problem initial (regions.set l (region.union added)) (applications + 1)
      (history ++ [⟨l, region, region.union added⟩]) where
  keys := by rw [NameMap.keys_set_of_mem _ (NameMap.mem_keys_of_get? hregion), h.keys]
  length := by simp [h.length]
  free := by
    intro growth hgrowth
    rcases List.mem_append.1 hgrowth with hold | hlast
    · exact h.free growth hold
    · obtain rfl := List.mem_singleton.1 hlast
      exact ⟨h.keys ▸ NameMap.mem_keys_of_get? hregion, hfree⟩
  grown := by
    intro growth hgrowth
    rcases List.mem_append.1 hgrowth with hold | hlast
    · exact h.grown growth hold
    · obtain rfl := List.mem_singleton.1 hlast
      obtain ⟨i, hi, hout⟩ := hnew
      refine ⟨PointSet.subset_iff.2 fun j hj => PointSet.mem_union.2 (.inl hj), fun hsame => ?_⟩
      have hsame : region = region.union added := hsame
      apply hout
      rw [hsame]
      exact PointSet.mem_union.2 (.inr hi)
  leads := by
    intro other hother hsolved
    have hleads := h.leads other hother hsolved
    rw [List.filter_append, NameMap.regionOf_set]
    by_cases hl : other = l
    · subst hl
      rw [NameMap.regionOf_of_get? hregion] at hleads
      simpa using @Growth.Leads.snoc _ _ ⟨other, region, region.union added⟩ hleads
    · -- the note is of another lifetime
      rw [if_neg hl]
      simpa [Ne.symm hl] using hleads

/-- Applying a constraint keeps the log. -/
theorem move (h : Logged problem initial state.regions state.applications state.history)
    (hcheck : problem.options.checkGrowth = true) (hmoves : problem.Moves state c next grew) :
    Logged problem initial next.regions next.applications next.history := by
  cases hmoves with
  | rest violations => exact h
  | grow hregion hfree hnew =>
    rw [hcheck]
    exact h.note hregion hfree hnew

/-- So does the pass over the constraints on points. -/
theorem ends_runLive (h : Logged problem initial state.regions state.applications state.history)
    (hcheck : problem.options.checkGrowth = true) :
    Ends (fun next : State => Logged problem initial next.regions next.applications next.history)
      Fault.OfSolving (problem.runLive state) := by
  refine .foldlM (fun c _ other hother => ?_) h
  exact (ends_grow problem other (.live c)).map fun result hmoves => hother.move hcheck hmoves

/-- So does a round. -/
theorem ends_advance (h : Logged problem initial state.regions state.applications state.history)
    (hcheck : problem.options.checkGrowth = true) (c : Outlives) (work : List Outlives) :
    Ends (fun next : State => Logged problem initial next.regions next.applications next.history)
      Fault.OfSolving (problem.advance state c work) := by
  unfold advance
  apply (ends_grow problem { state with work, rounds := state.rounds + 1 } (.outlives c)).bind
  rintro ⟨grown, grew⟩ hmoves
  have hgrown : Logged problem initial grown.regions grown.applications grown.history :=
    @move problem initial { state with work, rounds := state.rounds + 1 } _ _ _ h hcheck hmoves
  cases grew <;> exact hgrown

/-- So does a run. -/
theorem ends_run (h : Logged problem initial state.regions state.applications state.history)
    (hcheck : problem.options.checkGrowth = true) :
    Ends (fun final : State =>
        Logged problem initial final.regions final.applications final.history)
      Fault.OfSolving (problem.run state) := by
  fun_induction problem.run state with
  | case1 state hwork => exact h
  | case2 state c work hwork fault hreached =>
    unfold limitReached? at hreached
    split at hreached
    · cases hreached
    · split at hreached
      · cases hreached
        exact .incomparableLimit
      · cases hreached
  | case3 state c work hwork limit hreached hraise => exact .limitReached state.rounds limit
  | case4 state c work hwork limit hreached hraise => exact h
  | case5 state c work hwork hreached fault hadvance =>
    have hends := h.ends_advance hcheck c work
    rw [hadvance] at hends
    exact hends
  | case6 state c work hwork hreached next hadvance ih =>
    have hends := h.ends_advance hcheck c work
    rw [hadvance] at hends
    exact ih hends

end Logged

/-- Where solving starts, nothing is noted and the regions are the initial ones. -/
theorem logged_of_start (h : problem.start initial = .ok state) :
    Logged problem initial state.regions state.applications state.history := by
  obtain ⟨hkeys, -, -, hregion⟩ := start_eq_ok h
  rw [fresh_of_start h]
  refine ⟨hkeys, rfl, by simp, by simp, fun l hl hfree => ?_⟩
  have hstart := hregion l hl
  rw [initialRegion_of_free hfree] at hstart
  rw [Except.ok.inj hstart]
  exact .stay _

/-- Solving with growth checked ends with a log of the run, or with a fault of its own. -/
theorem ends_solve (problem : Problem) (initial : NameMap PointSet)
    (hcheck : problem.options.checkGrowth = true) :
    Ends (fun solution : Solution =>
        Logged problem initial solution.regions solution.applications solution.history)
      Fault.OfSolving (problem.solve initial) := by
  cases hfind : problem.declared.keys.find? (· ∉ problem.constraints.lifetimes) with
  | some l =>
    rw [solve_of_unknown hfind]
    exact .unknownLifetime l
  | none =>
    have hstart : Ends (fun first : State =>
        Logged problem initial first.regions first.applications first.history)
        Fault.OfSolving (problem.start initial) := by
      have hends := ends_start Fault.OfSolving.unknownPoint problem initial
      cases hfirst : problem.start initial with
      | error fault =>
        rw [hfirst] at hends
        exact hends
      | ok first => exact logged_of_start hfirst
    rw [solve_of_known hfind]
    refine Ends.map ?_ fun final hfinal => hfinal
    exact (hstart.bind fun first hfirst => hfirst.ends_runLive hcheck).bind
      fun second hsecond => hsecond.ends_run hcheck

/-! ### Solving with and without notes -/

/-- The problem with growth checked and noted. -/
def checked (problem : Problem) : Problem :=
  { problem with options := { problem.options with checkGrowth := true } }

/-- **The notes of growth are a faithful log.** Whatever the constraints, the declarations, the
initial regions and the other options: a solver that checks growth never finds that a region shrank,
and comes to what one that does not check comes to, but for its notes. There are as many notes as
growths, none is of a placeholder, and each is of a region that has got a point and lost none. For
each lifetime that is solved for, its notes lead from its initial region to its final one. -/
theorem history_is_faithful (problem : Problem) (initial : NameMap PointSet) :
    (∀ l, problem.checked.solve initial ≠ .error (.regionShrank l)) ∧
    (problem.checked.solve initial).map Solution.forget = problem.unchecked.solve initial ∧
    (problem.WellDeclared → problem.options.maxRounds = none → problem.options.strict = false →
      ∃ solution, problem.checked.solve initial = .ok solution) ∧
    ∀ solution, problem.checked.solve initial = .ok solution →
      solution.history.length = solution.applications ∧
      (∀ growth ∈ solution.history, growth.lifetime ∈ problem.constraints.lifetimes ∧
        problem.isFixed growth.lifetime = false ∧
        growth.before.subset growth.after = true ∧ growth.before ≠ growth.after) ∧
      ∀ l ∈ problem.constraints.lifetimes, problem.isFixed l = false →
        Growth.Leads (initial.regionOf l) (solution.history.filter (·.lifetime == l))
          (solution.regions.regionOf l) := by
  have hends := ends_solve problem.checked initial rfl
  refine ⟨?_, solve_forget problem.checked initial, ?_, ?_⟩
  · intro l hshrank
    rw [hshrank] at hends
    cases hends
  · intro hdeclared hlimit hstrict
    have hdeclared' : problem.checked.WellDeclared := ⟨hdeclared.known, hdeclared.placed⟩
    obtain ⟨solution, hsolution, -⟩ := hdeclared'.exists_solve initial hlimit hstrict
    exact ⟨solution, hsolution⟩
  · intro solution hsolution
    rw [hsolution] at hends
    have hlogged : Logged problem.checked initial solution.regions solution.applications
        solution.history := hends
    refine ⟨hlogged.length, fun growth hgrowth => ?_, hlogged.leads⟩
    obtain ⟨hlisted, hfree⟩ := hlogged.free growth hgrowth
    exact ⟨hlisted, hfree, hlogged.grown growth hgrowth⟩

end Problem

/-! ### The notes of a sample -/

namespace Sample

/-- What is noted of the sample: the points at which `b` and `c` are live, and then the point that
`b` gets from `c`. -/
def wideningHistory : List Growth :=
  [⟨"b", ⟨0⟩, ⟨16⟩⟩, ⟨"b", ⟨16⟩, ⟨48⟩⟩, ⟨"c", ⟨0⟩, ⟨32⟩⟩, ⟨"c", ⟨32⟩, ⟨96⟩⟩, ⟨"b", ⟨48⟩, ⟨112⟩⟩]

/-- The sample with a check of its history ends with the same regions, and a history of them. -/
theorem run_widening_checked :
    (wideningProblem.checked.start {} >>= wideningProblem.checked.runLive >>=
      wideningProblem.checked.runFor 3) =
      .ok { wideningEnd with history := wideningHistory } := by
  cbv

end Sample

/-- In the sample the notes of `b`, between which those of `c` stand, lead from nothing to its
region in three steps. -/
theorem Problem.widening_is_noted :
    ∃ solution, Sample.wideningProblem.checked.solve = .ok solution ∧
      solution.history = Sample.wideningHistory ∧ solution.applications = 5 ∧
      Sample.wideningProblem.unchecked.solve = .ok solution.forget ∧
      Growth.Leads ∅ [⟨"b", ⟨0⟩, ⟨16⟩⟩, ⟨"b", ⟨16⟩, ⟨48⟩⟩, ⟨"b", ⟨48⟩, ⟨112⟩⟩] ⟨112⟩ := by
  have hsolve : Sample.wideningProblem.checked.solve = .ok _ :=
    solve_of_runFor rfl (by decide) Sample.run_widening_checked rfl
  obtain ⟨-, hsame, -, hnotes⟩ := history_is_faithful Sample.wideningProblem {}
  obtain ⟨-, -, hleads⟩ := hnotes _ hsolve
  rw [hsolve] at hsame
  exact ⟨_, hsolve, rfl, rfl, hsame.symm, hleads "b" (by decide) (by decide)⟩

end RegionInference
