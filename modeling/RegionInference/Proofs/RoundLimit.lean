import Mathlib
import RegionInference.Proofs.DropPermissiveness
import RegionInference.Proofs.Strictness
import RegionInference.Proofs.Totality

/-!
# Stopping after some rounds

A limit changes nothing of what a round does, only whether there is a next one. So a run that has
been stopped can be resumed: another limit that comes no earlier, or none, leads from the start to
the same as from where the first run was stopped (`Problem.run_resume`). All else follows from this.
A run under a limit is either the whole run, or it is stopped with something left to do and with as
many rounds as the limit says (`Problem.run_bounded`), and then the whole run goes on from there, so
regions and records only grow (`Problem.below_of_solve`). The one case in which a limit that is
exceeded does not count is that there is nothing to do: a run without rounds does not look at its
limit, even if that is negative.

Where a loan is active in a partial solution it is active in the whole one, so the conflicts that
are found by a partial solution are conflicts (`Problem.round_limit_exact`).
-/

namespace RegionInference

/-- The options with a count as the limit on the rounds, which is a fault or not. -/
def SolveOptions.bounded (options : SolveOptions) (limit : Int) (raise : Bool) : SolveOptions :=
  { options with maxRounds := some (.count limit), raiseAtLimit := raise }

/-- The settings with a count as the limit on the rounds of the solver, which is no fault. -/
def Settings.bounded (settings : Settings) (limit : Int) : Settings :=
  { settings with solve := settings.solve.bounded limit false }

/-- A solution is part of another one: for the same lifetimes, no region and no record has more
points. -/
structure Solution.Below (part whole : Solution) : Prop where
  /-- The lifetimes are the same. -/
  keys : whole.regions.keys = part.regions.keys
  /-- Each region is part of the other. -/
  regions : ∀ l, ∀ i ∈ part.regions.regionOf l, i ∈ whole.regions.regionOf l
  /-- Each record is part of one for the same constraint. -/
  violations : ∀ violation ∈ part.violations, ∃ other ∈ whole.violations, violation.Within other

namespace Problem

/-- The problem with a count as the limit on the rounds. -/
def bounded (problem : Problem) (limit : Int) (raise : Bool) : Problem :=
  { problem with options := problem.options.bounded limit raise }

variable {problem : Problem} {initial : NameMap PointSet} {state part final : State}
  {limit limit' : Int} {raise : Bool}

/-- A state that grows into another one has a part of its solution. -/
theorem State.Grows.below (h : part.Grows final) : part.solution.Below final.solution where
  keys := h.keys
  regions := h.regions
  violations _ hmem := h.violations.exists_within hmem

/-! ### Runs that go on -/

/-- A run that has been stopped can be resumed: with the same rounds and a limit that comes no
earlier, it leads from the start to the same as from where it was stopped. -/
theorem run_resume {other : Problem} (h : problem.run state = .ok part)
    (hstep : other.advance = problem.advance)
    (hlater : ∀ rounds, problem.limitReached? rounds = .ok none →
      other.limitReached? rounds = .ok none) : other.run state = other.run part := by
  refine run_induct (P := fun state => other.run state = other.run part) h (fun _ => rfl) ?_
  intro state next c work hwork hreached hadvance hrest
  rw [run_of_advance hwork (hlater _ hreached) (by rw [hstep, hadvance])]
  exact hrest

/-- A run has ended because nothing is left to do or because its limit is reached. -/
theorem stopped_of_run (h : problem.run state = .ok final) :
    final.work = [] ∨ ∃ limit, problem.limitReached? final.rounds = .ok (some limit) :=
  run_induct (P := fun _ => final.work = [] ∨ _) h id fun _ _ _ _ _ _ _ hstopped => hstopped

/-- A count is reached from so many rounds on. -/
theorem limitReached?_bounded (problem : Problem) (limit : Int) (raise : Bool) (rounds : Nat) :
    (problem.bounded limit raise).limitReached? rounds =
      .ok (if limit ≤ rounds then some (.count limit) else none) := by
  show Except.ok (if decide (limit ≤ rounds) then _ else none) = _
  simp only [decide_eq_true_eq]

/-- A run makes no more rounds than its limit says. -/
theorem rounds_le_of_run (h : (problem.bounded limit raise).run state = .ok final)
    (hstart : state.rounds ≤ limit.toNat) : final.rounds ≤ limit.toNat := by
  revert hstart
  refine run_induct (P := fun state => state.rounds ≤ limit.toNat →
    final.rounds ≤ limit.toNat) h ?_ ?_
  · exact fun _ hstart => hstart
  · intro state next c work _ hreached hadvance hrest hstart
    have hrounds := rounds_of_advance hadvance
    have hbelow : ¬ limit ≤ state.rounds := by
      intro hle
      rw [limitReached?_bounded, if_pos hle] at hreached
      cases hreached
    exact hrest (by omega)

/-- A run without a limit makes another round while something is left to do. -/
theorem rounds_lt_of_run (hlimit : problem.options.maxRounds = none)
    (hstrict : problem.options.strict = false) (hwork : state.work ≠ [])
    (h : problem.run state = .ok final) : state.rounds < final.rounds := by
  obtain ⟨c, work, hlist⟩ := List.exists_cons_of_ne_nil hwork
  obtain ⟨next, hnext⟩ := exists_advance hstrict state c work
  rw [run_of_advance hlist (by rw [limitReached?, hlimit]) hnext] at h
  have hle := (run_limited hlimit h).1
  rw [rounds_of_advance hnext] at hle
  exact hle

/-! ### Where a limit stops a run -/

/-- Another count that is no less comes no earlier. -/
theorem bounded_later (hle : limit ≤ limit') {raise' : Bool} (rounds : Nat)
    (h : (problem.bounded limit raise).limitReached? rounds = .ok none) :
    (problem.bounded limit' raise').limitReached? rounds = .ok none := by
  rw [limitReached?_bounded] at h ⊢
  by_cases hreached : limit ≤ rounds
  · rw [if_pos hreached] at h
    cases h
  · rw [if_neg (by omega)]

/-- No limit comes no earlier than any. -/
theorem unbounded_later (hlimit : problem.options.maxRounds = none) (rounds : Nat) :
    problem.limitReached? rounds = .ok none := by
  rw [limitReached?, hlimit]

/-- A run under a limit is the whole run, if that needs no more rounds, and else it is stopped with
as many rounds as the limit says and something left to do. -/
theorem run_bounded (hlimit : problem.options.maxRounds = none)
    (hstrict : problem.options.strict = false) (hstart : state.rounds ≤ limit.toNat)
    (h : problem.run state = .ok final) :
    (final.rounds ≤ limit.toNat ∧
      ∀ raise, (problem.bounded limit raise).run state = .ok final) ∨
    (limit.toNat < final.rounds ∧
      (problem.bounded limit true).run state =
        .error (.limitReached .solving limit.toNat (.count limit)) ∧
      ∃ part, (problem.bounded limit false).run state = .ok part ∧ part.work ≠ [] ∧
        part.rounds = limit.toNat) := by
  obtain ⟨part, hpart⟩ := @exists_run_of_quiet (problem.bounded limit false) hstrict
    (.inr ⟨nofun, rfl⟩) state
  have hrounds := rounds_le_of_run hpart hstart
  -- the whole run, and the one that fails at the limit, go on from where this one has ended
  have hwhole : problem.run state = problem.run part :=
    run_resume hpart rfl fun rounds _ => unbounded_later hlimit rounds
  rw [h] at hwhole
  have hresume : ∀ raise, (problem.bounded limit raise).run state =
      (problem.bounded limit raise).run part :=
    fun raise => run_resume hpart rfl (bounded_later le_rfl)
  by_cases hwork : part.work = []
  · rw [run_of_nil hwork] at hwhole
    cases hwhole
    refine .inl ⟨hrounds, fun raise => ?_⟩
    rw [hresume, run_of_nil hwork]
  · obtain ⟨_, hstopped⟩ := (stopped_of_run hpart).resolve_left hwork
    have hle : limit ≤ part.rounds := by
      by_contra hbelow
      rw [limitReached?_bounded, if_neg hbelow] at hstopped
      cases hstopped
    have hexact : part.rounds = limit.toNat := by omega
    have hreached : (problem.bounded limit true).limitReached? part.rounds =
        .ok (some (.count limit)) := by
      rw [limitReached?_bounded, if_pos hle]
    refine .inr ⟨?_, ?_, part, hpart, hwork, hexact⟩
    · rw [← hexact]
      exact rounds_lt_of_run hlimit hstrict hwork hwhole.symm
    · rw [hresume, ← hexact]
      exact run_of_limit_error hwork hreached rfl

/-! ### Solving -/

/-- The passes before the rounds are the same under any limit, and no rounds are counted in them. -/
theorem exists_second {full : Solution} (hfull : problem.solve initial = .ok full) :
    ∃ second final, second.rounds = 0 ∧ problem.run second = .ok final ∧ final.solution = full ∧
      ∀ limit raise, (problem.bounded limit raise).solve initial =
        ((problem.bounded limit raise).run second).map State.solution := by
  obtain ⟨hknown, -⟩ := solve_eq_ok hfull
  obtain ⟨first, second, final, hfirst, hsecond, hfinal, hsolution⟩ := steps_of_solve hfull
  refine ⟨second, final, ?_, hfinal, hsolution, fun limit raise => ?_⟩
  · have hzero : first.rounds = 0 := by rw [fresh_of_start hfirst]
    refine foldlM_keeps (P := fun other : State => other.rounds = 0) ?_ hzero hsecond
    intro c _ other _ hother hgrown
    obtain ⟨⟨grown, grew⟩, hgrow, rfl⟩ := exists_of_map_eq_ok hgrown
    exact (rounds_of_grow hgrow).trans hother
  · exact @solve_eq_run (problem.bounded limit raise) initial hknown first second hfirst hsecond

/-- Under a limit that allows all rounds, solving returns the same. -/
theorem solve_bounded_of_le {full : Solution} (hlimit : problem.options.maxRounds = none)
    (hstrict : problem.options.strict = false) (hfull : problem.solve initial = .ok full)
    (hle : full.rounds ≤ limit.toNat) (raise : Bool) :
    (problem.bounded limit raise).solve initial = .ok full := by
  obtain ⟨second, final, hzero, hfinal, rfl, hsolve⟩ := exists_second hfull
  rcases run_bounded hlimit hstrict (by omega) hfinal with ⟨-, hwhole⟩ | ⟨hlt, -⟩
  · rw [hsolve, hwhole]
    rfl
  · exact absurd hle (Nat.not_le_of_lt hlt)

/-- Under another limit it is stopped after the rounds that the limit allows. -/
theorem solve_bounded_of_lt {full : Solution} (hlimit : problem.options.maxRounds = none)
    (hstrict : problem.options.strict = false) (hfull : problem.solve initial = .ok full)
    (hlt : limit.toNat < full.rounds) :
    (problem.bounded limit true).solve initial =
        .error (.limitReached .solving limit.toNat (.count limit)) ∧
      ∃ part, (problem.bounded limit false).solve initial = .ok part ∧
        part.converged = false ∧ part.rounds = limit.toNat := by
  obtain ⟨second, final, hzero, hfinal, rfl, hsolve⟩ := exists_second hfull
  rcases run_bounded hlimit hstrict (by omega) hfinal with
    ⟨hle, -⟩ | ⟨-, hraised, stopped, hstopped, hwork, hexact⟩
  · exact absurd hle (Nat.not_le_of_lt hlt)
  · refine ⟨?_, stopped.solution, ?_, List.isEmpty_eq_false_iff.2 hwork, hexact⟩
    · rw [hsolve, hraised]
      rfl
    · rw [hsolve, hstopped]
      rfl

/-- What is solved under a limit is part of what is solved with the same steps under a limit that
comes no earlier. -/
theorem below_of_solve {other : Problem} {part whole : Solution}
    (hpart : problem.solve initial = .ok part) (hwhole : other.solve initial = .ok whole)
    (hstart : other.start = problem.start) (hlive : other.runLive = problem.runLive)
    (hstep : other.advance = problem.advance)
    (hlater : ∀ rounds, problem.limitReached? rounds = .ok none →
      other.limitReached? rounds = .ok none) : part.Below whole := by
  obtain ⟨first, second, stopped, hfirst, hsecond, hstopped, rfl⟩ := steps_of_solve hpart
  obtain ⟨first', second', final, hfirst', hsecond', hfinal, rfl⟩ := steps_of_solve hwhole
  rw [hstart, hfirst] at hfirst'
  cases hfirst'
  rw [hlive, hsecond] at hsecond'
  cases hsecond'
  rw [run_resume hstopped hstep hlater] at hfinal
  exact (grows_of_run hfinal).below

/-- What is solved under a limit is part of what is solved without one. -/
theorem below_of_bounded {part full : Solution} (hlimit : problem.options.maxRounds = none)
    (hpart : (problem.bounded limit raise).solve initial = .ok part)
    (hfull : problem.solve initial = .ok full) : part.Below full :=
  below_of_solve hpart hfull rfl rfl rfl fun rounds _ => unbounded_later hlimit rounds

/-- Under a limit that is no fault, solving returns if it does without a limit. -/
theorem exists_solve_bounded {full : Solution} (hstrict : problem.options.strict = false)
    (hfull : problem.solve initial = .ok full) (limit : Int) :
    ∃ part, (problem.bounded limit false).solve initial = .ok part := by
  obtain ⟨second, final, -, -, -, hsolve⟩ := exists_second hfull
  obtain ⟨stopped, hstopped⟩ := @exists_run_of_quiet (problem.bounded limit false) hstrict
    (.inr ⟨nofun, rfl⟩) second
  exact ⟨stopped.solution, by rw [hsolve, hstopped]; rfl⟩

end Problem

/-! ### Conflicts of partial solutions -/

/-- Each region of a partial solution is part of the region in the whole one. -/
theorem Solution.Below.exists_get? {part whole : Solution} (h : part.Below whole) {l : String}
    {region' : PointSet} (hregion' : part.regions.get? l = some region') :
    ∃ region, whole.regions.get? l = some region ∧ ∀ i ∈ region', i ∈ region := by
  have hl : l ∈ whole.regions.keys := h.keys ▸ NameMap.mem_keys_of_get? hregion'
  obtain ⟨region, hregion⟩ := NameMap.exists_get?_of_mem hl
  have hsubset := h.regions l
  rw [NameMap.regionOf_of_get? hregion, NameMap.regionOf_of_get? hregion'] at hsubset
  exact ⟨region, hregion, hsubset⟩

namespace Body

variable {body : Body} {settings : Settings} {limit : Int}

/-- A body is analysed under a limit on the rounds that is no fault iff it is without one. -/
theorem exists_analyze_bounded_iff (hlimit : settings.solve.maxRounds = none)
    (hstrict : settings.solve.strict = false) :
    (∃ report, body.analyze (settings.bounded limit) = .ok report) ↔
      ∃ full, body.analyze settings = .ok full := by
  constructor
  · rintro ⟨report, hreport⟩
    obtain ⟨liveness, set, part, hpart⟩ := analyze_eq_ok hreport
    have hdeclared := Problem.wellDeclared_of_solve hpart.solved
    obtain ⟨full, hfull, -⟩ := @Problem.WellDeclared.exists_solve
      { constraints := set, declared := body.declared, options := settings.solve }
      ⟨hdeclared.known, hdeclared.placed⟩ {} hlimit hstrict
    exact exists_analyze_of_solve hpart.live hpart.generated hfull
  · rintro ⟨full, hreport⟩
    obtain ⟨liveness, set, whole, hwhole⟩ := analyze_eq_ok hreport
    obtain ⟨part, hpart⟩ := Problem.exists_solve_bounded hstrict hwhole.solved limit
    exact @exists_analyze_of_solve body (settings.bounded limit) _ _ _ hwhole.live
      hwhole.generated hpart

/-- Every conflict that is found by a partial solution is found by the whole one, perhaps with
another use. -/
theorem exists_conflict_of_bounded {report full : Report}
    (hlimit : settings.solve.maxRounds = none)
    (hreport : body.analyze (settings.bounded limit) = .ok report)
    (hfull : body.analyze settings = .ok full) {conflict : Conflict}
    (hconflict : conflict ∈ report.conflicts) :
    ∃ conflict' ∈ full.conflicts, conflict' = { conflict with use := conflict'.use } := by
  obtain ⟨liveness, set, part, hpart⟩ := analyze_eq_ok hreport
  obtain ⟨liveness', set', whole, hwhole⟩ := analyze_eq_ok hfull
  cases hpart.live.symm.trans hwhole.live
  cases hpart.generated.symm.trans hwhole.generated
  have hbelow : part.Below whole :=
    @Problem.below_of_bounded ⟨set, body.declared, settings.solve⟩ {} limit false _ _ hlimit
      hpart.solved hwhole.solved
  cases hdetect : settings.detectConflicts with
  | false =>
    rw [conflicts_of_analyze hreport hdetect] at hconflict
    exact absurd hconflict List.not_mem_nil
  | true =>
    obtain ⟨facts, hfacts, hconflicts⟩ := exists_of_bind_eq_ok (hpart.checked hdetect)
    obtain ⟨facts', hfacts', hconflicts'⟩ := exists_of_bind_eq_ok (hwhole.checked hdetect)
    cases hfacts.symm.trans hfacts'
    have hnarrower : Detector.Narrower ⟨body, whole.regions, facts, set⟩
        ⟨body, part.regions, facts, set⟩ :=
      ⟨rfl, rfl, fun _ _ => hbelow.exists_get?, fun _ _ => Iff.rfl⟩
    exact hnarrower.exists_conflict hconflicts' hconflicts hconflict

end Body

/-- **The limit on the rounds is exact.** Let solving without a limit, with violations recorded,
need some number of rounds. Under a limit that is no less, and under any limit if no rounds are
needed at all, solving returns the same. Under a smaller limit it fails with the limit and the
number of rounds that it allows, or, if that is no fault, it returns after these rounds,
unconverged, with regions and records that are part of the whole ones and that grow with the limit.
An analysis under such a limit returns iff it does without one, and each conflict that it reports is
one of the whole analysis, but for the use that it names. -/
theorem Problem.round_limit_exact :
    (∀ (problem : Problem) (initial : NameMap PointSet) (full : Solution),
      problem.options.maxRounds = none → problem.options.strict = false →
      problem.solve initial = .ok full → full.converged = true ∧ ∀ limit : Int,
        (limit ≥ full.rounds ∨ full.rounds = 0 → ∀ raise,
          (problem.bounded limit raise).solve initial = .ok full) ∧
        (limit < full.rounds → full.rounds ≠ 0 →
          (problem.bounded limit true).solve initial =
            .error (.limitReached .solving limit.toNat (.count limit)) ∧
          ∃ part, (problem.bounded limit false).solve initial = .ok part ∧
            part.converged = false ∧ part.rounds = limit.toNat ∧ part.Below full ∧
            ∀ limit' ≥ limit, ∃ later, (problem.bounded limit' false).solve initial = .ok later ∧
              part.Below later)) ∧
    ∀ (body : Body) (settings : Settings) (limit : Int),
      settings.solve.maxRounds = none → settings.solve.strict = false →
        ((∃ report, body.analyze (settings.bounded limit) = .ok report) ↔
          ∃ full, body.analyze settings = .ok full) ∧
        ∀ report full, body.analyze (settings.bounded limit) = .ok report →
          body.analyze settings = .ok full → ∀ conflict ∈ report.conflicts,
            ∃ conflict' ∈ full.conflicts, conflict' = { conflict with use := conflict'.use } := by
  refine ⟨fun problem initial full hlimit hstrict hfull => ?_,
    fun body settings limit hlimit hstrict => ?_⟩
  · refine ⟨converged_of_solve hlimit hstrict hfull, fun limit => ⟨?_, ?_⟩⟩
    · intro hallowed raise
      exact solve_bounded_of_le hlimit hstrict hfull (by omega) raise
    · intro hless hsome
      have hlt : limit.toNat < full.rounds := by omega
      obtain ⟨hraised, part, hpart, hunconverged, hrounds⟩ :=
        solve_bounded_of_lt hlimit hstrict hfull hlt
      refine ⟨hraised, part, hpart, hunconverged, hrounds, below_of_bounded hlimit hpart hfull,
        fun limit' hle => ?_⟩
      obtain ⟨later, hlater⟩ := exists_solve_bounded hstrict hfull limit'
      exact ⟨later, hlater, below_of_solve hpart hlater rfl rfl rfl (bounded_later hle)⟩
  · refine ⟨Body.exists_analyze_bounded_iff hlimit hstrict, ?_⟩
    intro report full hreport hfull conflict hconflict
    exact Body.exists_conflict_of_bounded hlimit hreport hfull hconflict

/-! ### Limits in samples -/

namespace Sample

/-- One lifetime and no constraints. -/
def unrelated : Problem :=
  { constraints := .new graph ["a"] }

/-- Without constraints, solving ends where it starts. -/
theorem run_unrelated :
    (unrelated.start {} >>= unrelated.runLive >>= unrelated.runFor 0) =
      .ok { regions := ⟨[("a", ∅)]⟩, work := [] } := by
  cbv

end Sample

/-- A negative limit is below the rounds of any run, but where there is nothing to do it is not
looked at: solving returns, and has converged. -/
theorem Problem.negative_limit_not_reached :
    ∃ full, Sample.unrelated.solve = .ok full ∧ (-1 : Int) < full.rounds ∧
      (Sample.unrelated.bounded (-1) true).solve ≠
        .error (.limitReached .solving 0 (.count (-1))) ∧
      (Sample.unrelated.bounded (-1) true).solve = .ok full ∧ full.converged = true := by
  have hfull : Sample.unrelated.solve = .ok _ :=
    solve_of_runFor rfl (by decide) Sample.run_unrelated rfl
  have hsame : (Sample.unrelated.bounded (-1) true).solve = .ok _ :=
    solve_bounded_of_le rfl rfl hfull le_rfl true
  refine ⟨_, hfull, by decide, ?_, hsame, rfl⟩
  rw [hsame]
  exact nofun

/-- After one of the three rounds of the sample, solving fails with its limit, or is stopped with
part of the solution. -/
theorem Problem.widening_stopped_after_one_round :
    ∃ full part, Sample.wideningProblem.options.maxRounds = none ∧
      Sample.wideningProblem.options.strict = false ∧
      Sample.wideningProblem.solve = .ok full ∧ full.rounds = 3 ∧
      (Sample.wideningProblem.bounded 1 true).solve =
        .error (.limitReached .solving 1 (.count 1)) ∧
      (Sample.wideningProblem.bounded 1 false).solve = .ok part ∧ part.converged = false ∧
      part.rounds = 1 ∧ part.Below full ∧
      (Sample.wideningProblem.bounded 3 true).solve = .ok full ∧
      ∃ report whole, Sample.touching.analyze (Settings.bounded {} 1) = .ok report ∧
        Sample.touching.analyze = .ok whole ∧ ∀ conflict ∈ report.conflicts,
          ∃ conflict' ∈ whole.conflicts, conflict' = { conflict with use := conflict'.use } := by
  obtain ⟨hsolving, hanalysis⟩ := round_limit_exact
  have hfull : Sample.wideningProblem.solve = .ok _ :=
    solve_of_runFor rfl (by decide) Sample.run_widening rfl
  obtain ⟨-, hlimits⟩ := hsolving Sample.wideningProblem {} _ rfl rfl hfull
  obtain ⟨hraised, part, hpart, hunconverged, hrounds, hbelow, -⟩ :=
    (hlimits 1).2 (by decide) (by decide)
  obtain ⟨whole, hwhole, -⟩ := Body.analyze_of_analyzeFor Sample.analyzeFor_touching
  obtain ⟨hiff, hconflicts⟩ := hanalysis Sample.touching {} 1 rfl rfl
  obtain ⟨report, hreport⟩ := hiff.2 ⟨whole, hwhole⟩
  exact ⟨_, part, rfl, rfl, hfull, rfl, hraised, hpart, hunconverged, hrounds, hbelow,
    (hlimits 3).1 (.inl (by decide)) true, report, whole, hreport, hwhole,
    hconflicts report whole hreport hwhole⟩

end RegionInference
