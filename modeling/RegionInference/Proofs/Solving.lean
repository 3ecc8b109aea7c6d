import RegionInference.Proofs.Applying

/-!
# What solving keeps and what it reaches

The invariant of solving (`Problem.Progress`) is about the regions, the recorded violations and the
constraints that are still pending: what is not pending is settled, and no region is greater than in
any assignment that meets the problem. One application keeps it (`Problem.Progress.apply`), if what
reads a region that grew becomes pending; so both passes of the solver keep it, and a run that ends
with an empty worklist has settled every constraint (`Problem.progress_of_solve`). An invariant of
the regions and violations alone has to be kept by each application (`Problem.solve_keeps`).
-/

namespace RegionInference

namespace Problem

/-! ### Assignments that meet a problem -/

/-- An assignment of regions meets a problem above the initial regions: placeholders have their
fixed regions, and the other lifetimes have their initial regions, the points at which they are
live, and what they have to outlive. -/
structure Meets (problem : Problem) (initial : NameMap PointSet) (R : String → PointSet) :
    Prop where
  /-- A placeholder has its fixed region. -/
  placeholder : ∀ l ∈ problem.constraints.lifetimes, ∀ lifetime,
    problem.declared.get? l = some lifetime → lifetime.isPlaceholder = true →
      ∀ i, i ∈ R l ↔ lifetime.Spans problem.constraints.graph i
  /-- Another lifetime has its initial region. -/
  start : ∀ l ∈ problem.constraints.lifetimes, problem.isFixed l = false →
    ∀ i ∈ initial.regionOf l, i ∈ R l
  /-- It has the points at which it is live. -/
  live : ∀ c ∈ problem.constraints.live, problem.isFixed c.lifetime = false →
    ∀ i, problem.constraints.graph.index? c.point = some i → i ∈ R c.lifetime
  /-- It has what can be reached within a region that it outlives. -/
  outlives : ∀ c ∈ problem.constraints.outlives, problem.isFixed c.longer = false →
    ∀ i, problem.constraints.graph.index? c.point = some i →
      ∀ j ∈ problem.constraints.graph.reachWithin i (R c.shorter), j ∈ R c.longer

/-- In an assignment that meets the problem, a free region has what any of its constraints
needs. -/
theorem Meets.needed {problem : Problem} {initial : NameMap PointSet} {R : String → PointSet}
    (h : problem.Meets initial R) (hbuilt : problem.constraints.Built) {c : Constraint}
    (hc : c ∈ problem.constraints.toList) (hfree : problem.isFixed c.target = false) :
    ∀ i ∈ c.needed problem.constraints.graph R, i ∈ R c.target := by
  have hadmits := hbuilt.admits c hc
  intro i hi
  cases c with
  | live c =>
    obtain rfl : i = c.index := PointSet.mem_single.1 hi
    exact h.live c (ConstraintSet.mem_toList_live.1 hc) hfree c.index hadmits.2
  | outlives c =>
    exact h.outlives c (ConstraintSet.mem_toList_outlives.1 hc) hfree c.index hadmits.2.2 i hi

/-! ### The invariant of solving -/

/-- A constraint is settled: a free target has what is needed, and for a fixed one exactly what it
lacks is recorded. -/
structure Settled (problem : Problem) (R : String → PointSet) (violations : List Violation)
    (c : Constraint) : Prop where
  /-- A free region has what is needed. -/
  free : problem.isFixed c.target = false →
    ∀ i ∈ c.needed problem.constraints.graph R, i ∈ R c.target
  /-- What a fixed region lacks is recorded. -/
  fixed : problem.isFixed c.target = true → ∀ i ∈ c.needed problem.constraints.graph R,
    i ∉ R c.target → i ∈ recorded violations c

/-- How far solving is: whatever is not pending is settled, and nothing is in a region or recorded
that does not have to be. -/
structure Progress (problem : Problem) (initial : NameMap PointSet) (pending : List Constraint)
    (regions : NameMap PointSet) (violations : List Violation) : Prop where
  /-- There is a region for each lifetime. -/
  keys : regions.keys = problem.constraints.lifetimes
  /-- Fixed regions are as they were. -/
  fixed : ∀ l ∈ problem.constraints.lifetimes, problem.isFixed l = true →
    problem.initialRegion initial l = .ok (regions.regionOf l)
  /-- Free regions have not shrunk. -/
  start : ∀ l ∈ problem.constraints.lifetimes, problem.isFixed l = false →
    ∀ i ∈ initial.regionOf l, i ∈ regions.regionOf l
  /-- What is not pending is settled. -/
  settled : ∀ c ∈ problem.constraints.toList, c ∈ pending ∨
    problem.Settled regions.regionOf violations c
  /-- What is recorded is lacking. -/
  recorded : ∀ c, problem.isFixed c.target = true → ∀ i ∈ recorded violations c,
    i ∈ c.needed problem.constraints.graph regions.regionOf ∧ i ∉ regions.regionOf c.target
  /-- The regions are below every assignment that meets the problem. -/
  least : ∀ R, problem.Meets initial R →
    ∀ l ∈ problem.constraints.lifetimes, ∀ i ∈ regions.regionOf l, i ∈ R l

namespace Progress

variable {problem : Problem} {initial : NameMap PointSet} {pending pending' : List Constraint}
  {regions : NameMap PointSet} {violations violations' : List Violation} {c : Constraint}

/-- Every target has a region. -/
theorem exists_region (h : Progress problem initial pending regions violations)
    (hbuilt : problem.constraints.Built) (hc : c ∈ problem.constraints.toList) :
    ∃ region, regions.get? c.target = some region := by
  apply NameMap.exists_get?_of_mem
  rw [h.keys]
  exact hbuilt.target_mem hc

/-- What a fixed region lacks has been recorded. -/
theorem apply_fixed (h : Progress problem initial pending regions violations)
    (hfixed : problem.isFixed c.target = true)
    (hrecorded : ∀ other i, i ∈ Problem.recorded violations' other ↔
      i ∈ Problem.recorded violations other ∨
        (other = c ∧ i ∈ c.needed problem.constraints.graph regions.regionOf ∧
          i ∉ regions.regionOf c.target))
    (hpending : ∀ other ∈ pending, other ∈ pending' ∨ other = c) :
    Progress problem initial pending' regions violations' where
  keys := h.keys
  fixed := h.fixed
  start := h.start
  settled other hother := by
    -- the constraint itself is settled now, and more is recorded for no other
    have hself : problem.Settled regions.regionOf violations' c :=
      ⟨fun hfree => absurd hfixed (by simp [hfree]),
        fun _ i hneeded hout => (hrecorded c i).2 (.inr ⟨rfl, hneeded, hout⟩)⟩
    rcases h.settled other hother with hwaits | hsettled
    · rcases hpending other hwaits with hwaits' | rfl
      · exact .inl hwaits'
      · exact .inr hself
    · exact .inr ⟨hsettled.free, fun hother i hneeded hout =>
        (hrecorded other i).2 (.inl (hsettled.fixed hother i hneeded hout))⟩
  recorded other hother i hi := by
    rcases (hrecorded other i).1 hi with hold | ⟨rfl, hlacking⟩
    · exact h.recorded other hother i hold
    · exact hlacking
  least := h.least

/-- A constraint that is met need not be pending. -/
theorem apply_met (h : Progress problem initial pending regions violations)
    (hfree : problem.isFixed c.target = false)
    (hmet : ∀ i ∈ c.needed problem.constraints.graph regions.regionOf,
      i ∈ regions.regionOf c.target)
    (hpending : ∀ other ∈ pending, other ∈ pending' ∨ other = c) :
    Progress problem initial pending' regions violations where
  keys := h.keys
  fixed := h.fixed
  start := h.start
  settled other hother := by
    rcases h.settled other hother with hwaits | hsettled
    · rcases hpending other hwaits with hwaits' | rfl
      · exact .inl hwaits'
      · exact .inr ⟨fun _ => hmet, fun hfixed => absurd hfixed (by simp [hfree])⟩
    · exact .inr hsettled
  recorded := h.recorded
  least := h.least

/-- A region has grown, and what reads it is pending. -/
theorem apply_grown (h : Progress problem initial pending regions violations)
    (hbuilt : problem.constraints.Built) (hc : c ∈ problem.constraints.toList)
    (hfree : problem.isFixed c.target = false)
    (hpending : ∀ other ∈ pending, other ∈ pending' ∨ other = c)
    (hreaders : ∀ other ∈ problem.constraints.toList, other.source? = some c.target →
      other ∈ pending') :
    Progress problem initial pending'
      (regions.set c.target ((regions.regionOf c.target).union
        (c.needed problem.constraints.graph regions.regionOf))) violations := by
  have htarget := hbuilt.target_mem hc
  generalize hgrown : regions.set c.target ((regions.regionOf c.target).union
    (c.needed problem.constraints.graph regions.regionOf)) = grown
  -- only the region of the target changes, and it grows by what is needed
  have hsame : ∀ l, l ≠ c.target → grown.regionOf l = regions.regionOf l := by
    intro l hl
    rw [← hgrown, NameMap.regionOf_set, if_neg hl]
  have hself : ∀ i, i ∈ grown.regionOf c.target ↔ i ∈ regions.regionOf c.target ∨
      i ∈ c.needed problem.constraints.graph regions.regionOf := by
    intro i
    rw [← hgrown, NameMap.regionOf_set, if_pos rfl, PointSet.mem_union]
  have hmono : ∀ l, ∀ i ∈ regions.regionOf l, i ∈ grown.regionOf l := by
    intro l i hi
    by_cases hl : l = c.target
    · subst hl
      exact (hself i).2 (.inl hi)
    · rwa [hsame l hl]
  have hfixedSame : ∀ l, problem.isFixed l = true → grown.regionOf l = regions.regionOf l := by
    intro l hl
    refine hsame l ?_
    rintro rfl
    simp [hfree] at hl
  refine ⟨?_, ?_, ?_, ?_, ?_, ?_⟩
  · rw [← hgrown, NameMap.keys_set_of_mem _ (by rwa [h.keys]), h.keys]
  · intro l hl hfixed
    rw [hfixedSame l hfixed]
    exact h.fixed l hl hfixed
  · intro l hl hstart i hi
    exact hmono l i (h.start l hl hstart i hi)
  · intro other hother
    by_cases hreads : other.source? = some c.target
    · exact .inl (hreaders other hother hreads)
    · -- what does not read the region needs what it needed before
      have hneeded : other.needed problem.constraints.graph grown.regionOf =
          other.needed problem.constraints.graph regions.regionOf := by
        refine Constraint.needed_congr fun l hl => hsame l ?_
        rintro rfl
        exact hreads hl
      rcases h.settled other hother with hwaits | hsettled
      · rcases hpending other hwaits with hwaits' | rfl
        · exact .inl hwaits'
        · refine .inr ⟨fun _ i hi => (hself i).2 (.inr (hneeded ▸ hi)), fun hfixed => ?_⟩
          simp [hfree] at hfixed
      · refine .inr ⟨fun hother i hi => hmono _ i (hsettled.free hother i (hneeded ▸ hi)),
          fun hother i hi hout => hsettled.fixed hother i (hneeded ▸ hi) ?_⟩
        rwa [← hfixedSame _ hother]
  · intro other hother i hi
    obtain ⟨hneeded, hout⟩ := h.recorded other hother i hi
    exact ⟨Constraint.needed_mono (fun l _ => hmono l) i hneeded, by rwa [hfixedSame _ hother]⟩
  · intro R hR l hl i hi
    by_cases hl' : l = c.target
    · subst hl'
      rcases (hself i).1 hi with hold | hneeded
      · exact h.least R hR _ hl i hold
      · refine hR.needed hbuilt hc hfree i (Constraint.needed_mono (fun l hsource => ?_) i hneeded)
        exact h.least R hR l (hbuilt.source_mem hc hsource)
    · rw [hsame l hl'] at hi
      exact h.least R hR l hl i hi

/-- Applying a constraint keeps the invariant, if it leaves the list of what is pending and what
reads a region that grew comes onto it. -/
theorem apply {state next : State} {grew : Bool}
    (hgrow : problem.grow state c = .ok (next, grew))
    (h : Progress problem initial pending state.regions state.violations)
    (hbuilt : problem.constraints.Built) (hc : c ∈ problem.constraints.toList)
    (hpending : ∀ other ∈ pending, other ∈ pending' ∨ other = c)
    (hreaders : grew = true → ∀ other ∈ problem.constraints.toList,
      other.source? = some c.target → other ∈ pending') :
    Progress problem initial pending' next.regions next.violations := by
  obtain ⟨region, hregion⟩ := h.exists_region hbuilt hc
  have heq := NameMap.regionOf_of_get? hregion
  subst heq
  cases applied_of_grow hgrow hregion with
  | fixed hfixed hrecorded => exact h.apply_fixed hfixed hrecorded hpending
  | met hfree hmet => exact h.apply_met hfree hmet hpending
  | grown hfree => exact h.apply_grown hbuilt hc hfree hpending (hreaders rfl)

end Progress

/-! ### Runs -/

variable {problem : Problem} {initial : NameMap PointSet}

/-- Where solving starts, the regions are the initial ones. -/
theorem start_eq_ok {state : State} (h : problem.start initial = .ok state) :
    state.regions.keys = problem.constraints.lifetimes ∧ state.violations = [] ∧
      state.work = problem.constraints.outlives ∧
      ∀ l ∈ problem.constraints.lifetimes,
        problem.initialRegion initial l = .ok (state.regions.regionOf l) := by
  unfold start at h
  obtain ⟨entries, hentries, h⟩ := exists_of_bind_eq_ok h
  cases h
  obtain ⟨hkeys, hget⟩ := NameMap.get?_of_forall₂ (f := problem.initialRegion initial)
    ((mapM_eq_ok.1 hentries).imp fun l entry hentry => by
      obtain ⟨region, hregion, heq⟩ := exists_of_bind_eq_ok hentry
      cases heq
      exact ⟨rfl, hregion⟩)
  refine ⟨hkeys, rfl, rfl, fun l hl => ?_⟩
  obtain ⟨region, hregion⟩ := NameMap.exists_get?_of_mem (hkeys.symm ▸ hl)
  rw [NameMap.regionOf_of_get? hregion]
  exact hget l region hregion

/-- Where solving starts, nothing has been done. -/
theorem fresh_of_start {state : State} (h : problem.start initial = .ok state) :
    state = { regions := state.regions, work := problem.constraints.outlives } := by
  unfold start at h
  obtain ⟨entries, -, h⟩ := exists_of_bind_eq_ok h
  cases h
  rfl

/-- Where solving starts, everything is pending. -/
theorem progress_start {state : State} (h : problem.start initial = .ok state) :
    Progress problem initial problem.constraints.toList state.regions state.violations := by
  obtain ⟨hkeys, hviolations, -, hregion⟩ := start_eq_ok h
  refine ⟨hkeys, fun l hl _ => hregion l hl, ?_, fun c hc => .inl hc, ?_, ?_⟩
  · intro l hl hfree i hi
    have hstart := hregion l hl
    rw [initialRegion_of_free hfree] at hstart
    rwa [← Except.ok.inj hstart]
  · intro c _ i hi
    rw [hviolations] at hi
    exact absurd hi (PointSet.not_mem_empty i)
  · intro R hR l hl i hi
    have hstart := hregion l hl
    cases hfixed : problem.isFixed l with
    | true =>
      obtain ⟨lifetime, hget, hkind⟩ := isFixed_eq_true.1 hfixed
      rw [initialRegion_of_fixed hget hkind] at hstart
      rw [hR.placeholder l hl lifetime hget hkind]
      exact (Lifetime.mem_fixedRegion hkind hstart).1 hi
    | false =>
      rw [initialRegion_of_free hfixed] at hstart
      rw [← Except.ok.inj hstart] at hi
      exact hR.start l hl hfixed i hi

/-- Applying the constraints on points leaves those between regions pending. -/
theorem progress_runLive {state next : State} (hbuilt : problem.constraints.Built)
    (h : Progress problem initial problem.constraints.toList state.regions state.violations)
    (hrun : problem.runLive state = .ok next) :
    Progress problem initial (problem.constraints.outlives.map .outlives) next.regions
      next.violations ∧ next.work = state.work := by
  -- the constraints that are still to come are pending too
  have hfold : ∀ (live : List LiveAt), (∀ c ∈ live, c ∈ problem.constraints.live) → ∀ state : State,
      Progress problem initial (live.map .live ++ problem.constraints.outlives.map .outlives)
        state.regions state.violations →
      live.foldlM (fun state c => (problem.grow state (.live c)).map Prod.fst) state = .ok next →
      Progress problem initial (problem.constraints.outlives.map .outlives) next.regions
        next.violations ∧ next.work = state.work := by
    intro live
    induction live with
    | nil =>
      intro _ state h hrun
      cases hrun
      exact ⟨h, rfl⟩
    | cons c live ih =>
      intro hlive state h hrun
      have hc : .live c ∈ problem.constraints.toList :=
        ConstraintSet.mem_toList_live.2 (hlive c List.mem_cons_self)
      rw [List.foldlM_cons] at hrun
      obtain ⟨_, hgrown, hrun⟩ := exists_of_bind_eq_ok hrun
      obtain ⟨⟨grown, grew⟩, hgrow, rfl⟩ := exists_of_map_eq_ok hgrown
      have hstep : Progress problem initial
          (live.map .live ++ problem.constraints.outlives.map .outlives) grown.regions
          grown.violations := by
        refine h.apply hgrow hbuilt hc ?_ ?_
        · intro other hother
          simp only [List.map_cons, List.cons_append, List.mem_cons] at hother
          exact hother.symm
        · intro _ other hother hsource
          cases other with
          | live _ => cases hsource
          | outlives c' =>
            have hc' := ConstraintSet.mem_toList_outlives.1 hother
            exact List.mem_append_right _ (List.mem_map_of_mem hc')
      obtain ⟨hprogress, hrest⟩ :=
        ih (fun c' hc' => hlive c' (List.mem_cons_of_mem _ hc')) grown hstep hrun
      exact ⟨hprogress, hrest.trans (work_of_grow hgrow)⟩
  exact hfold problem.constraints.live (fun _ hc => hc) state h hrun

/-- What a round comes to. -/
theorem advance_eq_ok {state next : State} {c : Outlives} {work : List Outlives}
    (h : problem.advance state c work = .ok next) :
    ∃ grown grew, problem.grow { state with work, rounds := state.rounds + 1 } (.outlives c) =
        .ok (grown, grew) ∧
      next = if grew then
        { grown with work := enqueue grown.work (problem.constraints.readers c.longer) }
      else grown := by
  unfold advance at h
  obtain ⟨⟨grown, grew⟩, hgrow, h⟩ := exists_of_bind_eq_ok h
  cases h
  exact ⟨grown, grew, hgrow, rfl⟩

/-- A round takes a constraint off the worklist and puts only constraints of the set on it. -/
theorem listed_advance {state next : State} {c : Outlives} {work : List Outlives}
    (hwork : state.work = c :: work)
    (hlisted : ∀ c ∈ state.work, c ∈ problem.constraints.outlives)
    (h : problem.advance state c work = .ok next) :
    ∀ c ∈ next.work, c ∈ problem.constraints.outlives := by
  obtain ⟨grown, grew, hgrow, rfl⟩ := advance_eq_ok h
  have hkept : grown.work = work := work_of_grow hgrow
  rw [hwork] at hlisted
  have hrest : ∀ c ∈ work, c ∈ problem.constraints.outlives :=
    fun c' hc' => hlisted c' (List.mem_cons_of_mem _ hc')
  cases grew with
  | false =>
    simp only [Bool.false_eq_true, if_false]
    rwa [hkept]
  | true =>
    simp only [if_true]
    rw [hkept]
    intro c' hc'
    rcases mem_enqueue.1 hc' with hold | hreader
    · exact hrest c' hold
    · exact (List.mem_filter.1 hreader).1

/-- A round keeps the invariant: what it takes off the worklist is settled unless it reads the
region that it lets grow. -/
theorem progress_advance {state next : State} {c : Outlives} {work : List Outlives}
    (hbuilt : problem.constraints.Built) (hwork : state.work = c :: work)
    (hlisted : c ∈ problem.constraints.outlives)
    (h : Progress problem initial (state.work.map .outlives) state.regions state.violations)
    (hadvance : problem.advance state c work = .ok next) :
    Progress problem initial (next.work.map .outlives) next.regions next.violations := by
  obtain ⟨grown, grew, hgrow, rfl⟩ := advance_eq_ok hadvance
  rw [hwork] at h
  have hc : .outlives c ∈ problem.constraints.toList := ConstraintSet.mem_toList_outlives.2 hlisted
  have hkept : grown.work = work := work_of_grow hgrow
  have hpending : ∀ other ∈ (c :: work).map Constraint.outlives,
      other ∈ work.map Constraint.outlives ∨ other = .outlives c := by
    intro other hother
    rw [List.map_cons, List.mem_cons] at hother
    exact hother.symm
  cases grew with
  | false =>
    simp only [Bool.false_eq_true, if_false]
    rw [hkept]
    exact h.apply hgrow hbuilt hc hpending fun hgrew => nomatch hgrew
  | true =>
    simp only [if_true]
    rw [hkept]
    refine h.apply hgrow hbuilt hc (fun other hother => ?_) ?_
    · rcases hpending other hother with hold | rfl
      · obtain ⟨c', hc', rfl⟩ := List.mem_map.1 hold
        exact .inl (List.mem_map_of_mem (mem_enqueue.2 (.inl hc')))
      · exact .inr rfl
    · intro _ other hother hsource
      cases other with
      | live _ => cases hsource
      | outlives c' =>
        have hreads : c'.shorter = c.longer := Option.some.inj hsource
        refine List.mem_map_of_mem (mem_enqueue.2 (.inr (List.mem_filter.2 ⟨?_, by simp [hreads]⟩)))
        exact ConstraintSet.mem_toList_outlives.1 hother

/-- A run with an empty worklist is at its end. -/
theorem run_of_nil {state : State} (hwork : state.work = []) : problem.run state = .ok state := by
  rw [run]
  split
  · rfl
  · next c work hwork' =>
    rw [hwork] at hwork'
    cases hwork'

/-- A run below its limit makes a round and goes on from there. -/
theorem run_of_below {state : State} {c : Outlives} {work : List Outlives}
    (hwork : state.work = c :: work) (hlimit : problem.limitReached? state.rounds = .ok none) :
    problem.run state = problem.advance state c work >>= problem.run := by
  rw [run]
  split
  · next hwork' =>
    rw [hwork] at hwork'
    cases hwork'
  · next c' work' hwork' =>
    rw [hwork] at hwork'
    cases hwork'
    rw [hlimit]
    dsimp only
    split
    · next fault hadvance =>
      rw [hadvance]
      rfl
    · next next hadvance =>
      rw [hadvance]
      rfl

/-- A run goes on from where a round leads. -/
theorem run_of_advance {state next : State} {c : Outlives} {work : List Outlives}
    (hwork : state.work = c :: work) (hlimit : problem.limitReached? state.rounds = .ok none)
    (hadvance : problem.advance state c work = .ok next) :
    problem.run state = problem.run next := by
  rw [run_of_below hwork hlimit, hadvance]
  rfl

/-- A run fails where a round fails. -/
theorem run_of_advance_error {state : State} {c : Outlives} {work : List Outlives} {fault : Fault}
    (hwork : state.work = c :: work) (hlimit : problem.limitReached? state.rounds = .ok none)
    (hadvance : problem.advance state c work = .error fault) :
    problem.run state = .error fault := by
  rw [run_of_below hwork hlimit, hadvance]
  rfl

/-- A run that has reached its limit ends there, unless that is a fault. -/
theorem run_of_limit {state : State} {limit : Bound}
    (hlimit : problem.limitReached? state.rounds = .ok (some limit))
    (hraise : problem.options.raiseAtLimit = false) : problem.run state = .ok state := by
  rw [run]
  split
  · rfl
  · rw [hlimit]
    dsimp only
    rw [hraise]
    rfl

/-- Where that is a fault, it fails with it, if there is anything left to do. -/
theorem run_of_limit_error {state : State} {limit : Bound} (hwork : state.work ≠ [])
    (hlimit : problem.limitReached? state.rounds = .ok (some limit))
    (hraise : problem.options.raiseAtLimit = true) :
    problem.run state = .error (.limitReached .solving state.rounds limit) := by
  rw [run]
  split
  · next hwork' => exact absurd hwork' hwork
  · rw [hlimit]
    dsimp only
    rw [hraise]
    rfl

/-- A run with anything left to do fails if its limit cannot be compared. -/
theorem run_of_limit_fault {state : State} {fault : Fault} (hwork : state.work ≠ [])
    (hlimit : problem.limitReached? state.rounds = .error fault) :
    problem.run state = .error fault := by
  rw [run]
  split
  · next hwork' => exact absurd hwork' hwork
  · rw [hlimit]

/-- Induction along a run that ends: what holds where it ends, and before each round after which it
holds, holds where the run starts. -/
theorem run_induct {P : State → Prop} {state final : State} (h : problem.run state = .ok final)
    (hend : (final.work = [] ∨ ∃ limit, problem.limitReached? final.rounds = .ok (some limit)) →
      P final)
    (hround : ∀ state next c work, state.work = c :: work →
      problem.limitReached? state.rounds = .ok none →
      problem.advance state c work = .ok next → P next → P state) : P state := by
  fun_induction problem.run state with
  | case1 state hwork =>
    cases h
    exact hend (.inl hwork)
  | case2 state c work hwork fault hlimit => cases h
  | case3 state c work hwork limit hlimit hraise => cases h
  | case4 state c work hwork limit hlimit hraise =>
    cases h
    exact hend (.inr ⟨limit, hlimit⟩)
  | case5 state c work hwork hlimit fault hadvance => cases h
  | case6 state c work hwork hlimit next hadvance ih =>
    exact hround state next c work hwork hlimit hadvance (ih h)

/-- What each round keeps, a run keeps. -/
theorem run_keeps {P : State → Prop} {state final : State}
    (hstep : ∀ state next c work, state.work = c :: work → c ∈ problem.constraints.outlives →
      problem.advance state c work = .ok next → P state → P next)
    (hlisted : ∀ c ∈ state.work, c ∈ problem.constraints.outlives)
    (hrun : problem.run state = .ok final) (h : P state) : P final := by
  revert hlisted h
  refine run_induct (P := fun state => (∀ c ∈ state.work, c ∈ problem.constraints.outlives) →
    P state → P final) hrun ?_ ?_
  · exact fun _ _ h => h
  · intro state next c work hwork _ hadvance hrest hlisted h
    have hc : c ∈ problem.constraints.outlives := hlisted c (hwork ▸ List.mem_cons_self)
    exact hrest (listed_advance hwork hlisted hadvance)
      (hstep state next c work hwork hc hadvance h)

/-- What is returned where solving ends. -/
def State.solution (state : State) : Solution where
  regions := state.regions
  violations := state.violations
  rounds := state.rounds
  applications := state.applications
  converged := state.work.isEmpty
  history := state.history

/-- Solving fails if a lifetime is declared that the constraints do not know. -/
theorem solve_of_unknown {l : String}
    (h : problem.declared.keys.find? (· ∉ problem.constraints.lifetimes) = some l) :
    problem.solve initial = .error (.unknownLifetime l) := by
  rw [solve, h]
  rfl

/-- Otherwise the three steps are taken one after the other. -/
theorem solve_of_known
    (h : problem.declared.keys.find? (· ∉ problem.constraints.lifetimes) = none) :
    problem.solve initial =
      (problem.start initial >>= problem.runLive >>= problem.run).map State.solution := by
  rw [solve, h]
  cases hfirst : problem.start initial with
  | error fault => rfl
  | ok first =>
    cases hsecond : problem.runLive first with
    | error fault => simp [bind, Except.bind, Except.map, hsecond]
    | ok second =>
      cases hfinal : problem.run second <;>
        simp [bind, Except.bind, Except.map, pure, Except.pure, hsecond, hfinal, State.solution]

/-- After the first two steps, solving comes to what the run comes to. -/
theorem solve_eq_run (hknown : ∀ l ∈ problem.declared.keys, l ∈ problem.constraints.lifetimes)
    {first second : State} (hfirst : problem.start initial = .ok first)
    (hsecond : problem.runLive first = .ok second) :
    problem.solve initial = (problem.run second).map State.solution := by
  have hfind : problem.declared.keys.find? (· ∉ problem.constraints.lifetimes) = none := by
    rw [List.find?_eq_none]
    intro l hl
    simpa using hknown l hl
  rw [solve_of_known hfind, hfirst]
  show ((problem.runLive first >>= problem.run).map State.solution) = _
  rw [hsecond]
  rfl

/-- What is returned is what the three steps end with. -/
theorem steps_of_solve {solution : Solution} (h : problem.solve initial = .ok solution) :
    ∃ first second final, problem.start initial = .ok first ∧
      problem.runLive first = .ok second ∧ problem.run second = .ok final ∧
      final.solution = solution := by
  cases hfind : problem.declared.keys.find? (· ∉ problem.constraints.lifetimes) with
  | some l =>
    rw [solve_of_unknown hfind] at h
    cases h
  | none =>
    rw [solve_of_known hfind] at h
    obtain ⟨final, h, hsolution⟩ := exists_of_map_eq_ok h
    obtain ⟨second, h, hfinal⟩ := exists_of_bind_eq_ok h
    obtain ⟨first, hfirst, hsecond⟩ := exists_of_bind_eq_ok h
    exact ⟨first, second, final, hfirst, hsecond, hfinal, hsolution⟩

/-- What solving comes to: the declared lifetimes are those of the constraints, and the three steps
are taken one after the other. -/
theorem solve_eq_ok {solution : Solution} (h : problem.solve initial = .ok solution) :
    (∀ l ∈ problem.declared.keys, l ∈ problem.constraints.lifetimes) ∧
      ∃ first second final, problem.start initial = .ok first ∧
        problem.runLive first = .ok second ∧ problem.run second = .ok final ∧
        solution.regions = final.regions ∧ solution.violations = final.violations ∧
        solution.converged = final.work.isEmpty := by
  unfold solve at h
  split at h
  · cases h
  · next hfind =>
    obtain ⟨first, hfirst, h⟩ := exists_of_bind_eq_ok h
    obtain ⟨second, hsecond, h⟩ := exists_of_bind_eq_ok h
    obtain ⟨final, hfinal, h⟩ := exists_of_bind_eq_ok h
    cases h
    exact ⟨by simpa using List.find?_eq_none.1 hfind, first, second, final, hfirst, hsecond,
      hfinal, rfl, rfl, rfl⟩

/-- When the three steps succeed, solving does. -/
theorem solve_of_steps (hknown : ∀ l ∈ problem.declared.keys, l ∈ problem.constraints.lifetimes)
    {first second final : State} (hfirst : problem.start initial = .ok first)
    (hsecond : problem.runLive first = .ok second) (hfinal : problem.run second = .ok final) :
    problem.solve initial = .ok {
      regions := final.regions, violations := final.violations, rounds := final.rounds
      applications := final.applications, converged := final.work.isEmpty
      history := final.history } := by
  rw [solve_eq_run hknown hfirst hsecond, hfinal]
  rfl

/-- When solving has ended, what is not settled is still on the worklist, which is empty if solving
has converged. -/
theorem progress_of_solve {solution : Solution} (hbuilt : problem.constraints.Built)
    (h : problem.solve initial = .ok solution) :
    ∃ work, (solution.converged = true → work = []) ∧
      Progress problem initial work solution.regions solution.violations := by
  obtain ⟨-, first, second, final, hfirst, hsecond, hfinal, hregions, hviolations, hconverged⟩ :=
    solve_eq_ok h
  obtain ⟨hprogress, hwork⟩ := progress_runLive hbuilt (progress_start hfirst) hsecond
  rw [(start_eq_ok hfirst).2.2.1] at hwork
  refine ⟨final.work.map .outlives, ?_, ?_⟩
  · intro hend
    rw [hconverged, List.isEmpty_iff] at hend
    rw [hend, List.map_nil]
  · rw [hregions, hviolations]
    refine run_keeps (P := fun state => Progress problem initial (state.work.map .outlives)
      state.regions state.violations) ?_ (fun c hc => hwork ▸ hc) hfinal (by rwa [hwork])
    exact fun state next c work hlist hc hadvance h => progress_advance hbuilt hlist hc h hadvance

section Keeps

variable {Q : NameMap PointSet → List Violation → Prop}

/-- What applying a constraint on a point keeps, the pass over all of them keeps. -/
theorem runLive_keeps {state final : State}
    (hstep : ∀ state next c grew, c ∈ problem.constraints.live →
      problem.grow state (.live c) = .ok (next, grew) → Q state.regions state.violations →
        Q next.regions next.violations)
    (hrun : problem.runLive state = .ok final) (h : Q state.regions state.violations) :
    Q final.regions final.violations ∧ final.work = state.work := by
  refine foldlM_keeps (P := fun other : State => Q other.regions other.violations ∧
    other.work = state.work) ?_ ⟨h, rfl⟩ hrun
  rintro c hc other _ ⟨hother, hwork⟩ hgrown
  obtain ⟨⟨next, grew⟩, hgrow, rfl⟩ := exists_of_map_eq_ok hgrown
  exact ⟨hstep other next c grew hc hgrow hother, (work_of_grow hgrow).trans hwork⟩

/-- What applying a constraint between regions keeps, the rounds keep. -/
theorem run_keeps_applied {state final : State}
    (hstep : ∀ state next c grew, c ∈ problem.constraints.outlives →
      problem.grow state (.outlives c) = .ok (next, grew) → Q state.regions state.violations →
        Q next.regions next.violations)
    (hlisted : ∀ c ∈ state.work, c ∈ problem.constraints.outlives)
    (hrun : problem.run state = .ok final) (h : Q state.regions state.violations) :
    Q final.regions final.violations := by
  refine run_keeps (P := fun state => Q state.regions state.violations) ?_ hlisted hrun h
  intro state next c work _ hc hadvance hstate
  obtain ⟨grown, grew, hgrow, rfl⟩ := advance_eq_ok hadvance
  have hgrown := hstep _ grown c grew hc hgrow hstate
  cases grew <;> exact hgrown

/-- What holds at the start, and what applying any constraint keeps, holds when solving has
ended. -/
theorem solve_keeps {solution : Solution}
    (hstart : ∀ state, problem.start initial = .ok state → Q state.regions state.violations)
    (hstep : ∀ state next c grew, c ∈ problem.constraints.toList →
      problem.grow state c = .ok (next, grew) → Q state.regions state.violations →
        Q next.regions next.violations)
    (h : problem.solve initial = .ok solution) : Q solution.regions solution.violations := by
  obtain ⟨-, first, second, final, hfirst, hsecond, hfinal, hregions, hviolations, -⟩ :=
    solve_eq_ok h
  obtain ⟨hlive, hwork⟩ := runLive_keeps (fun state next c grew hc =>
    hstep state next (.live c) grew (ConstraintSet.mem_toList_live.2 hc)) hsecond
    (hstart first hfirst)
  rw [(start_eq_ok hfirst).2.2.1] at hwork
  rw [hregions, hviolations]
  exact run_keeps_applied (fun state next c grew hc =>
    hstep state next (.outlives c) grew (ConstraintSet.mem_toList_outlives.2 hc))
    (fun c hc => hwork ▸ hc) hfinal hlive

end Keeps

/-! ### Solving always ends -/

/-- Without a limit and without strictness a run ends with an empty worklist. -/
theorem exists_run (hlimit : problem.options.maxRounds = none)
    (hstrict : problem.options.strict = false) (state : State) :
    ∃ final, problem.run state = .ok final ∧ final.work = [] := by
  fun_induction problem.run state with
  | case1 state hwork => exact ⟨state, rfl, hwork⟩
  | case2 state c work hwork fault hreached => simp [limitReached?, hlimit] at hreached
  | case3 state c work hwork limit hreached hraise => simp [limitReached?, hlimit] at hreached
  | case4 state c work hwork limit hreached hraise => simp [limitReached?, hlimit] at hreached
  | case5 state c work hwork hreached fault hadvance =>
    obtain ⟨next, grew, hgrow⟩ :=
      exists_grow hstrict { state with work, rounds := state.rounds + 1 } (.outlives c)
    simp [advance, hgrow, bind, Except.bind, pure, Except.pure] at hadvance
  | case6 state c work hwork hreached next hadvance ih => exact ih

/-- Without strictness the constraints on points can be applied. -/
theorem exists_runLive (hstrict : problem.options.strict = false) (state : State) :
    ∃ next, problem.runLive state = .ok next := by
  unfold runLive
  generalize problem.constraints.live = live
  induction live generalizing state with
  | nil => exact ⟨state, rfl⟩
  | cons c live ih =>
    obtain ⟨next, grew, hgrow⟩ := exists_grow hstrict state (.live c)
    rw [List.foldlM_cons, hgrow]
    exact ih next

/-- Solving can start if the fixed regions are in the graph. -/
theorem exists_start (initial : NameMap PointSet)
    (h : ∀ l ∈ problem.constraints.lifetimes, ∀ lifetime,
      problem.declared.get? l = some lifetime → lifetime.isPlaceholder = true →
        lifetime.Placed problem.constraints.graph) :
    ∃ state, problem.start initial = .ok state := by
  have hregion : ∀ l ∈ problem.constraints.lifetimes,
      ∃ region, problem.initialRegion initial l = .ok region := by
    intro l hl
    cases hfixed : problem.isFixed l with
    | false => exact ⟨_, initialRegion_of_free hfixed⟩
    | true =>
      obtain ⟨lifetime, hget, hkind⟩ := isFixed_eq_true.1 hfixed
      rw [initialRegion_of_fixed hget hkind, Lifetime.exists_fixedRegion hkind]
      exact h l hl lifetime hget hkind
  obtain ⟨entries, hentries⟩ := exists_mapM (f := fun l => do
      return (l, ← problem.initialRegion initial l)) fun l hl => by
    obtain ⟨region, hregion⟩ := hregion l hl
    exact ⟨(l, region), by rw [hregion]; rfl⟩
  unfold start
  rw [hentries]
  exact ⟨_, rfl⟩

/-! ### Runs of known length -/

/-- Processes the worklist for some rounds at most. -/
def runFor (problem : Problem) : Nat → State → Except Fault State
  | 0, state => .ok state
  | rounds + 1, state =>
    match state.work with
    | [] => .ok state
    | c :: work => (problem.advance state c work).bind (problem.runFor rounds)

/-- A run that empties the worklist in some rounds is the whole run. -/
theorem run_of_runFor (hlimit : problem.options.maxRounds = none) {rounds : Nat}
    {state final : State} (h : problem.runFor rounds state = .ok final) (hend : final.work = []) :
    problem.run state = .ok final := by
  induction rounds generalizing state with
  | zero =>
    cases h
    exact run_of_nil hend
  | succ rounds ih =>
    rw [runFor] at h
    split at h
    · next hwork =>
      cases h
      exact run_of_nil hwork
    · next c work hwork =>
      obtain ⟨next, hnext, h⟩ := exists_of_bind_eq_ok h
      rw [run_of_advance hwork (by rw [limitReached?, hlimit]) hnext]
      exact ih h

/-- Solving ends where a run of some rounds does that empties the worklist. -/
theorem solve_of_runFor (hlimit : problem.options.maxRounds = none)
    (hknown : ∀ l ∈ problem.declared.keys, l ∈ problem.constraints.lifetimes) {rounds : Nat}
    {final : State}
    (h : (problem.start initial >>= problem.runLive >>= problem.runFor rounds) = .ok final)
    (hend : final.work = []) :
    problem.solve initial = .ok {
      regions := final.regions, violations := final.violations, rounds := final.rounds
      applications := final.applications, converged := true, history := final.history } := by
  obtain ⟨second, hsecond, hfinal⟩ := exists_of_bind_eq_ok h
  obtain ⟨first, hfirst, hsecond⟩ := exists_of_bind_eq_ok hsecond
  rw [solve_of_steps hknown hfirst hsecond (run_of_runFor hlimit hfinal hend), hend]
  rfl

end Problem

end RegionInference
