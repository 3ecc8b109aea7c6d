import RegionInference.Proofs.LeastFacts
import RegionInference.Proofs.Shapes

/-!
# Limits

Liveness and solving may be given limits. Reaching one, or giving one that is no number, is a fault
of its own kind (`Fault.IsLimit`); it is the only kind of fault that liveness ends with
(`Liveness.ends_run`), and the only one that a run of the solver ends with where violations are
recorded (`Problem.ends_run`).

Limits need not be reached. The facts of liveness are sets of names that the elements read or drop,
of which there are finitely many, so for every order there is a number of iterations from which on
liveness returns, always with the same facts (`Liveness.exists_run_above`). A run of the solver that
ends without a limit ends in the same way under every limit that is not below its own rounds
(`Problem.run_limited`).
-/

namespace RegionInference

/-- A limit was reached, or is no number. -/
def Fault.IsLimit : Fault → Prop
  | .limitReached _ _ _ => True
  | .incomparableLimit => True
  | _ => False

/-! ### Liveness -/

/-- A run that is at its end stays there when it may make one more iteration. -/
theorem Backward.iterate_succ {analysis : Backward α} {order : Order} {budget : Nat}
    {state : State α} (h : (analysis.iterate order budget state).work = []) :
    analysis.iterate order (budget + 1) state = analysis.iterate order budget state := by
  induction budget generalizing state with
  | zero => exact iterate_of_nil h 1
  | succ budget ih =>
    by_cases hwork : state.work = []
    · rw [iterate_of_nil hwork, iterate_of_nil hwork]
    · obtain ⟨node, work, htake⟩ := order.exists_take? hwork
      rw [iterate_of_take? htake] at h
      rw [iterate_of_take? htake, iterate_of_take? htake, ih h]

namespace Liveness

/-- The names that elements of a graph read or drop. -/
def eventNames (g : Graph) : List String :=
  g.blocks.flatMap fun block => block.elements.flatMap fun element => element.uses ++ element.drops

/-- The facts over some names. -/
def factsOver (names : List String) : Set LiveFact :=
  {fact | ∀ (aspect : Aspect) (v : String), v ∈ aspect.part fact → v ∈ names}

/-- A fact says no more than another one iff in both parts its locals are among those of the other.
-/
theorem leq_iff {a b : LiveFact} : lattice.leq a b = true ↔
    ∀ (aspect : Aspect) (v : String), v ∈ aspect.part a → v ∈ aspect.part b := by
  simp only [lattice, Lattice.prod, Lattice.names, Bool.and_eq_true, NameSet.subset_iff]
  constructor
  · rintro ⟨hread, hdrop⟩ aspect
    cases aspect with
    | read => exact hread
    | drop => exact hdrop
  · exact fun h => ⟨h .read, h .drop⟩

/-- The facts over some names are a semilattice. -/
theorem lattice_lawful (names : List String) : lattice.Lawful (factsOver names) where
  bottom_mem _ _ hv := absurd hv not_mem_bottom
  join_mem _ ha _ hb aspect v hv := (mem_join.1 hv).elim (ha aspect v) (hb aspect v)
  leq_refl _ _ := leq_iff.2 fun _ _ hv => hv
  leq_trans _ _ _ _ _ _ hab hbc :=
    leq_iff.2 fun aspect v hv => leq_iff.1 hbc aspect v (leq_iff.1 hab aspect v hv)
  bottom_leq _ _ := leq_iff.2 fun _ _ hv => absurd hv not_mem_bottom
  leq_join_left _ _ _ _ := leq_iff.2 fun _ _ hv => mem_join.2 (.inl hv)
  leq_join_right _ _ _ _ := leq_iff.2 fun _ _ hv => mem_join.2 (.inr hv)
  join_leq _ _ _ _ _ _ hac hbc := leq_iff.2 fun aspect v hv =>
    (mem_join.1 hv).elim (leq_iff.1 hac aspect v) (leq_iff.1 hbc aspect v)
  eq_iff _ _ _ _ := Bool.and_eq_true _ _ ▸ Iff.rfl

/-- A set of names that contains another one and has no more members is the same. -/
theorem mem_of_length_le {s t : NameSet} (hsub : ∀ v ∈ s, v ∈ t)
    (hlength : t.toList.length ≤ s.toList.length) {v : String} (hv : v ∈ t) : v ∈ s :=
  ((List.subperm_of_subset s.nodup_toList hsub).perm_of_length_le hlength).mem_iff.2 hv

/-- A fact over some names has no more members than there are names. -/
theorem length_part_le {names : List String} {fact : LiveFact} (h : fact ∈ factsOver names)
    (aspect : Aspect) : (aspect.part fact).toList.length ≤ names.length :=
  (List.subperm_of_subset (aspect.part fact).nodup_toList (h aspect)).length_le

/-- Ascending chains of facts over some names stop, since there are finitely many names. -/
theorem lattice_chainsStop (names : List String) : lattice.ChainsStop (factsOver names) := by
  intro chain hchain hascends
  have hmono : ∀ n m, n ≤ m → lattice.leq (chain n) (chain m) = true := by
    intro n m hm
    induction m, hm using Nat.le_induction with
    | base => exact (lattice_lawful names).leq_refl _ (hchain n)
    | succ m _ ih =>
      exact (lattice_lawful names).leq_trans _ (hchain n) _ (hchain m) _ (hchain (m + 1)) ih
        (hascends m)
  -- from a fact with the most members on, nothing is added
  let size (n : Nat) : Nat := (chain n).1.toList.length + (chain n).2.toList.length
  let most : Nat := Function.argmin fun n => 2 * names.length - size n
  refine ⟨most, fun m hm => leq_iff.2 ?_⟩
  have hlack : 2 * names.length - size most ≤ 2 * names.length - size m :=
    Function.argmin_le (fun n => 2 * names.length - size n) m
  have hbound : ∀ n, (chain n).1.toList.length ≤ names.length ∧
      (chain n).2.toList.length ≤ names.length :=
    fun n => ⟨length_part_le (hchain n) .read, length_part_le (hchain n) .drop⟩
  have hsub := leq_iff.1 (hmono most m hm)
  have hread : (chain most).1.toList.length ≤ (chain m).1.toList.length :=
    (List.subperm_of_subset (chain most).1.nodup_toList (hsub .read)).length_le
  have hdrop : (chain most).2.toList.length ≤ (chain m).2.toList.length :=
    (List.subperm_of_subset (chain most).2.nodup_toList (hsub .drop)).length_le
  obtain ⟨hmost, hmost'⟩ := hbound most
  obtain ⟨hbound, hbound'⟩ := hbound m
  have hfull : (chain m).1.toList.length ≤ (chain most).1.toList.length ∧
      (chain m).2.toList.length ≤ (chain most).2.toList.length := by
    simp only [size] at hlack
    omega
  intro aspect v hv
  cases aspect with
  | read => exact mem_of_length_le (hsub .read) hfull.1 hv
  | drop => exact mem_of_length_le (hsub .drop) hfull.2 hv

/-- Elements in a row add only what they read or drop. -/
theorem mem_of_mem_stepAll {aspect : Aspect} {v : String} {elements : List Element}
    {fact : LiveFact} (h : v ∈ aspect.part (stepAll elements fact)) :
    (∃ element ∈ elements, v ∈ aspect.events element) ∨ v ∈ aspect.part fact := by
  induction elements with
  | nil => exact .inr h
  | cons element elements ih =>
    rw [stepAll_cons, mem_step] at h
    rcases h with hevent | ⟨hrest, -⟩
    · exact .inl ⟨element, List.mem_cons_self, hevent⟩
    · refine (ih hrest).imp_left ?_
      rintro ⟨other, hother, hevent⟩
      exact ⟨other, List.mem_cons_of_mem _ hother, hevent⟩

/-- From a fact that says more, the elements of a block make one that says more. -/
theorem stepAll_mono {elements : List Element} {a b : LiveFact} (h : lattice.leq a b = true) :
    lattice.leq (stepAll elements a) (stepAll elements b) = true := by
  induction elements with
  | nil => exact h
  | cons element elements ih =>
    refine leq_iff.2 fun aspect v hv => ?_
    rw [stepAll_cons, mem_step] at hv ⊢
    exact hv.imp_right fun hkept => ⟨leq_iff.1 ih aspect v hkept.1, hkept.2⟩

/-- The analysis behind liveness is regular, over the names that elements read or drop. -/
theorem analysis_regular (g : Graph) : (analysis g).Regular (factsOver (eventNames g)) := by
  refine Backward.ofGraph_regular (lattice_lawful _) (lattice_lawful _).bottom_mem ?_ ?_
  · intro block hblock fact hfact aspect v hv
    rcases mem_of_mem_stepAll hv with ⟨element, helement, hevent⟩ | hold
    · refine List.mem_flatMap.2 ⟨block, hblock, List.mem_flatMap.2 ⟨element, helement, ?_⟩⟩
      cases aspect with
      | read => exact List.mem_append_left _ hevent
      | drop => exact List.mem_append_right _ hevent
    · exact hfact aspect v hold
  · intro block _ a _ b _ hleq
    exact stepAll_mono hleq

/-- Liveness returns with the facts of a run to its end, or a limit stops it. -/
theorem ends_run (body : Body) (order : Order) (bound : Bound) :
    Ends (fun liveness => ∃ limit, Ran body order limit liveness) Fault.IsLimit
      (run body order bound) := by
  cases hrun : run body order bound with
  | ok liveness => exact exists_ran hrun
  | error fault =>
    simp only [run, bind, Except.bind] at hrun
    split at hrun
    · next fault' hbelow =>
      cases hrun
      unfold Backward.runBelow at hbelow
      split at hbelow
      · cases hbelow
      · cases hbelow
      · cases hbelow
        trivial
    · split at hrun
      · cases hrun
      · cases hrun
        trivial

/-- Under every limit from some number on, liveness returns, and with the same facts. -/
theorem exists_run_above (body : Body) (order : Order) :
    ∃ enough liveness, ∀ limit : Nat, enough ≤ limit →
      run body order (.count limit) = .ok liveness := by
  have hregular := analysis_regular body.graph
  obtain ⟨enough, henough⟩ := Backward.exists_converged hregular (lattice_chainsStop _) order _
    (fun n hn => Backward.mem_initialWork.1 hn) (Backward.rising_start hregular)
  -- a run that is at its end stays there
  have hsame : ∀ limit ≥ enough,
      (analysis body.graph).run order limit = (analysis body.graph).run order enough := by
    intro limit hlimit
    induction limit, hlimit using Nat.le_induction with
    | base => rfl
    | succ limit hlimit ih =>
      rw [← ih]
      exact Backward.iterate_succ (henough limit hlimit)
  let final := (analysis body.graph).run order enough
  refine ⟨enough, ⟨body, (pointFacts body.graph final.ends).toArray, final.iterations⟩, ?_⟩
  intro limit hlimit
  have hbelow : (analysis body.graph).runBelow order (.count limit) (2 * mentions body.graph) =
      .ok final := by
    simp [Backward.runBelow, Bound.allowance, hsame limit hlimit, final]
  have hconverged : final.converged = true := List.isEmpty_iff.2 (henough enough le_rfl)
  unfold run
  rw [hbelow]
  simp only [bind, Except.bind, hconverged, if_true]
  rfl

end Liveness

/-! ### Solving -/

namespace Problem

variable {problem : Problem}

/-- The problem with another limit on the rounds. -/
def limited (problem : Problem) (maxRounds : Option Bound) : Problem :=
  { problem with options := { problem.options with maxRounds } }

/-- Where violations are recorded, a round can always be made. -/
theorem exists_advance (hstrict : problem.options.strict = false) (state : State) (c : Outlives)
    (work : List Outlives) : ∃ next, problem.advance state c work = .ok next := by
  obtain ⟨next, grew, hgrow⟩ :=
    exists_grow hstrict { state with work, rounds := state.rounds + 1 } (.outlives c)
  exact ⟨_, by rw [advance, hgrow]; rfl⟩

/-- Where violations are recorded, only a limit stops a run. -/
theorem ends_run (hstrict : problem.options.strict = false) (state : State) :
    Ends (fun _ => True) Fault.IsLimit (problem.run state) := by
  fun_induction problem.run state with
  | case1 state hwork => trivial
  | case2 state c work hwork fault hreached =>
    unfold limitReached? at hreached
    split at hreached
    · cases hreached
    · split at hreached
      · cases hreached
        trivial
      · cases hreached
  | case3 state c work hwork limit hreached hraise => trivial
  | case4 state c work hwork limit hreached hraise => trivial
  | case5 state c work hwork hreached fault hadvance =>
    obtain ⟨next, hnext⟩ := exists_advance hstrict state c work
    rw [hnext] at hadvance
    cases hadvance
  | case6 state c work hwork hreached next hadvance ih => exact ih

/-- Applying a constraint does not count as a round. -/
theorem rounds_of_grow {state next : State} {c : Constraint} {grew : Bool}
    (h : problem.grow state c = .ok (next, grew)) : next.rounds = state.rounds := by
  cases hregion : state.regions.get? c.target with
  | none =>
    rw [grow, hregion] at h
    cases h
    rfl
  | some region => cases applied_of_grow h hregion <;> rfl

/-- A round counts as one. -/
theorem rounds_of_advance {state next : State} {c : Outlives} {work : List Outlives}
    (h : problem.advance state c work = .ok next) : next.rounds = state.rounds + 1 := by
  obtain ⟨grown, grew, hgrow, rfl⟩ := advance_eq_ok h
  have hrounds := rounds_of_grow hgrow
  split <;> exact hrounds

/-- A run that ends without a limit ends in the same way under a limit that is not below its
rounds. -/
theorem run_limited (hlimit : problem.options.maxRounds = none) {state final : State}
    (h : problem.run state = .ok final) :
    state.rounds ≤ final.rounds ∧ ∀ limit : Nat, final.rounds ≤ limit →
      (problem.limited (some (.count limit))).run state = .ok final := by
  refine run_induct (P := fun state => state.rounds ≤ final.rounds ∧ ∀ limit : Nat,
    final.rounds ≤ limit → (problem.limited (some (.count limit))).run state = .ok final) h ?_ ?_
  · rintro (hwork | ⟨_, hreached⟩)
    · exact ⟨le_rfl, fun limit _ => run_of_nil hwork⟩
    · simp [limitReached?, hlimit] at hreached
  · rintro state next c work hwork - hadvance ⟨hrounds, hrun⟩
    have hcount := rounds_of_advance hadvance
    refine ⟨by omega, fun limit hle => ?_⟩
    have hbelow :
        (problem.limited (some (.count limit))).limitReached? state.rounds = .ok none := by
      have hnot : ¬ (limit : Int) ≤ state.rounds := by omega
      simp [limitReached?, limited, Bound.reached?, hnot]
    -- what a round does has nothing to do with the limit
    have hsame : (problem.limited (some (.count limit))).advance state c work = .ok next := hadvance
    rw [run_of_advance hwork hbelow hsame]
    exact hrun limit hle

end Problem

end RegionInference
