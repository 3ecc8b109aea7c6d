import Mathlib
import RegionInference.Analyzer
import RegionInference.Proofs.EnoughIterations
import RegionInference.Proofs.Totality
import RegionInference.Proofs.Tuning

/-!
# The limit of liveness is exact

An unlimited run of liveness takes a number of iterations. Under a limit that is not below it,
liveness comes to the same; under any other it is a fault that names the limit and how many
iterations were made (`Liveness.exists_run_exact`).

An analyzer runs liveness lazily and remembers what it found, so one may fear that it shows what a
stopped run left behind. It does not: whatever it was asked before, it answers every question as if
the analysis were run beforehand, once (`Analyzer.ask_after`). The invariant is that its facts are
none or those of the run, and that a lifetime it remembers is one that follows from them
(`Analyzer.Faithful`).
-/

namespace RegionInference

/-- Two maps over a result are one. -/
theorem except_map_map (result : Except ε α) (f : α → β) (f' : β → γ) :
    (result.map f).map f' = result.map fun a => f' (f a) := by
  cases result <;> rfl

/-! ### Runs under limits -/

namespace Liveness

/-- What a run comes to, from the state in which its iterations end. -/
theorem run_of_runBelow {body : Body} {order : Order} {bound : Bound}
    {state : Backward.State LiveFact}
    (h : (analysis body.graph).runBelow order bound (2 * mentions body.graph) = .ok state) :
    run body order bound =
      if state.converged then
        .ok ⟨body, (pointFacts body.graph state.ends).toArray, state.iterations⟩
      else .error (.limitReached .liveness state.iterations bound) := by
  unfold run
  rw [h]
  rfl

/-- There is something to process at first. -/
theorem initialWork_ne_nil (g : Graph) (order : Order) : (analysis g).initialWork order ≠ [] := by
  obtain ⟨block, hblock, -⟩ := List.mem_map.1 g.entry_mem
  have hcount : 0 < (analysis g).count := by
    rw [count_analysis]
    exact List.length_pos_of_mem hblock
  exact List.ne_nil_of_mem (Backward.mem_initialWork.2 hcount)

/-- An unlimited run returns, and its iterations are the least limit under which liveness returns.
-/
theorem exists_run_exact (body : Body) (order : Order) :
    ∃ full, run body order (.real (.infinite false)) = .ok full ∧ ∀ k : Int,
      (full.iterations ≤ k → run body order (.count k) = .ok full) ∧
      (k < full.iterations →
        run body order (.count k) = .error (.limitReached .liveness k.toNat (.count k))) := by
  let final := (analysis body.graph).run order
    ((analysis body.graph).ample (2 * mentions body.graph))
  have hend : final.work = [] := work_run_ample body.graph order
  have hrun : (analysis body.graph).run order
      ((analysis body.graph).ample (2 * mentions body.graph)) = final := rfl
  have hstart : ((analysis body.graph).start order).iterations = 0 := rfl
  have hexact := (Backward.iterate_exact hrun hend).2
  simp only [hstart, Nat.zero_add] at hexact
  -- with no iterations the list is as at first, and so not empty
  have hpos : 0 < final.iterations := by
    by_contra hzero
    have hsame : (analysis body.graph).start order = final := (hexact 0).1 (by omega)
    have hnone : ((analysis body.graph).start order).work = [] := by rw [hsame, hend]
    exact initialWork_ne_nil body.graph order hnone
  have hunlimited : (analysis body.graph).runBelow order (.real (.infinite false))
      (2 * mentions body.graph) = .ok final := rfl
  refine ⟨_, (run_of_runBelow hunlimited).trans (if_pos (List.isEmpty_iff.2 hend)), fun k => ?_⟩
  have hbelow : (analysis body.graph).runBelow order (.count k) (2 * mentions body.graph) =
      .ok ((analysis body.graph).iterate order k.toNat ((analysis body.graph).start order)) := rfl
  rw [run_of_runBelow hbelow]
  constructor
  · intro (hle : (final.iterations : Int) ≤ k)
    rw [(hexact k.toNat).1 (by omega)]
    exact if_pos (List.isEmpty_iff.2 hend)
  · intro (hlt : k < (final.iterations : Int))
    obtain ⟨hleft, hcount⟩ := (hexact k.toNat).2 (by omega)
    rw [if_neg (by simpa [Backward.State.converged] using hleft), hcount]

end Liveness

/-! ### Questions to an analyzer -/

namespace Analyzer

/-- A question to an analyzer. -/
inductive Query where
  /-- Run the analysis. -/
  | run
  /-- What may still be read at a point? -/
  | useLive (point : Point)
  /-- What may still be dropped at a point? -/
  | dropLive (point : Point)
  /-- What is live at a point? -/
  | liveIn (point : Point)
  /-- Is a local live at a point? -/
  | isLive (name : String) (point : Point)
  /-- Which lifetimes are live at a point? -/
  | liveLifetimes (point : Point)

/-- What a question is answered with. -/
inductive Reply where
  /-- The run came to its end. -/
  | done
  /-- Some names. -/
  | names (names : NameSet)
  /-- Yes or no. -/
  | truth (value : Bool)

/-- The point that a question is about. -/
def Query.point? : Query → Option Point
  | .run => none
  | .useLive point => some point
  | .dropLive point => some point
  | .liveIn point => some point
  | .isLive _ point => some point
  | .liveLifetimes point => some point

/-- A result with its answer as a reply. -/
def reply (f : α → Reply) (result : Analyzer × Except Fault α) : Analyzer × Except Fault Reply :=
  (result.1, result.2.map f)

/-- Asks an analyzer. -/
def ask (analyzer : Analyzer) : Query → Analyzer × Except Fault Reply
  | .run => reply (fun _ => .done) analyzer.run
  | .useLive point => reply .names (analyzer.useLive point)
  | .dropLive point => reply .names (analyzer.dropLive point)
  | .liveIn point => reply .names (analyzer.liveIn point)
  | .isLive name point => reply .truth (analyzer.isLive name point)
  | .liveLifetimes point => reply .names (analyzer.liveLifetimes point)

/-- An analyzer after some questions. -/
def after (analyzer : Analyzer) (queries : List Query) : Analyzer :=
  queries.foldl (fun analyzer query => (analyzer.ask query).1) analyzer

/-- The answer to a question, given what running the analysis comes to. The point of a question on
lifetimes is looked up before there are facts, that of the others afterwards. -/
def Query.answer (g : Graph) (outcome : Except Fault Liveness) : Query → Except Fault Reply
  | .run => outcome.map fun _ => .done
  | .useLive point => outcome.bind fun found =>
    (g.index point).map fun i => .names (found.factAt i).1
  | .dropLive point => outcome.bind fun found =>
    (g.index point).map fun i => .names (found.factAt i).2
  | .liveIn point => outcome.bind fun found => (g.index point).map fun i => .names (found.liveAt i)
  | .isLive name point => outcome.bind fun found => (found.isLive name point).map .truth
  | .liveLifetimes point => (g.index point).bind fun i =>
    outcome.bind fun found => (found.lifetimesAt i).map .names

/-- An analyzer has no facts or those of a run, and remembers only lifetimes that follow from
them. -/
structure Faithful (body : Body) (order : Order) (bound : Bound) (analyzer : Analyzer) : Prop where
  body_eq : analyzer.body = body
  order_eq : analyzer.order = order
  bound_eq : analyzer.bound = bound
  /-- What there is comes from a run to the end. -/
  facts : analyzer.facts.isEmpty = true ∨ Liveness.run body order bound = .ok analyzer.liveness
  /-- What is remembered follows from it. -/
  remembered : ∀ i names, analyzer.lifetimes.lookup i = some names →
    ∃ found, Liveness.run body order bound = .ok found ∧ found.lifetimesAt i = .ok names

variable {body : Body} {order : Order} {bound : Bound} {analyzer : Analyzer}

/-- A session that has done nothing is faithful to its body. -/
theorem faithful_new (body : Body) (order : Order) (bound : Bound) :
    Faithful body order bound { body, order, bound } where
  body_eq := rfl
  order_eq := rfl
  bound_eq := rfl
  facts := .inl rfl
  remembered _ _ h := by cases h

namespace Faithful

/-- The step: a run replaces everything, or is stopped and changes nothing. -/
theorem run (h : Faithful body order bound analyzer) :
    (∃ next, analyzer.run = (next, .ok ()) ∧ Faithful body order bound next ∧
        Liveness.run body order bound = .ok next.liveness) ∨
      ∃ fault, analyzer.run = (analyzer, .error fault) ∧
        Liveness.run body order bound = .error fault := by
  obtain ⟨rfl, rfl, rfl⟩ := And.intro h.body_eq (And.intro h.order_eq h.bound_eq)
  unfold Analyzer.run
  cases hrun : Liveness.run analyzer.body analyzer.order analyzer.bound with
  | error fault => exact .inr ⟨fault, rfl, rfl⟩
  | ok found =>
    obtain ⟨_, hran⟩ := Liveness.exists_ran hrun
    have hfound : found = ⟨analyzer.body, found.facts, found.iterations⟩ := by rw [← hran.body_eq]
    refine .inl ⟨_, rfl, ⟨rfl, rfl, rfl, .inr (hrun.trans (congrArg _ hfound)), ?_⟩,
      congrArg _ hfound⟩
    intro i names hlookup
    cases hlookup

/-- The step: an analyzer is made ready, with the facts of a run, or the run is stopped. -/
theorem ready (h : Faithful body order bound analyzer) :
    (∃ next, analyzer.ready = (next, .ok ()) ∧ Faithful body order bound next ∧
        Liveness.run body order bound = .ok next.liveness) ∨
      ∃ fault, analyzer.ready = (analyzer, .error fault) ∧
        Liveness.run body order bound = .error fault := by
  unfold Analyzer.ready
  by_cases hempty : analyzer.facts.isEmpty = true
  · rw [if_pos hempty]
    exact h.run
  · rw [if_neg hempty]
    exact .inl ⟨analyzer, rfl, h, h.facts.resolve_left hempty⟩

/-- The step: what is live at a point is read off the facts of a run. -/
theorem fact (h : Faithful body order bound analyzer) (point : Point) :
    Faithful body order bound (analyzer.fact point).1 ∧
      (analyzer.fact point).2 = (Liveness.run body order bound).bind fun found =>
        (body.graph.index point).map found.factAt := by
  unfold Analyzer.fact
  rcases h.ready with ⟨next, hready, hnext, hrun⟩ | ⟨fault, hready, hrun⟩
  · rw [hready, hrun]
    refine ⟨hnext, ?_⟩
    rw [← hnext.body_eq]
    rfl
  · rw [hready, hrun]
    exact ⟨h, rfl⟩

/-- The step: lifetimes that follow from the facts of a run may be remembered. -/
theorem remember (h : Faithful body order bound analyzer) {found : Liveness} {i : Nat}
    {names : NameSet} (hrun : Liveness.run body order bound = .ok found)
    (hnames : found.lifetimesAt i = .ok names) :
    Faithful body order bound { analyzer with lifetimes := (i, names) :: analyzer.lifetimes } := by
  refine ⟨h.body_eq, h.order_eq, h.bound_eq, h.facts, fun j others hlookup => ?_⟩
  rw [List.lookup_cons] at hlookup
  split at hlookup
  · next hsame =>
    cases hlookup
    obtain rfl : j = i := by simpa using hsame
    exact ⟨found, hrun, hnames⟩
  · exact h.remembered j others hlookup

/-- The step: the lifetimes that are live at a point are remembered, or follow from the facts of a
run. -/
theorem liveLifetimes (h : Faithful body order bound analyzer) (point : Point) :
    Faithful body order bound (analyzer.liveLifetimes point).1 ∧
      (analyzer.liveLifetimes point).2 = (body.graph.index point).bind fun i =>
        (Liveness.run body order bound).bind fun found => found.lifetimesAt i := by
  unfold Analyzer.liveLifetimes
  rw [h.body_eq]
  cases body.graph.index point with
  | error fault => exact ⟨h, rfl⟩
  | ok i =>
    dsimp only
    cases hlookup : analyzer.lifetimes.lookup i with
    | some names =>
      obtain ⟨found, hrun, hnames⟩ := h.remembered i names hlookup
      refine ⟨h, ?_⟩
      rw [hrun]
      exact hnames.symm
    | none =>
      rcases h.ready with ⟨next, hready, hnext, hrun⟩ | ⟨fault, hready, hrun⟩
      · rw [hready, hrun]
        dsimp only
        cases hnames : next.liveness.lifetimesAt i with
        | error fault => exact ⟨hnext, hnames.symm⟩
        | ok names => exact ⟨hnext.remember hrun hnames, hnames.symm⟩
      · rw [hready, hrun]
        exact ⟨h, rfl⟩

/-- A question that reads the facts of a point. -/
theorem reply_fact (h : Faithful body order bound analyzer) (point : Point) (f : LiveFact → Reply) :
    (analyzer.fact point).2.map f = (Liveness.run body order bound).bind fun found =>
      (body.graph.index point).map fun i => f (found.factAt i) := by
  rw [(h.fact point).2]
  cases Liveness.run body order bound with
  | error fault => rfl
  | ok found => exact except_map_map _ _ _

/-- **One question.** A faithful analyzer answers as one run would, and stays faithful. -/
theorem ask (h : Faithful body order bound analyzer) (query : Query) :
    Faithful body order bound (analyzer.ask query).1 ∧
      (analyzer.ask query).2 = query.answer body.graph (Liveness.run body order bound) := by
  cases query with
  | run =>
    unfold Analyzer.ask
    rcases h.run with ⟨next, hask, hnext, hrun⟩ | ⟨fault, hask, hrun⟩
    · rw [hask, hrun]
      exact ⟨hnext, rfl⟩
    · rw [hask, hrun]
      exact ⟨h, rfl⟩
  | useLive point =>
    refine ⟨(h.fact point).1, Eq.trans ?_ (h.reply_fact point fun fact => .names fact.1)⟩
    exact except_map_map _ _ _
  | dropLive point =>
    refine ⟨(h.fact point).1, Eq.trans ?_ (h.reply_fact point fun fact => .names fact.2)⟩
    exact except_map_map _ _ _
  | liveIn point =>
    refine ⟨(h.fact point).1,
      Eq.trans ?_ (h.reply_fact point fun fact => .names (fact.1.union fact.2))⟩
    exact except_map_map _ _ _
  | isLive name point =>
    refine ⟨(h.fact point).1, ?_⟩
    change (((analyzer.fact point).2.map _).map _).map _ = _
    rw [except_map_map, except_map_map, h.reply_fact]
    cases hrun : Liveness.run body order bound with
    | error fault => rfl
    | ok found =>
      obtain ⟨_, -, -, rfl⟩ := Liveness.exists_ran hrun
      exact (except_map_map _ _ _).symm
  | liveLifetimes point =>
    obtain ⟨hnext, hnames⟩ := h.liveLifetimes point
    refine ⟨hnext, ?_⟩
    change (analyzer.liveLifetimes point).2.map Reply.names = _
    rw [hnames, Query.answer]
    cases body.graph.index point with
    | error fault => rfl
    | ok i => cases Liveness.run body order bound <;> rfl

end Faithful

/-- **Any questions.** Whatever an analyzer was asked before, it answers as one run would. -/
theorem ask_after (body : Body) (order : Order) (bound : Bound) (queries : List Query)
    (query : Query) : ((after { body, order, bound } queries).ask query).2 =
      query.answer body.graph (Liveness.run body order bound) := by
  have hfaithful : Faithful body order bound (after { body, order, bound } queries) :=
    List.foldlRecOn queries _ (faithful_new body order bound) fun _ h query _ => (h.ask query).1
  exact (hfaithful.ask query).2

/-- If a run is stopped, every question about points of the graph is answered with its fault. -/
theorem answer_of_error {g : Graph} {fault : Fault} {query : Query}
    (hpoint : ∀ point ∈ query.point?, g.contains point = true) :
    query.answer g (.error fault) = .error fault := by
  cases query with
  | liveLifetimes point =>
    obtain ⟨i, hi⟩ := Option.isSome_iff_exists.1 (hpoint point rfl)
    rw [Query.answer, Graph.index_eq_ok.2 hi]
    rfl
  | _ => rfl

end Analyzer

/-! ### The limit -/

/-- **The limit of liveness is exact and a stopped run shows nothing.** An unlimited run returns.
Under a limit that is not below its iterations liveness returns the same, and so an analyzer answers
every question from it, whatever it was asked before. Under a lower limit liveness is a fault with
that limit and as many iterations as it allows; an analyzer answers every question about a point of
the graph with that fault, whatever it was asked before; and an analysis ends with it, whatever
constraints would have come next. -/
theorem Liveness.iteration_limit_exact (body : Body) (order : Order) :
    ∃ full, run body order (.real (.infinite false)) = .ok full ∧ ∀ k : Int,
      (full.iterations ≤ k → run body order (.count k) = .ok full ∧
        ∀ queries query, ((Analyzer.after { body, order, bound := .count k } queries).ask query).2 =
          Analyzer.Query.answer body.graph (.ok full) query) ∧
      (k < full.iterations → ∃ fault, fault = .limitReached .liveness k.toNat (.count k) ∧
        run body order (.count k) = .error fault ∧
        (∀ queries query,
          (∀ point ∈ Analyzer.Query.point? query, body.graph.contains point = true) →
          ((Analyzer.after { body, order, bound := .count k } queries).ask query).2 =
            .error fault) ∧
        ∀ settings : Settings, settings.order = order → settings.maxIterations = .count k →
          body.analyze settings = .error fault) := by
  obtain ⟨full, hfull, hlimits⟩ := exists_run_exact body order
  refine ⟨full, hfull, fun k => ⟨fun hle => ?_, fun hlt => ⟨_, rfl, ?_⟩⟩⟩
  · have hrun := (hlimits k).1 hle
    refine ⟨hrun, fun queries query => ?_⟩
    rw [Analyzer.ask_after, hrun]
  · have hrun := (hlimits k).2 hlt
    refine ⟨hrun, fun queries query hpoint => ?_, fun settings horder hbound => ?_⟩
    · rw [Analyzer.ask_after, hrun, Analyzer.answer_of_error hpoint]
    · exact Body.analyze_of_run_error (by rw [horder, hbound, hrun])

/-- The loops of the sample take seven iterations. With six, an analyzer that was run and asked
before still has nothing to say about the end of the second loop; and a body whose types do not fit
is not found out if liveness may make no iteration. -/
theorem Liveness.loops_stopped_one_short :
    ∃ full, run Sample.body .fifo (.real (.infinite false)) = .ok full ∧ full.iterations = 7 ∧
      run Sample.body .fifo (.count 7) = .ok full ∧
      run Sample.body .fifo (.count 6) = .error (.limitReached .liveness 6 (.count 6)) ∧
      ((Analyzer.after { body := Sample.body, order := .fifo, bound := .count 6 }
        [.run, .isLive "p" ⟨"B", 0⟩, .liveLifetimes ⟨"Z", 0⟩]).ask (.liveLifetimes ⟨"D", 1⟩)).2 =
          .error (.limitReached .liveness 6 (.count 6)) ∧
      Sample.clashing.analyze { maxIterations := .count (-2) } =
        .error (.limitReached .liveness 0 (.count (-2))) := by
  obtain ⟨full, hfull, hlimits⟩ := iteration_limit_exact Sample.body .fifo
  have hseven : full.iterations = 7 := by
    have hcount : (run Sample.body .fifo (.real (.infinite false))).toOption.map iterations =
        some 7 := by decide
    rw [hfull] at hcount
    exact Option.some.inj hcount
  obtain ⟨_, rfl, hsix, hask, -⟩ := (hlimits 6).2 (by rw [hseven]; decide)
  obtain ⟨other, -, hother⟩ := iteration_limit_exact Sample.clashing .postorder
  obtain ⟨_, rfl, -, -, hanalyze⟩ := (hother (-2)).2 (by omega)
  exact ⟨full, hfull, hseven, ((hlimits 7).1 (by rw [hseven]; decide)).1, hsix,
    hask _ _ (by decide), hanalyze _ rfl rfl⟩

end RegionInference
