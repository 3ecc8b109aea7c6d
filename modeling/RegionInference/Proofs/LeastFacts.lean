import Mathlib.Data.DFinsupp.WellFounded
import Mathlib.Order.OrderIsoNat
import RegionInference.Proofs.PathLiveness

/-!
# The backward engine computes the least solution

The equations of an analysis ask that the fact at the end of each block is the join of the facts at
the starts of the blocks that may follow (and of the initial fact where there are none), and that
the fact at its start is what the transfer function of the block makes of it. They are stated here
with least upper bounds (`Lattice.IsJoin`, `Graph.Solution`), not with the engine's own fold.

The facts of an analysis are those of a *carrier*, a set of facts that the operations do not leave
and on which they form a join-semilattice (`Lattice.Lawful`): all facts, or the sets over the
finitely many names of a program. If the transfer functions are monotone and every ascending chain
of the carrier stops, then the engine

* only ever replaces the fact at the start of a block by a larger one (`Backward.Rising`), so it
  converges when it may make enough iterations (`Backward.exists_converged`);
* stays below every solution (`Backward.Closed.starts_leq`), so that a run that converged, which
  solves the equations, has the least solution, whatever the order of the blocks was.
-/

namespace RegionInference

/-! ### Semilattices of facts -/

namespace Lattice

variable {α : Type} {lattice : Lattice α} {carrier : Set α}

/-- The operations make the facts of a carrier a join-semilattice with a least fact, and two facts
are taken for equal iff each says no more than the other. -/
structure Lawful (lattice : Lattice α) (carrier : Set α) : Prop where
  /-- The least fact is one of the carrier. -/
  bottom_mem : lattice.bottom ∈ carrier
  /-- Joins of facts of the carrier are facts of the carrier. -/
  join_mem : ∀ a ∈ carrier, ∀ b ∈ carrier, lattice.join a b ∈ carrier
  /-- A fact says no more than itself. -/
  leq_refl : ∀ a ∈ carrier, lattice.leq a a = true
  /-- The order of facts is transitive. -/
  leq_trans : ∀ a ∈ carrier, ∀ b ∈ carrier, ∀ c ∈ carrier,
    lattice.leq a b = true → lattice.leq b c = true → lattice.leq a c = true
  /-- The least fact says no more than any other. -/
  bottom_leq : ∀ a ∈ carrier, lattice.leq lattice.bottom a = true
  /-- A join says all that its first fact says. -/
  leq_join_left : ∀ a ∈ carrier, ∀ b ∈ carrier, lattice.leq a (lattice.join a b) = true
  /-- A join says all that its second fact says. -/
  leq_join_right : ∀ a ∈ carrier, ∀ b ∈ carrier, lattice.leq b (lattice.join a b) = true
  /-- A join says no more than a fact above both of its facts. -/
  join_leq : ∀ a ∈ carrier, ∀ b ∈ carrier, ∀ c ∈ carrier,
    lattice.leq a c = true → lattice.leq b c = true → lattice.leq (lattice.join a b) c = true
  /-- Equality of facts is being below in both directions. -/
  eq_iff : ∀ a ∈ carrier, ∀ b ∈ carrier,
    lattice.eq a b = true ↔ lattice.leq a b = true ∧ lattice.leq b a = true

/-- The ascending chain condition: every ascending chain of facts of the carrier stops growing. -/
def ChainsStop (lattice : Lattice α) (carrier : Set α) : Prop :=
  ∀ chain : ℕ → α, (∀ n, chain n ∈ carrier) →
    (∀ n, lattice.leq (chain n) (chain (n + 1)) = true) →
      ∃ n, ∀ m ≥ n, lattice.leq (chain m) (chain n) = true

/-- A fact is the join of some facts: the least fact of the carrier above all of them. -/
def IsJoin (lattice : Lattice α) (carrier facts : Set α) (join : α) : Prop :=
  (∀ a ∈ facts, lattice.leq a join = true) ∧
    ∀ b ∈ carrier, (∀ a ∈ facts, lattice.leq a b = true) → lattice.leq join b = true

/-- The first tuple of facts is strictly above the second one. -/
def Above (lattice : Lattice α) (carrier : Set α) (count : Nat)
    (first second : Fin count → carrier) : Prop :=
  (∀ i, lattice.leq (second i) (first i) = true) ∧ ∃ i, ¬ lattice.leq (first i) (second i) = true

namespace Lawful

/-- The order of the facts of a carrier. -/
abbrev preorder (h : lattice.Lawful carrier) : Preorder carrier where
  le a b := lattice.leq a b = true
  le_refl a := h.leq_refl a a.2
  le_trans a b c := h.leq_trans a a.2 b b.2 c c.2

/-- Where ascending chains stop, tuples of facts do not rise forever. -/
theorem wellFounded_above (h : lattice.Lawful carrier) (hchains : lattice.ChainsStop carrier)
    (count : Nat) : WellFounded (lattice.Above carrier count) := by
  let := h.preorder
  have hfacts : WellFoundedGT carrier := by
    rw [wellFoundedGT_iff_monotone_chain_condition']
    intro chain
    obtain ⟨n, hn⟩ := hchains (fun n => chain n) (fun n => (chain n).2)
      (fun n => chain.monotone (Nat.le_succ n))
    exact ⟨n, fun m hm hlt => (lt_iff_le_not_ge.1 hlt).2 (hn m hm)⟩
  -- a finite product of orders without descending chains has none, here for the dual order
  have htuples := InvImage.wf (fun (facts : Fin count → carrier) i => OrderDual.toDual (facts i))
    wellFounded_lt
  refine Subrelation.wf (fun {first second} habove => ?_) htuples
  obtain ⟨hleq, i, hnot⟩ := habove
  refine Pi.lt_def.2 ⟨fun j => OrderDual.toDual_le_toDual.2 (hleq j), i, ?_⟩
  exact OrderDual.toDual_lt_toDual.2 (lt_iff_le_not_ge.2 ⟨hleq i, hnot⟩)

/-- The fold of the engine stays in the carrier and is the join of its facts. -/
theorem joinAll_spec (h : lattice.Lawful carrier) {facts : List α}
    (hfacts : ∀ a ∈ facts, a ∈ carrier) :
    lattice.joinAll facts ∈ carrier ∧
      lattice.IsJoin carrier {a | a ∈ facts} (lattice.joinAll facts) := by
  -- the fold from any start is the join of the start and the facts
  have hfold : ∀ (facts : List α) (start : α), (∀ a ∈ facts, a ∈ carrier) → start ∈ carrier →
      facts.foldl lattice.join start ∈ carrier ∧
        lattice.IsJoin carrier {a | a = start ∨ a ∈ facts} (facts.foldl lattice.join start) := by
    intro facts
    induction facts with
    | nil =>
      intro start _ hstart
      refine ⟨hstart, ?_, fun b _ hle => hle start (.inl rfl)⟩
      rintro a (rfl | ha)
      · exact h.leq_refl a hstart
      · exact absurd ha List.not_mem_nil
    | cons fact facts ih =>
      intro start hall hstart
      have hfact : fact ∈ carrier := hall fact List.mem_cons_self
      have hjoin := h.join_mem start hstart fact hfact
      obtain ⟨hmem, habove, hleast⟩ :=
        ih (lattice.join start fact) (fun a ha => hall a (List.mem_cons_of_mem _ ha)) hjoin
      have hstep := habove _ (.inl rfl)
      refine ⟨hmem, ?_, fun b hb hle => hleast b hb ?_⟩
      · rintro a (rfl | ha)
        · exact h.leq_trans a hstart _ hjoin _ hmem (h.leq_join_left a hstart fact hfact) hstep
        · rcases List.mem_cons.1 ha with rfl | hrest
          · exact h.leq_trans a hfact _ hjoin _ hmem (h.leq_join_right start hstart a hfact) hstep
          · exact habove a (.inr hrest)
      · rintro a (rfl | ha)
        · exact h.join_leq start hstart fact hfact b hb (hle start (.inl rfl))
            (hle fact (.inr List.mem_cons_self))
        · exact hle a (.inr (List.mem_cons_of_mem _ ha))
  obtain ⟨hmem, habove, hleast⟩ := hfold facts lattice.bottom hfacts h.bottom_mem
  refine ⟨hmem, fun a ha => habove a (.inr ha), fun b hb hle => hleast b hb ?_⟩
  rintro a (rfl | ha)
  · exact h.bottom_leq b hb
  · exact hle a ha

end Lawful

end Lattice

namespace Order

variable {order : Order} {work : List Nat}

/-- A node can be taken from any list with work. -/
theorem exists_take? (order : Order) (h : work ≠ []) :
    ∃ node rest, order.take? work = some (node, rest) := by
  cases work with
  | nil => exact absurd rfl h
  | cons first work => cases order <;> exact ⟨_, _, rfl⟩

/-- Taking a node leaves one node fewer. -/
theorem length_of_take? {rest : List Nat} {node : Nat}
    (h : order.take? work = some (node, rest)) : rest.length + 1 = work.length := by
  cases work with
  | nil => cases order <;> simp [take?] at h
  | cons first work =>
    cases order with
    | lifo =>
      simp only [take?, Option.some.injEq, Prod.mk.injEq] at h
      rw [← h.2]
      simp
    | _ =>
      simp only [take?, Option.some.injEq, Prod.mk.injEq] at h
      rw [← h.2]
      rfl

end Order

namespace Backward

variable {α : Type} {analysis : Backward α} {carrier : Set α} {order : Order}

/-! ### Rising facts -/

/-- The facts that are joined to the fact at the end of a node. -/
def incoming (analysis : Backward α) (starts : List α) (node : Nat) : List α :=
  if (analysis.next node).isEmpty then [analysis.initial]
  else (analysis.next node).map (starts.getD · analysis.lattice.bottom)

/-- The fact at the end of a node is the join of what comes in. -/
theorem endFact_eq_joinAll (starts : List α) (node : Nat) :
    analysis.endFact starts node = analysis.lattice.joinAll (analysis.incoming starts node) := by
  unfold endFact incoming
  dsimp only
  split
  · next hnone =>
    rw [List.isEmpty_iff.1 hnone]
    rfl
  · rfl

/-- The facts of an analysis stay in a carrier that is a semilattice, and its transfer functions are
monotone there. -/
structure Regular (analysis : Backward α) (carrier : Set α) : Prop where
  /-- The carrier is a semilattice. -/
  lawful : analysis.lattice.Lawful carrier
  /-- The initial fact is one of the carrier. -/
  initial_mem : analysis.initial ∈ carrier
  /-- The transfer functions stay in the carrier. -/
  transfer_mem : ∀ n, ∀ a ∈ carrier, analysis.transfer n a ∈ carrier
  /-- The transfer functions are monotone. -/
  transfer_mono : ∀ n, ∀ a ∈ carrier, ∀ b ∈ carrier, analysis.lattice.leq a b = true →
    analysis.lattice.leq (analysis.transfer n a) (analysis.transfer n b) = true
  /-- Only nodes of the analysis come before a node. -/
  previous_lt : ∀ {m n : Nat}, m ∈ analysis.previous n → m < analysis.count

/-- All facts are ones of the carrier. -/
def Within (analysis : Backward α) (carrier : Set α) (starts : List α) : Prop :=
  ∀ n, starts.getD n analysis.lattice.bottom ∈ carrier

/-- No fact of the first list says more than that of the second. -/
def Below (analysis : Backward α) (starts starts' : List α) : Prop :=
  ∀ n, analysis.lattice.leq (starts.getD n analysis.lattice.bottom)
    (starts'.getD n analysis.lattice.bottom) = true

namespace Regular

/-- What comes in is in the carrier. -/
theorem incoming_mem (h : analysis.Regular carrier) {starts : List α}
    (hwithin : analysis.Within carrier starts) (node : Nat) :
    ∀ a ∈ analysis.incoming starts node, a ∈ carrier := by
  intro a ha
  unfold incoming at ha
  split at ha
  · rw [List.mem_singleton.1 ha]
    exact h.initial_mem
  · obtain ⟨n, -, rfl⟩ := List.mem_map.1 ha
    exact hwithin n

/-- So the fact at the end of a node is in the carrier. -/
theorem endFact_mem (h : analysis.Regular carrier) {starts : List α}
    (hwithin : analysis.Within carrier starts) (node : Nat) :
    analysis.endFact starts node ∈ carrier := by
  rw [endFact_eq_joinAll]
  exact (h.lawful.joinAll_spec (h.incoming_mem hwithin node)).1

/-- The fact at the end of a node is the join of the facts that come in. -/
theorem isJoin_endFact (h : analysis.Regular carrier) {starts : List α}
    (hwithin : analysis.Within carrier starts) (node : Nat) :
    analysis.lattice.IsJoin carrier {a | a ∈ analysis.incoming starts node}
      (analysis.endFact starts node) := by
  rw [endFact_eq_joinAll]
  exact (h.lawful.joinAll_spec (h.incoming_mem hwithin node)).2

/-- The fact computed for the start of a node is one of the carrier. -/
theorem computed_mem (h : analysis.Regular carrier) {starts : List α}
    (hwithin : analysis.Within carrier starts) (node : Nat) :
    analysis.transfer node (analysis.endFact starts node) ∈ carrier :=
  h.transfer_mem node _ (h.endFact_mem hwithin node)

/-- Larger facts give larger facts. -/
theorem computed_mono (h : analysis.Regular carrier) {starts starts' : List α}
    (hwithin : analysis.Within carrier starts) (hwithin' : analysis.Within carrier starts')
    (hbelow : analysis.Below starts starts') (node : Nat) :
    analysis.lattice.leq (analysis.transfer node (analysis.endFact starts node))
      (analysis.transfer node (analysis.endFact starts' node)) = true := by
  have hmem := h.endFact_mem hwithin node
  have hmem' := h.endFact_mem hwithin' node
  refine h.transfer_mono node _ hmem _ hmem' ((h.isJoin_endFact hwithin node).2 _ hmem' ?_)
  intro a ha
  have habove := (h.isJoin_endFact hwithin' node).1
  rw [Set.mem_ofPred_eq] at ha
  unfold incoming at ha habove
  split at ha
  · next hnone =>
    rw [if_pos hnone] at habove
    exact habove a ha
  · next hsome =>
    rw [if_neg hsome] at habove
    obtain ⟨n, hn, rfl⟩ := List.mem_map.1 ha
    exact h.lawful.leq_trans _ (hwithin n) _ (hwithin' n) _ hmem' (hbelow n)
      (habove _ (List.mem_map_of_mem (f := (starts'.getD · analysis.lattice.bottom)) hn))

end Regular

/-- The facts are rising: they are ones of the carrier, one for each node, and each says no more
than what would be computed for its node now. -/
structure Rising (analysis : Backward α) (carrier : Set α) (starts : List α) : Prop where
  /-- There is a fact at the start of each node. -/
  length_eq : starts.length = analysis.count
  /-- The facts are ones of the carrier. -/
  within : analysis.Within carrier starts
  /-- The fact of a node is below the one that processing it gives. -/
  leq_computed : ∀ n < analysis.count,
    analysis.lattice.leq (starts.getD n analysis.lattice.bottom)
      (analysis.transfer n (analysis.endFact starts n)) = true

/-- At the start every fact is the bottom. -/
theorem getD_start (n : Nat) :
    (analysis.start order).starts.getD n analysis.lattice.bottom = analysis.lattice.bottom := by
  unfold start
  rw [List.getD_eq_getElem?_getD, List.getElem?_map]
  cases analysis.successors[n]? <;> rfl

/-- Least facts are below all that is computed. -/
theorem rising_start (h : analysis.Regular carrier) :
    analysis.Rising carrier (analysis.start order).starts := by
  have hwithin : analysis.Within carrier (analysis.start order).starts := by
    intro n
    rw [getD_start]
    exact h.lawful.bottom_mem
  refine ⟨by simp [start, count], hwithin, fun n _ => ?_⟩
  rw [getD_start]
  exact h.lawful.bottom_leq _ (h.computed_mem hwithin n)

namespace Rising

variable {starts : List α} {node : Nat}

/-- Writing what is computed for a node raises the facts. -/
theorem below_set (h : analysis.Regular carrier) (hrising : analysis.Rising carrier starts) :
    analysis.Below starts
      (starts.set node (analysis.transfer node (analysis.endFact starts node))) := by
  intro n
  rw [getD_set]
  split
  · next hn =>
    rw [hn.1]
    exact hrising.leq_computed node (hrising.length_eq ▸ hn.2)
  · exact h.lawful.leq_refl _ (hrising.within n)

/-- Writing what is computed for a node keeps the facts rising: they only get larger, so what would
be computed next gets larger too. -/
theorem set (h : analysis.Regular carrier) (hrising : analysis.Rising carrier starts) :
    analysis.Rising carrier
      (starts.set node (analysis.transfer node (analysis.endFact starts node))) := by
  have hwithin : analysis.Within carrier
      (starts.set node (analysis.transfer node (analysis.endFact starts node))) := by
    intro n
    rw [getD_set]
    split
    · exact h.computed_mem hrising.within node
    · exact hrising.within n
  have hmono := h.computed_mono hrising.within hwithin (hrising.below_set h)
  refine ⟨by simpa using hrising.length_eq, hwithin, fun n hn => ?_⟩
  rw [getD_set]
  split
  · next hnode =>
    rw [hnode.1]
    exact hmono node
  · exact h.lawful.leq_trans _ (hrising.within n) _ (h.computed_mem hrising.within n) _
      (h.computed_mem hwithin n) (hrising.leq_computed n hn) (hmono n)

/-- Facts that rise as elements of the product of the carrier, one factor for each node. -/
def facts (hrising : analysis.Rising carrier starts) : Fin analysis.count → carrier :=
  fun n => ⟨starts.getD n analysis.lattice.bottom, hrising.within n⟩

end Rising

/-! ### Convergence -/

/-- The nodes that have not been processed. -/
def unvisited (analysis : Backward α) (visited : PointSet) : Finset Nat :=
  (Finset.range analysis.count).filter (· ∉ visited)

/-- Visiting a node for the first time leaves fewer unvisited ones. -/
theorem card_unvisited_insert {visited : PointSet} {node : Nat} (hnode : node < analysis.count)
    (hnew : node ∉ visited) :
    (analysis.unvisited (visited.insert node)).card < (analysis.unvisited visited).card := by
  refine Finset.card_lt_card ((Finset.ssubset_iff_of_subset ?_).2 ⟨node, ?_, ?_⟩)
  · intro n hn
    simp only [unvisited, Finset.mem_filter, PointSet.mem_insert, not_or] at hn ⊢
    exact ⟨hn.1, hn.2.1⟩
  · simpa [unvisited] using ⟨hnode, hnew⟩
  · simp [unvisited]

/-- Processing a node again leaves the nodes that have not been processed. -/
theorem unvisited_insert_of_mem {visited : PointSet} {node : Nat} (hold : node ∈ visited) :
    analysis.unvisited (visited.insert node) = analysis.unvisited visited := by
  refine Finset.filter_congr fun n _ => ?_
  rw [PointSet.mem_insert]
  constructor
  · exact fun hn hmem => hn (.inl hmem)
  · rintro hn (hmem | rfl)
    · exact hn hmem
    · exact hn hold

/-- A run whose list is empty stays where it is. -/
theorem iterate_of_nil {state : State α} (h : state.work = []) (budget : Nat) :
    analysis.iterate order budget state = state := by
  cases budget with
  | zero => rfl
  | succ budget =>
    unfold iterate
    rw [h]
    cases order <;> rfl

/-- With budget left, one iteration processes the node that is taken. -/
theorem iterate_of_take? {state : State α} {node : Nat} {work : List Nat}
    (h : order.take? state.work = some (node, work)) (budget : Nat) :
    analysis.iterate order (budget + 1) state =
      analysis.iterate order budget (analysis.process state node work) := by
  rw [iterate, h]

/-- Processing a node puts at most its predecessors on the list. -/
theorem mem_work_process {state : State α} {node n : Nat} {work : List Nat}
    (h : n ∈ (analysis.process state node work).work) : n ∈ work ∨ n ∈ analysis.previous node := by
  unfold process at h
  dsimp only at h
  split at h
  · exact .inl h
  · exact mem_enqueue.1 h

/-- **One step.** Processing a node keeps the facts rising. It visits the node for the first time,
or replaces its fact by a strictly larger one, or only takes it off the list. -/
theorem Rising.process (h : analysis.Regular carrier) {state : State α} {node : Nat}
    (hnode : node < analysis.count) (hrising : analysis.Rising carrier state.starts)
    (work : List Nat) :
    ∃ hrising' : analysis.Rising carrier (analysis.process state node work).starts,
      (analysis.unvisited (analysis.process state node work).visited).card <
          (analysis.unvisited state.visited).card ∨
        analysis.unvisited (analysis.process state node work).visited =
          analysis.unvisited state.visited ∧
        (analysis.lattice.Above carrier analysis.count hrising'.facts hrising.facts ∨
          (analysis.process state node work).starts = state.starts ∧
            (analysis.process state node work).work = work) := by
  by_cases hsame : node ∈ state.visited ∧ analysis.lattice.eq
      (analysis.transfer node (analysis.endFact state.starts node))
      (state.starts.getD node analysis.lattice.bottom) = true
  · have hprocess : analysis.process state node work = { state with
        ends := state.ends.set node (analysis.endFact state.starts node), work,
        iterations := state.iterations + 1 } := if_pos hsame
    rw [hprocess]
    exact ⟨hrising, .inr ⟨rfl, .inr ⟨rfl, rfl⟩⟩⟩
  · have hprocess : analysis.process state node work = { state with
        ends := state.ends.set node (analysis.endFact state.starts node),
        iterations := state.iterations + 1,
        visited := state.visited.insert node,
        starts := state.starts.set node
          (analysis.transfer node (analysis.endFact state.starts node)),
        work := enqueue work (analysis.previous node) } := if_neg hsame
    rw [hprocess]
    refine ⟨hrising.set h, ?_⟩
    by_cases hvisited : node ∈ state.visited
    · refine .inr ⟨unvisited_insert_of_mem hvisited, .inl ⟨fun n => hrising.below_set h n,
        ⟨node, hnode⟩, fun hleq => hsame ⟨hvisited, ?_⟩⟩⟩
      -- a fact that is not larger would have been taken for equal
      have hlt : node < state.starts.length := hrising.length_eq ▸ hnode
      simp only [facts, getD_set, hlt, and_self, if_true] at hleq
      exact (h.lawful.eq_iff _ (h.computed_mem hrising.within node) _ (hrising.within node)).2
        ⟨hleq, hrising.leq_computed node hnode⟩
    · exact .inl (card_unvisited_insert hnode hvisited)

/-- **Convergence.** Processing a node visits it for the first time, or replaces its fact by a
strictly larger one, or makes the list shorter; none of this goes on forever. -/
theorem exists_converged (h : analysis.Regular carrier)
    (hchains : analysis.lattice.ChainsStop carrier) (order : Order) (state : State α)
    (hwork : ∀ n ∈ state.work, n < analysis.count)
    (hrising : analysis.Rising carrier state.starts) :
    ∃ enough, ∀ budget ≥ enough, (analysis.iterate order budget state).work = [] := by
  -- induction on the unvisited nodes, then on the facts from above, then on the list
  induction hunvisited : (analysis.unvisited state.visited).card using Nat.strong_induction_on
    generalizing state with
  | _ unvisited ihvisit =>
  induction hfacts : hrising.facts using
    (h.lawful.wellFounded_above hchains analysis.count).induction generalizing state with
  | _ facts ihfacts =>
  induction hlength : state.work.length generalizing state with
  | zero =>
    have hnil : state.work = [] := List.length_eq_zero_iff.1 hlength
    exact ⟨0, fun budget _ => by rw [iterate_of_nil hnil, hnil]⟩
  | succ length ihlength =>
    obtain ⟨node, work, htake⟩ := order.exists_take?
      (List.ne_nil_of_length_eq_add_one hlength)
    have hnode : node < analysis.count := hwork node ((Order.mem_of_take? htake).2 (.inl rfl))
    have hwork' : ∀ n ∈ (analysis.process state node work).work, n < analysis.count := by
      intro n hn
      rcases mem_work_process hn with hrest | hprevious
      · exact hwork n ((Order.mem_of_take? htake).2 (.inr hrest))
      · exact h.previous_lt hprevious
    obtain ⟨hrising', hstep⟩ := hrising.process h hnode work
    have hrest : ∃ enough, ∀ budget ≥ enough,
        (analysis.iterate order budget (analysis.process state node work)).work = [] := by
      rcases hstep with hvisit | ⟨hvisit, habove | ⟨hstarts, hshorter⟩⟩
      · exact ihvisit _ (hunvisited ▸ hvisit) _ hwork' hrising' rfl
      · exact ihfacts _ (hfacts ▸ habove) _ hwork' hrising' (by rw [hvisit, hunvisited]) rfl
      · refine ihlength _ hwork' hrising' (by rw [hvisit, hunvisited]) ?_ ?_
        · rw [← hfacts]
          funext n
          exact Subtype.ext (by simp only [Rising.facts, hstarts])
        · rw [hshorter]
          have := Order.length_of_take? htake
          omega
    obtain ⟨enough, henough⟩ := hrest
    refine ⟨enough + 1, fun budget hbudget => ?_⟩
    obtain ⟨budget, rfl⟩ : ∃ rest, budget = rest + 1 := ⟨budget - 1, by omega⟩
    rw [iterate_of_take? htake]
    exact henough budget (by omega)

/-! ### Leastness -/

/-- The facts of every run are ones of the carrier. -/
theorem Regular.within_run (h : analysis.Regular carrier) (order : Order) (limit : Nat) :
    analysis.Within carrier (analysis.run order limit).starts :=
  analysis.starts_run (P := fun _ fact => fact ∈ carrier) (fun _ => h.lawful.bottom_mem)
    (fun _ hwithin node => h.computed_mem hwithin node) limit

/-- Facts that no equation goes beyond: each is at least what its equation asks for. -/
structure Closed (analysis : Backward α) (carrier : Set α) (ends starts : Nat → α) : Prop where
  /-- The facts at the ends are ones of the carrier. -/
  ends_mem : ∀ k < analysis.count, ends k ∈ carrier
  /-- The facts at the starts are ones of the carrier. -/
  starts_mem : ∀ k < analysis.count, starts k ∈ carrier
  /-- The nodes that may follow are nodes of the analysis, and their facts come in. -/
  next_leq : ∀ k < analysis.count, ∀ k' ∈ analysis.next k,
    k' < analysis.count ∧ analysis.lattice.leq (starts k') (ends k) = true
  /-- The initial fact comes in where nothing follows. -/
  initial_leq : ∀ k < analysis.count, analysis.next k = [] →
    analysis.lattice.leq analysis.initial (ends k) = true
  /-- What the transfer function makes of the fact at the end comes to the start. -/
  transfer_leq : ∀ k < analysis.count,
    analysis.lattice.leq (analysis.transfer k (ends k)) (starts k) = true

namespace Closed

variable {ends starts : Nat → α}

/-- Facts below closed ones at the starts give facts below closed ones at the ends. -/
theorem endFact_leq (h : analysis.Regular carrier) (hclosed : analysis.Closed carrier ends starts)
    {facts : List α} (hwithin : analysis.Within carrier facts)
    (hbelow : ∀ n < analysis.count, analysis.lattice.leq (facts.getD n analysis.lattice.bottom)
      (starts n) = true) {n : Nat} (hn : n < analysis.count) :
    analysis.lattice.leq (analysis.endFact facts n) (ends n) = true := by
  refine (h.isJoin_endFact hwithin n).2 _ (hclosed.ends_mem n hn) fun a ha => ?_
  rw [Set.mem_ofPred_eq] at ha
  unfold incoming at ha
  split at ha
  · next hnone =>
    rw [List.mem_singleton.1 ha]
    exact hclosed.initial_leq n hn (List.isEmpty_iff.1 hnone)
  · obtain ⟨m, hm, rfl⟩ := List.mem_map.1 ha
    obtain ⟨hlt, hleq⟩ := hclosed.next_leq n hn m hm
    exact h.lawful.leq_trans _ (hwithin m) _ (hclosed.starts_mem m hlt) _ (hclosed.ends_mem n hn)
      (hbelow m hlt) hleq

/-- However long a run is, its facts stay below all closed ones. -/
theorem starts_leq (h : analysis.Regular carrier) (hclosed : analysis.Closed carrier ends starts)
    (order : Order) (limit k : Nat) (hk : k < analysis.count) :
    analysis.lattice.leq ((analysis.run order limit).starts.getD k analysis.lattice.bottom)
      (starts k) = true := by
  refine (analysis.starts_run (P := fun n fact => fact ∈ carrier ∧
    (n < analysis.count → analysis.lattice.leq fact (starts n) = true)) ?_ ?_ limit k).2 hk
  · intro n
    exact ⟨h.lawful.bottom_mem, fun hn => h.lawful.bottom_leq _ (hclosed.starts_mem n hn)⟩
  · intro facts hfacts node
    have hwithin : analysis.Within carrier facts := fun n => (hfacts n).1
    refine ⟨h.computed_mem hwithin node, fun hnode => ?_⟩
    have hend := hclosed.endFact_leq h hwithin (fun n hn => (hfacts n).2 hn) hnode
    have hends := hclosed.ends_mem node hnode
    have htransfer := h.transfer_mono node _ (h.endFact_mem hwithin node) _ hends hend
    exact h.lawful.leq_trans _ (h.computed_mem hwithin node) _ (h.transfer_mem node _ hends) _
      (hclosed.starts_mem node hnode) htransfer (hclosed.transfer_leq node hnode)

end Closed

end Backward

/-! ### The blocks of a graph -/

variable {α : Type} {g : Graph} {lattice : Lattice α} {carrier : Set α}
  {transfer : Block → α → α} {initial : α}

/-- Facts at the ends and at the starts of the blocks, by number of the block, solve the equations
of a backward analysis. -/
structure Graph.Solution (g : Graph) (lattice : Lattice α) (carrier : Set α)
    (transfer : Block → α → α) (initial : α) (ends starts : Nat → α) : Prop where
  /-- The facts at the ends are ones of the carrier. -/
  ends_mem : ∀ k < g.blocks.length, ends k ∈ carrier
  /-- The facts at the starts are ones of the carrier. -/
  starts_mem : ∀ k < g.blocks.length, starts k ∈ carrier
  /-- The fact at the end of a block is the join of the facts at the starts of the blocks that may
  follow, and of the initial fact where there are none. -/
  ends_isJoin : ∀ {k block}, g.blocks[k]? = some block →
    lattice.IsJoin carrier
      {a | (∃ k', g.BlockStep k k' ∧ a = starts k') ∨ block.successors = [] ∧ a = initial} (ends k)
  /-- The fact at the start of a block comes from the one at its end. -/
  starts_eq : ∀ {k block}, g.blocks[k]? = some block →
    lattice.eq (starts k) (transfer block (ends k)) = true

namespace Backward

/-- A node has no successor iff its block has none. -/
theorem next_ofGraph_eq_nil {k : Nat} {block : Block} (hblock : g.blocks[k]? = some block) :
    (ofGraph g lattice transfer initial).next k = [] ↔ block.successors = [] := by
  constructor
  · intro hnil
    refine List.eq_nil_iff_forall_not_mem.2 fun name hname => ?_
    obtain ⟨target, htarget, rfl⟩ := List.mem_map.1
      (g.targets_mem block (List.mem_of_getElem? hblock) name hname)
    obtain ⟨k', hk'⟩ := List.mem_iff_getElem?.1 htarget
    have hmem : k' ∈ (ofGraph g lattice transfer initial).next k :=
      mem_next_ofGraph.2 ⟨block, target, hblock, hk', hname⟩
    rw [hnil] at hmem
    exact List.not_mem_nil hmem
  · intro hnone
    refine List.eq_nil_iff_forall_not_mem.2 fun k' hk' => ?_
    obtain ⟨_, target, hsame, -, hname⟩ := mem_next_ofGraph.1 hk'
    obtain rfl : block = _ := Option.some.inj (hblock.symm.trans hsame)
    rw [hnone] at hname
    exact List.not_mem_nil hname

/-- An analysis over the blocks of a graph is regular if its transfer functions are monotone. -/
theorem ofGraph_regular (hlawful : lattice.Lawful carrier) (hinitial : initial ∈ carrier)
    (htransfer : ∀ block ∈ g.blocks, ∀ a ∈ carrier, transfer block a ∈ carrier)
    (hmono : ∀ block ∈ g.blocks, ∀ a ∈ carrier, ∀ b ∈ carrier, lattice.leq a b = true →
      lattice.leq (transfer block a) (transfer block b) = true) :
    (ofGraph g lattice transfer initial).Regular carrier where
  lawful := hlawful
  initial_mem := hinitial
  transfer_mem n a ha := by
    dsimp only [ofGraph]
    split
    · next block hblock => exact htransfer block (List.mem_of_getElem? hblock) a ha
    · exact ha
  transfer_mono n a ha b hb hleq := by
    dsimp only [ofGraph]
    split
    · next block hblock => exact hmono block (List.mem_of_getElem? hblock) a ha b hb hleq
    · exact hleq
  previous_lt hm := by
    obtain ⟨block, _, hblock, -⟩ := mem_previous_ofGraph.1 hm
    rw [count_ofGraph]
    exact (List.getElem?_eq_some_iff.1 hblock).1

/-- A solution of the equations is closed. -/
theorem closed_of_solution (h : (ofGraph g lattice transfer initial).Regular carrier)
    {ends starts : Nat → α} (hsolution : g.Solution lattice carrier transfer initial ends starts) :
    (ofGraph g lattice transfer initial).Closed carrier ends starts := by
  have hexists : ∀ k < (ofGraph g lattice transfer initial).count,
      ∃ block, g.blocks[k]? = some block := by
    intro k hk
    rw [count_ofGraph] at hk
    exact ⟨g.blocks[k], by simp [hk]⟩
  refine ⟨fun k hk => ?_, fun k hk => ?_, fun k hk k' hk' => ?_, fun k hk hnil => ?_,
    fun k hk => ?_⟩
  · rw [count_ofGraph] at hk
    exact hsolution.ends_mem k hk
  · rw [count_ofGraph] at hk
    exact hsolution.starts_mem k hk
  · obtain ⟨block, hblock⟩ := hexists k hk
    have hstep := mem_next_ofGraph.1 hk'
    obtain ⟨_, target, -, htarget, -⟩ := id hstep
    refine ⟨?_, (hsolution.ends_isJoin hblock).1 _ (.inl ⟨k', hstep, rfl⟩)⟩
    rw [count_ofGraph]
    exact (List.getElem?_eq_some_iff.1 htarget).1
  · obtain ⟨block, hblock⟩ := hexists k hk
    exact (hsolution.ends_isJoin hblock).1 _ (.inr ⟨(next_ofGraph_eq_nil hblock).1 hnil, rfl⟩)
  · obtain ⟨block, hblock⟩ := hexists k hk
    rw [count_ofGraph] at hk
    have hmem := h.transfer_mem k _ (hsolution.ends_mem k hk)
    have heq := hsolution.starts_eq hblock
    have htransfer : (ofGraph g lattice transfer initial).transfer k (ends k) =
        transfer block (ends k) := by simp [ofGraph, hblock]
    rw [htransfer] at hmem ⊢
    exact ((h.lawful.eq_iff _ (hsolution.starts_mem k hk) _ hmem).1 heq).2

/-- The facts at the ends of the nodes when a run has converged. -/
theorem getD_ends_of_converged {analysis : Backward α} (hwired : analysis.Wired) {order : Order}
    {limit k : Nat} (hconv : (analysis.run order limit).converged = true)
    (hk : k < analysis.count) (bottom : α) :
    (analysis.run order limit).ends.getD k bottom =
      analysis.endFact (analysis.run order limit).starts k := by
  rw [List.getD_eq_getElem?_getD, (solved_of_converged hwired hconv hk).1, Option.getD_some]

/-- The facts that come in at the end of a block are those of its equation. -/
theorem mem_incoming_ofGraph {starts : List α} {k : Nat} {block : Block} {a : α}
    (hblock : g.blocks[k]? = some block) :
    a ∈ (ofGraph g lattice transfer initial).incoming starts k ↔
      (∃ k', g.BlockStep k k' ∧ a = starts.getD k' lattice.bottom) ∨
        block.successors = [] ∧ a = initial := by
  have hnil : (ofGraph g lattice transfer initial).next k = [] ↔ block.successors = [] :=
    next_ofGraph_eq_nil hblock
  unfold incoming
  split
  · next hnone =>
    rw [List.isEmpty_iff] at hnone
    rw [List.mem_singleton]
    constructor
    · exact fun ha => .inr ⟨hnil.1 hnone, ha⟩
    · rintro (⟨k', hstep, -⟩ | ⟨-, ha⟩)
      · have hmem : k' ∈ (ofGraph g lattice transfer initial).next k := mem_next_ofGraph.2 hstep
        rw [hnone] at hmem
        exact absurd hmem List.not_mem_nil
      · exact ha
  · next hsome =>
    rw [List.isEmpty_iff] at hsome
    rw [List.mem_map]
    constructor
    · rintro ⟨k', hk', rfl⟩
      exact .inl ⟨k', mem_next_ofGraph.1 hk', rfl⟩
    · rintro (⟨k', hstep, rfl⟩ | ⟨hnone, -⟩)
      · exact ⟨k', mem_next_ofGraph.2 hstep, rfl⟩
      · exact absurd (hnil.2 hnone) hsome

/-- The facts that a run ends with solve the equations, if it converged. -/
theorem solution_of_converged (h : (ofGraph g lattice transfer initial).Regular carrier)
    {order : Order} {limit : Nat} {state : State α}
    (hrun : (ofGraph g lattice transfer initial).run order limit = state)
    (hconv : state.converged = true) :
    g.Solution lattice carrier transfer initial
      (state.ends.getD · lattice.bottom) (state.starts.getD · lattice.bottom) := by
  subst hrun
  have hwithin := h.within_run order limit
  have hends := fun {k : Nat} (hk : k < g.blocks.length) =>
    getD_ends_of_converged ofGraph_wired hconv (count_ofGraph.symm ▸ hk) lattice.bottom
  refine ⟨fun k hk => ?_, fun k _ => hwithin k, fun {k block} hblock => ?_,
    fun {k block} hblock => ?_⟩
  · rw [hends hk]
    exact h.endFact_mem hwithin k
  · rw [hends (List.getElem?_eq_some_iff.1 hblock).1]
    obtain ⟨habove, hleast⟩ := h.isJoin_endFact hwithin k
    exact ⟨fun a ha => habove a ((mem_incoming_ofGraph hblock).2 ha), fun b hb hle =>
      hleast b hb fun a ha => hle a ((mem_incoming_ofGraph hblock).1 ha)⟩
  · have hk : k < g.blocks.length := (List.getElem?_eq_some_iff.1 hblock).1
    obtain ⟨-, fact, hfact, hagree⟩ := solved_of_converged ofGraph_wired hconv
      (count_ofGraph.symm ▸ hk)
    have hcomputed := h.computed_mem hwithin k
    have hstart : fact ∈ carrier := by
      have hmem := hwithin k
      rwa [List.getD_eq_getElem?_getD, hfact, Option.getD_some] at hmem
    have htransfer : (ofGraph g lattice transfer initial).transfer k = transfer block := by
      funext a
      simp [ofGraph, hblock]
    rw [hends hk, List.getD_eq_getElem?_getD, hfact, Option.getD_some, ← htransfer]
    refine (h.lawful.eq_iff _ hstart _ hcomputed).2 ?_
    rcases hagree with heq | heq
    · rw [heq]
      exact ⟨h.lawful.leq_refl _ hstart, h.lawful.leq_refl _ hstart⟩
    · exact ((h.lawful.eq_iff _ hcomputed _ hstart).1 heq).symm

/-- The facts of a state, one at the end and one at the start of each block, are the least solution
of the equations. -/
structure State.LeastSolution (state : State α) (g : Graph) (lattice : Lattice α)
    (carrier : Set α) (transfer : Block → α → α) (initial : α) : Prop where
  /-- There is a fact at the end of each block. -/
  length_ends : state.ends.length = g.blocks.length
  /-- There is a fact at the start of each block. -/
  length_starts : state.starts.length = g.blocks.length
  /-- The facts solve the equations. -/
  solution : g.Solution lattice carrier transfer initial
    (state.ends.getD · lattice.bottom) (state.starts.getD · lattice.bottom)
  /-- The facts are below those of every solution. -/
  least : ∀ ends starts, g.Solution lattice carrier transfer initial ends starts →
    ∀ k < g.blocks.length, lattice.leq (state.ends.getD k lattice.bottom) (ends k) = true ∧
      lattice.leq (state.starts.getD k lattice.bottom) (starts k) = true

/-- A run that converged has the least solution. -/
theorem leastSolution_of_converged (h : (ofGraph g lattice transfer initial).Regular carrier)
    {order : Order} {limit : Nat} {state : State α}
    (hrun : (ofGraph g lattice transfer initial).run order limit = state)
    (hconv : state.converged = true) :
    state.LeastSolution g lattice carrier transfer initial := by
  have hsolution := solution_of_converged h hrun hconv
  subst hrun
  have hsettled : (ofGraph g lattice transfer initial).Settled
      ((ofGraph g lattice transfer initial).run order limit) := settled_run ofGraph_wired limit
  refine ⟨hsettled.length_ends.trans count_ofGraph, hsettled.length_starts.trans count_ofGraph,
    hsolution, fun ends starts hother k hk => ?_⟩
  have hclosed := closed_of_solution h hother
  have hbelow := fun n hn => hclosed.starts_leq h order limit n hn
  have hcount : k < (ofGraph g lattice transfer initial).count := count_ofGraph.symm ▸ hk
  refine ⟨?_, hbelow k hcount⟩
  rw [getD_ends_of_converged ofGraph_wired hconv hcount]
  exact hclosed.endFact_leq h (h.within_run order limit) hbelow hcount

/-- Lists of facts that are below each other are equal, fact by fact. -/
theorem forall₂_eq_of_leq (hlawful : lattice.Lawful carrier) {facts facts' : List α} {count : Nat}
    (hlength : facts.length = count) (hlength' : facts'.length = count)
    (hmem : ∀ k < count, facts.getD k lattice.bottom ∈ carrier)
    (hmem' : ∀ k < count, facts'.getD k lattice.bottom ∈ carrier)
    (hleq : ∀ k < count,
      lattice.leq (facts.getD k lattice.bottom) (facts'.getD k lattice.bottom) = true)
    (hleq' : ∀ k < count,
      lattice.leq (facts'.getD k lattice.bottom) (facts.getD k lattice.bottom) = true) :
    List.Forall₂ (fun a b => lattice.eq a b = true) facts facts' := by
  refine List.forall₂_iff_get.2 ⟨hlength.trans hlength'.symm, fun k hk hk' => ?_⟩
  have hcount : k < count := hlength ▸ hk
  have hget : facts.get ⟨k, hk⟩ = facts.getD k lattice.bottom := by simp [hk]
  have hget' : facts'.get ⟨k, hk'⟩ = facts'.getD k lattice.bottom := by simp [hk']
  rw [hget, hget']
  exact (hlawful.eq_iff _ (hmem k hcount) _ (hmem' k hcount)).2 ⟨hleq k hcount, hleq' k hcount⟩

/-- There is one least solution. -/
theorem State.LeastSolution.agree (hlawful : lattice.Lawful carrier) {state state' : State α}
    (h : state.LeastSolution g lattice carrier transfer initial)
    (h' : state'.LeastSolution g lattice carrier transfer initial) :
    List.Forall₂ (fun a b => lattice.eq a b = true) state.ends state'.ends ∧
      List.Forall₂ (fun a b => lattice.eq a b = true) state.starts state'.starts := by
  have hleq := h.least _ _ h'.solution
  have hleq' := h'.least _ _ h.solution
  constructor
  · exact forall₂_eq_of_leq hlawful h.length_ends h'.length_ends h.solution.ends_mem
      h'.solution.ends_mem (fun k hk => (hleq k hk).1) (fun k hk => (hleq' k hk).1)
  · exact forall₂_eq_of_leq hlawful h.length_starts h'.length_starts h.solution.starts_mem
      h'.solution.starts_mem (fun k hk => (hleq k hk).2) (fun k hk => (hleq' k hk).2)

/-- **Least solution.** Over every graph, every semilattice of facts whose ascending chains stop and
monotone transfer functions, the engine converges in every order if it may make enough iterations.
Once it has converged it has the least solution of the equations, the same in all orders. -/
theorem run_least_solution (g : Graph) (lattice : Lattice α) (carrier : Set α)
    (transfer : Block → α → α) (initial : α)
    (hlawful : lattice.Lawful carrier) (hchains : lattice.ChainsStop carrier)
    (hinitial : initial ∈ carrier)
    (htransfer : ∀ block ∈ g.blocks, ∀ a ∈ carrier, transfer block a ∈ carrier)
    (hmono : ∀ block ∈ g.blocks, ∀ a ∈ carrier, ∀ b ∈ carrier, lattice.leq a b = true →
      lattice.leq (transfer block a) (transfer block b) = true) :
    (∀ order, ∃ enough, ∀ limit ≥ enough,
      ((ofGraph g lattice transfer initial).run order limit).converged = true) ∧
    ∀ order limit state, (ofGraph g lattice transfer initial).run order limit = state →
      state.converged = true →
      state.LeastSolution g lattice carrier transfer initial ∧
      ∀ order' limit' state', (ofGraph g lattice transfer initial).run order' limit' = state' →
        state'.converged = true →
          List.Forall₂ (fun a b => lattice.eq a b = true) state.ends state'.ends ∧
          List.Forall₂ (fun a b => lattice.eq a b = true) state.starts state'.starts := by
  have h := ofGraph_regular hlawful hinitial htransfer hmono
  refine ⟨fun order => ?_, fun order limit state hrun hconv => ?_⟩
  · obtain ⟨enough, henough⟩ := exists_converged h hchains order _
      (fun n hn => mem_initialWork.1 hn) (rising_start h)
    exact ⟨enough, fun limit hlimit => List.isEmpty_iff.2 (henough limit hlimit)⟩
  · have hleast := leastSolution_of_converged h hrun hconv
    refine ⟨hleast, fun order' limit' state' hrun' hconv' => ?_⟩
    exact hleast.agree hlawful (leastSolution_of_converged h hrun' hconv')

end Backward

namespace Sample

/-- Facts that hold or do not: `true` says more than `false`. -/
def flags : Lattice Bool where
  bottom := false
  join := or
  leq a b := !a || b

/-- Flags obey the laws of a lattice. -/
theorem flags_lawful : flags.Lawful Set.univ where
  bottom_mem := trivial
  join_mem _ _ _ _ := trivial
  leq_refl a _ := by cases a <;> rfl
  leq_trans a _ b _ c _ := by cases a <;> cases b <;> cases c <;> decide
  bottom_leq _ _ := rfl
  leq_join_left a _ b _ := by cases a <;> cases b <;> rfl
  leq_join_right a _ b _ := by cases a <;> cases b <;> rfl
  join_leq a _ b _ c _ := by cases a <;> cases b <;> cases c <;> decide
  eq_iff a _ b _ := by cases a <;> cases b <;> decide

/-- A flag rises once at most. -/
theorem flags_chainsStop : flags.ChainsStop Set.univ := by
  intro chain _ _
  by_cases h : ∃ n, chain n = true
  · obtain ⟨n, hn⟩ := h
    exact ⟨n, fun m _ => by simp [flags, hn]⟩
  · exact ⟨0, fun m _ => by simp [flags, Bool.eq_false_iff.2 fun hm => h ⟨m, hm⟩]⟩

end Sample

/-- Flags are facts as the engine needs them, and with them it finds in every order from which
blocks an exit can be reached: not from the loop beside. -/
theorem Backward.exit_reached_in_every_order :
    Sample.flags.Lawful Set.univ ∧ Sample.flags.ChainsStop Set.univ ∧
    ∀ order, ∃ enough, ∀ limit ≥ enough,
      ((ofGraph Sample.graph Sample.flags (fun _ fact => fact) true).run order limit).starts =
        [true, true, true, false] := by
  obtain ⟨hconverges, hleast⟩ := run_least_solution Sample.graph Sample.flags Set.univ
    (fun _ fact => fact) true Sample.flags_lawful Sample.flags_chainsStop trivial
    (fun _ _ _ _ => trivial) (fun _ _ _ _ _ _ hleq => hleq)
  refine ⟨Sample.flags_lawful, Sample.flags_chainsStop, fun order => ?_⟩
  obtain ⟨enough, henough⟩ := hconverges order
  refine ⟨enough, fun limit hlimit => ?_⟩
  have hsame := ((hleast .fifo 20 _ rfl (by decide)).2 order limit _ rfl (henough limit hlimit)).2
  have heq := hsame.imp (show ∀ a b, Sample.flags.eq a b = true → a = b by decide)
  rw [List.forall₂_eq_eq_eq] at heq
  rw [← heq]
  decide

end RegionInference
