import RegionInference.Liveness
import RegionInference.Proofs.Dataflow
import RegionInference.Proofs.Reach

/-!
# Liveness is liveness along paths

The facts of the liveness analysis say, for each point, which locals may still be read and which
may still be dropped. Both parts of a fact obey the same laws, with the locals that an element reads
or those that it drops as its events; `Liveness.Aspect` chooses one of them.

A local is live at a point in an aspect iff a path leads from the point to an event of the local,
and no element before the end of the path overwrites the local
(`Liveness.live_iff_used_along_path`, for all points, whether the entry reaches them or not). One
direction is an induction along the path: the facts of the points satisfy the equation of each
element (`Liveness.Ran.mem_factAt`), because the blocks are solved. For the other one, every local
in a fact at the start of a block has such a path when the run ends (`Liveness.mem_starts_imp`),
because processing a block only adds locals that have one.
-/

namespace RegionInference

namespace NameSet

/-- No name is listed twice. -/
theorem nodup_toList (s : NameSet) : s.toList.Nodup := by
  refine s.sorted.imp fun {a b} hab => ?_
  rintro rfl
  exact String.lt_irrefl a hab

/-- Sets of names with the same members are equal. -/
theorem ext {s t : NameSet} (h : ∀ name, name ∈ s ↔ name ∈ t) : s = t := by
  have hperm : s.toList.Perm t.toList :=
    (List.perm_ext_iff_of_nodup s.nodup_toList t.nodup_toList).2 h
  have hlist : s.toList = t.toList :=
    hperm.eq_of_pairwise (fun a b _ _ hab hba => absurd hba (String.lt_asymm hab)) s.sorted t.sorted
  cases s
  cases t
  simpa using hlist

end NameSet

namespace Liveness

/-! ### The two parts of a fact -/

/-- The parts of a fact: what may be read, or what may be dropped. -/
inductive Aspect where
  /-- The locals that may still be read. -/
  | read
  /-- The locals that may still be dropped. -/
  | drop

namespace Aspect

/-- The part of a fact. -/
def part : Aspect → LiveFact → NameSet
  | .read, fact => fact.1
  | .drop, fact => fact.2

/-- The locals that an element reads, or those that it drops. -/
def events : Aspect → Element → List String
  | .read, element => element.uses
  | .drop, element => element.drops

end Aspect

variable {aspect : Aspect} {v : String}

/-- Before an element a local is live if the element uses it, or if it is live behind and not
assigned. -/
theorem mem_step {element : Element} {fact : LiveFact} :
    v ∈ aspect.part (step element fact) ↔
      v ∈ aspect.events element ∨ (v ∈ aspect.part fact ∧ v ∉ element.defs) := by
  cases aspect <;> simp [Aspect.part, Aspect.events, step, or_comm]

/-- In the least fact no local is live. -/
theorem not_mem_bottom : v ∉ aspect.part lattice.bottom := by
  cases aspect <;> exact NameSet.not_mem_empty v

/-- In a join a local is live if it is in one of the facts. -/
theorem mem_join {a b : LiveFact} :
    v ∈ aspect.part (lattice.join a b) ↔ v ∈ aspect.part a ∨ v ∈ aspect.part b := by
  cases aspect <;> exact NameSet.mem_union

/-- In the join of many facts a local is live if it is in one of them. -/
theorem mem_joinAll {facts : List LiveFact} :
    v ∈ aspect.part (lattice.joinAll facts) ↔ ∃ fact ∈ facts, v ∈ aspect.part fact := by
  have hfold : ∀ (facts : List LiveFact) (start : LiveFact),
      v ∈ aspect.part (facts.foldl lattice.join start) ↔
        v ∈ aspect.part start ∨ ∃ fact ∈ facts, v ∈ aspect.part fact := by
    intro facts
    induction facts with
    | nil => simp
    | cons fact facts ih =>
      intro start
      rw [List.foldl_cons, ih, mem_join, or_assoc]
      simp
  rw [Lattice.joinAll, hfold]
  simp [not_mem_bottom]

/-- Facts that the lattice takes for equal have the same locals. -/
theorem mem_of_lattice_eq {a b : LiveFact} (h : lattice.eq a b = true) :
    v ∈ aspect.part a ↔ v ∈ aspect.part b := by
  simp only [lattice, Lattice.prod, Lattice.names, Bool.and_eq_true, NameSet.subset_iff] at h
  obtain ⟨⟨hread, hdrop⟩, hread', hdrop'⟩ := h
  cases aspect with
  | read => exact ⟨hread v, hread' v⟩
  | drop => exact ⟨hdrop v, hdrop' v⟩

/-! ### Elements in a row -/

/-- The elements of a block are gone through from the last one to the first. -/
theorem stepAll_cons (element : Element) (elements : List Element) (fact : LiveFact) :
    stepAll (element :: elements) fact = step element (stepAll elements fact) := rfl

/-- The first fact of a sweep is the one before all elements. -/
theorem headD_sweep (fact : LiveFact) (elements : List Element) :
    (sweep fact elements).headD fact = stepAll elements fact := by
  induction elements with
  | nil => rfl
  | cons element elements ih =>
    rw [sweep, stepAll_cons, ← ih]
    rfl

/-- A sweep has a fact before each element. -/
theorem sweep_cons (fact : LiveFact) (element : Element) (elements : List Element) :
    sweep fact (element :: elements) =
      stepAll (element :: elements) fact :: sweep fact elements := by
  rw [sweep, headD_sweep, stepAll_cons]

/-- So it has as many facts as there are elements. -/
@[simp] theorem length_sweep (fact : LiveFact) (elements : List Element) :
    (sweep fact elements).length = elements.length := by
  induction elements with
  | nil => rfl
  | cons element elements ih => simp [sweep, ih]

/-- Each fact of a sweep is what is live before the rest of the elements. -/
theorem getElem?_sweep {fact : LiveFact} {elements : List Element} {j : Nat}
    (h : j < elements.length) :
    (sweep fact elements)[j]? = some (stepAll (elements.drop j) fact) := by
  induction elements generalizing j with
  | nil => simp at h
  | cons element elements ih =>
    rw [sweep_cons]
    cases j with
    | zero => rfl
    | succ j => simpa using ih (by simpa using h)

/-! ### Facts of points -/

/-- The fact of a point is what is live before the rest of its block. -/
theorem getElem?_pointFacts {g : Graph} {ends : List LiveFact} {k j i : Nat} {block : Block}
    {fact : LiveFact} (hlen : ends.length = g.blocks.length) (hat : g.At k j block i)
    (hend : ends[k]? = some fact) :
    (pointFacts g ends)[i]? = some (stepAll (block.elements.drop j) fact) := by
  have hpair : (g.blocks.zip ends)[k]? = some (block, fact) :=
    List.getElem?_zip_eq_some.2 ⟨hat.block_eq, hend⟩
  have hj : j < block.elements.length := by simpa using hat.lt_size
  have hget := getElem?_flatMap_at (f := fun (pair : Block × LiveFact) =>
    sweep pair.2 pair.1.elements) hpair (by simpa using hj)
  have hsizes : ((g.blocks.zip ends).map fun pair => (sweep pair.2 pair.1.elements).length) =
      g.blocks.map Block.size := by
    simp only [length_sweep, Block.length_elements]
    rw [show (fun pair : Block × LiveFact => pair.1.size) = Block.size ∘ Prod.fst from rfl,
      ← List.map_map, List.map_fst_zip (by omega)]
  rw [hsizes, getElem?_sweep hj] at hget
  rw [pointFacts, hat.number]
  exact hget

/-- The points `p 0` to `p k` are a path to an event of a local, and no element before its end
overwrites the local. -/
def UsedAlong (g : Graph) (events : Element → List String) (v : String) (p : Nat → Nat) (k : Nat) :
    Prop :=
  g.IsPath p k ∧ (∃ element, g.elementAt? (p k) = some element ∧ v ∈ events element) ∧
    ∀ m < k, ∀ element, g.elementAt? (p m) = some element → v ∉ element.defs

/-- A local has an event along some path from a point. -/
def UsedLater (g : Graph) (events : Element → List String) (v : String) (i : Nat) : Prop :=
  ∃ p k, p 0 = i ∧ UsedAlong g events v p k

/-- An event at the point itself. -/
theorem UsedLater.here {g : Graph} {events : Element → List String} {i : Nat} {element : Element}
    (helement : g.elementAt? i = some element) (h : v ∈ events element) : UsedLater g events v i :=
  ⟨fun _ => i, 0, rfl, fun _ hm => absurd hm (Nat.not_lt_zero _), ⟨element, helement, h⟩,
    fun _ hm => absurd hm (Nat.not_lt_zero _)⟩

/-- An event after a step over an element that does not overwrite the local. -/
theorem UsedLater.step {g : Graph} {events : Element → List String} {i s : Nat} {element : Element}
    (helement : g.elementAt? i = some element) (hdefs : v ∉ element.defs) (hs : s ∈ g.succ i)
    (h : UsedLater g events v s) : UsedLater g events v i := by
  obtain ⟨p, k, rfl, hpath, huse, hkeep⟩ := h
  refine ⟨fun m => if m = 0 then i else p (m - 1), k + 1, rfl, ?_, by simpa using huse, ?_⟩
  · intro m hm
    cases m with
    | zero => simpa using hs
    | succ m => simpa using hpath m (by omega)
  · intro m hm other hother
    cases m with
    | zero =>
      obtain rfl : element = other := by simpa [helement] using hother
      exact hdefs
    | succ m => exact hkeep m (by omega) other (by simpa using hother)

/-! ### Every live local is used along a path -/

/-- What is live before the rest of a block is used along a path, if what is live after the block is
used along a path from a point that may follow the block. -/
theorem usedLater_of_mem_stepAll {g : Graph} {k j i : Nat} {block : Block} {fact : LiveFact}
    (hat : g.At k j block i)
    (hafter : v ∈ aspect.part fact → ∃ k', g.BlockStep k k' ∧
      UsedLater g aspect.events v (Layout.offset g.blocks k'))
    (h : v ∈ aspect.part (stepAll (block.elements.drop j) fact)) :
    UsedLater g aspect.events v i := by
  -- induction on the number of statements between the point and the end of its block
  induction hn : block.statements.length - j generalizing j i with
  | zero =>
    have hlast : j = block.statements.length := by
      have hsize : block.size = block.statements.length + 1 := rfl
      have := hat.lt_size
      omega
    have helement : g.elementAt? i = some (.term block.terminator) := by
      rw [hat.elementAt?, hlast, Block.elements_last]
    have hrest : block.elements.drop j = [.term block.terminator] := by
      rw [hlast, Block.elements, List.drop_append]
      simp
    rw [hrest, stepAll_cons, mem_step] at h
    rcases h with hevent | ⟨hfact, hdefs⟩
    · exact .here helement hevent
    · obtain ⟨k', ⟨_, target, hblock, htarget, hname⟩, hused⟩ := hafter hfact
      obtain rfl : block = _ := Option.some.inj (hat.block_eq.symm.trans hblock)
      exact .step helement hdefs (hat.mem_succ.2 (.inr ⟨hlast, k', target, htarget, hname, rfl⟩))
        hused
  | succ n ih =>
    have hj : j < block.statements.length := by omega
    have hget : j < block.elements.length := by
      rw [Block.length_elements]
      exact hat.lt_size
    have helement : g.elementAt? i = some block.elements[j] := by
      rw [hat.elementAt?, List.getElem?_eq_getElem hget]
    rw [List.drop_eq_getElem_cons hget, stepAll_cons, mem_step] at h
    rcases h with hevent | ⟨hfact, hdefs⟩
    · exact .here helement hevent
    · exact .step helement hdefs (hat.mem_succ.2 (.inl ⟨hj, rfl⟩))
        (ih (hat.next hj) hfact (by omega))

/-- A block is a predecessor of each block that may follow it. -/
theorem wired (g : Graph) : (analysis g).Wired := Backward.ofGraph_wired

/-- It has a node for each block. -/
theorem count_analysis (g : Graph) : (analysis g).count = g.blocks.length :=
  Backward.count_ofGraph

/-- At the end of a block a local is live if it is so at the start of a block that may follow. -/
theorem mem_endFact {g : Graph} {starts : List LiveFact} {k : Nat} :
    v ∈ aspect.part ((analysis g).endFact starts k) ↔
      ∃ k', g.BlockStep k k' ∧ v ∈ aspect.part (starts.getD k' lattice.bottom) := by
  have hlattice : (analysis g).lattice = lattice := rfl
  have hmerged : v ∈ aspect.part (lattice.joinAll
      (((analysis g).next k).map (starts.getD · lattice.bottom))) ↔
        ∃ k', g.BlockStep k k' ∧ v ∈ aspect.part (starts.getD k' lattice.bottom) := by
    rw [mem_joinAll]
    constructor
    · rintro ⟨fact, hfact, hv⟩
      obtain ⟨k', hk', rfl⟩ := List.mem_map.1 hfact
      exact ⟨k', Backward.mem_next_ofGraph.1 hk', hv⟩
    · rintro ⟨k', hk', hv⟩
      exact ⟨_, List.mem_map_of_mem (Backward.mem_next_ofGraph.2 hk'), hv⟩
  unfold Backward.endFact
  dsimp only
  rw [hlattice]
  split
  · rw [mem_join, hmerged]
    have hinitial : v ∉ aspect.part (analysis g).initial := not_mem_bottom
    simp [hinitial]
  · exact hmerged

/-- Whenever the run stops, a local in the fact at the start of a block is used along a path from
the first point of the block. -/
theorem mem_starts_imp {g : Graph} {order : Order} (limit : Nat) {k : Nat} {block : Block}
    (hblock : g.blocks[k]? = some block)
    (h : v ∈ aspect.part (((analysis g).run order limit).starts.getD k lattice.bottom)) :
    UsedLater g aspect.events v (Layout.offset g.blocks k) := by
  refine Backward.starts_run (analysis g) (P := fun k fact => ∀ block,
    g.blocks[k]? = some block → v ∈ aspect.part fact →
      UsedLater g aspect.events v (Layout.offset g.blocks k)) ?_ ?_ limit k block hblock h
  · intro k block _ hbottom
    exact absurd hbottom not_mem_bottom
  · intro starts ih k block hblock hstart
    have htransfer : (analysis g).transfer k ((analysis g).endFact starts k) =
        stepAll block.elements ((analysis g).endFact starts k) := by
      simp [analysis, Backward.ofGraph, hblock]
    rw [htransfer] at hstart
    refine usedLater_of_mem_stepAll (Graph.at_offset hblock) (fun hfact => ?_) hstart
    obtain ⟨k', hstep, hv⟩ := mem_endFact.1 hfact
    obtain ⟨_, target, _, htarget, _⟩ := id hstep
    exact ⟨k', hstep, ih k' target htarget hv⟩

/-! ### The facts of a run -/

/-- The run of the engine behind the liveness of a body. -/
structure Ran (body : Body) (order : Order) (limit : Nat) (liveness : Liveness) : Prop where
  /-- Nothing was left to process. -/
  converged : ((analysis body.graph).run order limit).converged = true
  /-- The facts are those of the points, from the facts at the ends of the blocks. -/
  facts_eq : liveness.facts =
    (pointFacts body.graph ((analysis body.graph).run order limit).ends).toArray
  /-- The body is kept. -/
  body_eq : liveness.body = body

/-- A liveness analysis that returns has run the engine to its end. -/
theorem exists_ran {body : Body} {order : Order} {bound : Bound} {liveness : Liveness}
    (h : run body order bound = .ok liveness) : ∃ limit, Ran body order limit liveness := by
  simp only [run, bind, Except.bind] at h
  split at h
  · cases h
  · next state hstate =>
    have hlimit : ∃ limit, state = (analysis body.graph).run order limit := by
      unfold Backward.runBelow at hstate
      split at hstate
      · exact ⟨_, (Except.ok.inj hstate).symm⟩
      · exact ⟨_, (Except.ok.inj hstate).symm⟩
      · cases hstate
    obtain ⟨limit, rfl⟩ := hlimit
    split at h
    · next hconv =>
      cases h
      exact ⟨limit, hconv, rfl, rfl⟩
    · cases h

namespace Ran

variable {body : Body} {order : Order} {limit : Nat} {liveness : Liveness}

/-- The equations of a block: its fact at the end, and the fact of its first point. -/
theorem solved (h : Ran body order limit liveness) {k : Nat} {block : Block}
    (hblock : body.graph.blocks[k]? = some block) :
    (analysis body.graph).Solved ((analysis body.graph).run order limit) k := by
  refine Backward.solved_of_converged (wired _) h.converged ?_
  rw [count_analysis]
  exact (List.getElem?_eq_some_iff.1 hblock).1

/-- The fact of a point, from the facts at the starts of the blocks that may follow its block. -/
theorem factAt_eq (h : Ran body order limit liveness) {k j i : Nat} {block : Block}
    (hat : body.graph.At k j block i) :
    liveness.factAt i = stepAll (block.elements.drop j)
      ((analysis body.graph).endFact ((analysis body.graph).run order limit).starts k) := by
  have hlen : ((analysis body.graph).run order limit).ends.length = body.graph.blocks.length := by
    rw [(Backward.settled_run (wired _) limit).length_ends, count_analysis]
  have hget := getElem?_pointFacts hlen hat (h.solved hat.block_eq).1
  rw [factAt, h.facts_eq, List.getElem?_toArray, hget, Option.getD_some]

/-- The fact at the start of a block is the fact of its first point. -/
theorem mem_starts (h : Ran body order limit liveness) {k : Nat} {block : Block}
    (hblock : body.graph.blocks[k]? = some block) :
    v ∈ aspect.part (((analysis body.graph).run order limit).starts.getD k lattice.bottom) ↔
      v ∈ aspect.part (liveness.factAt (Layout.offset body.graph.blocks k)) := by
  obtain ⟨-, fact, hfact, hagree⟩ := h.solved hblock
  have htransfer : (analysis body.graph).transfer k
      ((analysis body.graph).endFact ((analysis body.graph).run order limit).starts k) =
        liveness.factAt (Layout.offset body.graph.blocks k) := by
    rw [h.factAt_eq (Graph.at_offset hblock)]
    simp [analysis, Backward.ofGraph, hblock]
  rw [htransfer] at hagree
  rw [List.getD_eq_getElem?_getD, hfact, Option.getD_some]
  rcases hagree with heq | heq
  · rw [heq]
  · exact (mem_of_lattice_eq heq).symm

/-- **The equation of a point.** A local is live at a point iff the element there has an event of
it, or does not overwrite it and it is live at a point that may follow. -/
theorem mem_factAt (h : Ran body order limit liveness) {i : Nat} {element : Element}
    (helement : body.graph.elementAt? i = some element) :
    v ∈ aspect.part (liveness.factAt i) ↔ v ∈ aspect.events element ∨
      (v ∉ element.defs ∧ ∃ s ∈ body.graph.succ i, v ∈ aspect.part (liveness.factAt s)) := by
  obtain ⟨k, j, block, hat⟩ := Graph.exists_at (Graph.lt_size_of_elementAt? helement)
  have hget : j < block.elements.length := by
    rw [Block.length_elements]
    exact hat.lt_size
  have hsame : block.elements[j] = element := by
    rw [hat.elementAt?, List.getElem?_eq_getElem hget] at helement
    exact Option.some.inj helement
  rw [h.factAt_eq hat, List.drop_eq_getElem_cons hget, hsame, stepAll_cons, mem_step]
  refine or_congr_right ?_
  rw [and_comm]
  refine and_congr_right fun _ => ?_
  by_cases hj : j < block.statements.length
  · -- after a statement: the next point of the block
    rw [hat.succ_eq, if_pos hj, ← h.factAt_eq (hat.next hj)]
    simp
  · -- after the terminator: the first points of the blocks that may follow
    have hlast : j = block.statements.length := by
      have hsize : block.size = block.statements.length + 1 := rfl
      have := hat.lt_size
      omega
    have hnil : block.elements.drop (j + 1) = [] := by
      rw [List.drop_eq_nil_iff, Block.length_elements, hlast]
      exact Nat.le_refl _
    have hstepAll : ∀ fact, stepAll [] fact = fact := fun _ => rfl
    rw [hnil, hstepAll, mem_endFact]
    constructor
    · rintro ⟨k', ⟨_, target, hblock, htarget, hname⟩, hv⟩
      obtain rfl : block = _ := Option.some.inj (hat.block_eq.symm.trans hblock)
      exact ⟨_, hat.mem_succ.2 (.inr ⟨hlast, k', target, htarget, hname, rfl⟩),
        (h.mem_starts htarget).1 hv⟩
    · rintro ⟨s, hs, hv⟩
      rcases hat.mem_succ.1 hs with ⟨hlt, -⟩ | ⟨-, k', target, htarget, hname, rfl⟩
      · exact absurd hlt hj
      · exact ⟨k', ⟨block, target, hat.block_eq, htarget, hname⟩, (h.mem_starts htarget).2 hv⟩

/-- A local that is used along a path is live at each point of the path. -/
theorem mem_of_usedAlong (h : Ran body order limit liveness) {p : Nat → Nat} {k : Nat}
    (hused : UsedAlong body.graph aspect.events v p k) :
    v ∈ aspect.part (liveness.factAt (p 0)) := by
  obtain ⟨hpath, ⟨element, helement, hevent⟩, hkeep⟩ := hused
  induction k generalizing p with
  | zero => exact (h.mem_factAt helement).2 (.inl hevent)
  | succ k ih =>
    -- the path from its second point on is shorter
    have hrest := ih (p := fun m => p (m + 1)) (fun m hm => hpath (m + 1) (by omega))
      (fun m hm => hkeep (m + 1) (by omega)) helement
    have hstep := hpath 0 (Nat.succ_pos k)
    obtain ⟨first, hfirst⟩ := Graph.exists_elementAt? (Graph.lt_size_of_mem_succ hstep)
    exact (h.mem_factAt hfirst).2
      (.inr ⟨hkeep 0 (Nat.succ_pos k) first hfirst, p 1, hstep, hrest⟩)

/-- A local is live at a point iff it has an event along some path from the point. -/
theorem mem_factAt_iff (h : Ran body order limit liveness) (aspect : Aspect) {i : Nat}
    (hi : i < body.graph.size) :
    v ∈ aspect.part (liveness.factAt i) ↔ UsedLater body.graph aspect.events v i := by
  constructor
  · intro hlive
    obtain ⟨k, j, block, hat⟩ := Graph.exists_at hi
    rw [h.factAt_eq hat] at hlive
    refine usedLater_of_mem_stepAll hat (fun hfact => ?_) hlive
    obtain ⟨k', hstep, hv⟩ := mem_endFact.1 hfact
    obtain ⟨_, target, _, htarget, _⟩ := id hstep
    exact ⟨k', hstep, mem_starts_imp limit htarget hv⟩
  · rintro ⟨p, k, rfl, hused⟩
    exact h.mem_of_usedAlong hused

/-- The facts do not depend on the run. -/
theorem factAt_unique (h : Ran body order limit liveness) {order' : Order} {limit' : Nat}
    {liveness' : Liveness} (h' : Ran body order' limit' liveness') {i : Nat}
    (hi : i < body.graph.size) : liveness'.factAt i = liveness.factAt i := by
  have hpart : ∀ aspect : Aspect, aspect.part (liveness'.factAt i) =
      aspect.part (liveness.factAt i) := by
    intro aspect
    refine NameSet.ext fun v => ?_
    rw [h'.mem_factAt_iff aspect hi, h.mem_factAt_iff aspect hi]
  exact Prod.ext (hpart .read) (hpart .drop)

end Ran

/-- **Liveness is liveness along paths.** Whatever the order of processing and the bound on it, a
local may still be read at a point iff a path leads from the point to an element that reads it, and
no element before that overwrites it; and it may still be dropped iff a path leads in this way to an
element that drops it. So the answer is the same for all orders. -/
theorem live_iff_used_along_path {body : Body} {order : Order} {bound : Bound}
    {liveness : Liveness} (h : run body order bound = .ok liveness) :
    (∀ point i, body.graph.index? point = some i → ∀ v,
      (v ∈ (liveness.factAt i).1 ↔ ∃ p k, p 0 = i ∧ UsedAlong body.graph Element.uses v p k) ∧
      (v ∈ (liveness.factAt i).2 ↔ ∃ p k, p 0 = i ∧ UsedAlong body.graph Element.drops v p k)) ∧
    ∀ order' bound' liveness', run body order' bound' = .ok liveness' →
      ∀ i < body.graph.size, liveness'.factAt i = liveness.factAt i := by
  obtain ⟨limit, hran⟩ := exists_ran h
  constructor
  · intro point i hpoint v
    have hi := Graph.lt_size_of_index? hpoint
    exact ⟨hran.mem_factAt_iff .read hi, hran.mem_factAt_iff .drop hi⟩
  · intro order' bound' liveness' h' i hi
    obtain ⟨limit', hran'⟩ := exists_ran h'
    exact hran.factAt_unique hran' hi

end Liveness

/-! ### A sample body -/

namespace Sample

/-- A borrow of `x`, and a loop that copies it, overwrites `x` and reads the copy; beside them a
loop that control never enters. -/
def blocks : List Block := [
  { name := "A"
    statements := [.assign ⟨"p", []⟩ (.borrow "r" false ⟨"x", []⟩)]
    terminator := .goto ["B"] },
  { name := "B"
    statements := [
      .assign ⟨"q", []⟩ (.use (.copy ⟨"p", []⟩)),
      .assign ⟨"x", []⟩ (.const "1"),
      .use [.copy ⟨"q", [.deref]⟩]]
    terminator := .goto ["B", "C"] },
  { name := "C", statements := [], terminator := .ret },
  { name := "D", statements := [.use [.copy ⟨"p", [.deref]⟩]], terminator := .goto ["D"] }]

/-- The graph of the blocks, entered at the borrow. -/
def graph : Graph :=
  .build blocks "A" (by decide) (by decide) (by decide)

/-- The body of the graph. -/
def body : Body where
  name := "sample"
  graph := graph
  vars := [⟨"x", .scalar "i32"⟩, ⟨"p", .ref "l" false (.scalar "i32")⟩,
    ⟨"q", .ref "m" false (.scalar "i32")⟩]
  valid := by decide

end Sample

/-- At the end of the loop that control never enters, `p` is live: the next round reads it. -/
theorem Liveness.live_in_unentered_loop :
    ∃ liveness, run Sample.body .lifo (.count 20) = .ok liveness ∧
      Sample.body.graph.index? ⟨"D", 1⟩ = some 8 ∧ "p" ∈ (liveness.factAt 8).1 := by
  have hok : (run Sample.body .lifo (.count 20)).isOk = true := by decide
  cases hrun : run Sample.body .lifo (.count 20) with
  | error fault =>
    rw [hrun] at hok
    cases hok
  | ok liveness =>
    refine ⟨liveness, rfl, by decide, ?_⟩
    have hlive := ((live_iff_used_along_path hrun).1 ⟨"D", 1⟩ 8 (by decide) "p").1
    -- the path goes from the jump back to the read
    refine hlive.2 ⟨fun m => 8 - m, 1, rfl, ?_, ?_, ?_⟩
    · unfold Graph.IsPath
      decide
    · exact ⟨.stmt (.use [.copy ⟨"p", [.deref]⟩]), rfl, by decide⟩
    · intro m hm element helement
      obtain rfl : m = 0 := by omega
      cases helement
      decide

end RegionInference
