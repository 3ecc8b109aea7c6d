import Mathlib
import RegionInference.Proofs.Dataflow

/-!
# Which blocks dominate a block

The sets of dominators are computed by sweeps that start from the sets of all blocks and go on as
long as the sets shrink. `Graph.dominators_exact` says what comes out: a block dominates another one
iff every way to that one from a root leads through it. The roots are the entry and the blocks that
no block jumps to, so blocks that cannot be reached from the entry have a say as well.

One step is `Dominance.refine`, which computes the set of one block anew and in place. What a step
keeps, the whole computation keeps (`Dominance.settle_keeps`), and three facts are carried through
in this way. Every set holds at least what a step would make of it (`Dominance.Shrinking`), so a
step never adds to a set, and a sweep that does not shrink the sets has changed nothing: what the
computation ends with is the outcome of every step (`Dominance.mem_settle`). The entry has itself
alone. And what is supported along the jumps (`Dominance.Supported`) stays in the sets, so they are
the greatest that the steps leave alone, which is why a block that no root reaches keeps all blocks.
-/

namespace RegionInference

namespace Dominance

variable {preds : List (List Nat)} {entry i k d : Nat} {dom small large : List PointSet}

/-! ### One step -/

/-- What is common to the sets of some nodes is in all of them, and there is one. -/
theorem mem_common {nodes : List Nat} :
    d ∈ common dom nodes ↔ nodes ≠ [] ∧ ∀ i ∈ nodes, d ∈ dom.getD i ∅ := by
  fun_induction common dom nodes with
  | case1 => simp
  | case2 i => simp
  | case3 i nodes hne ih =>
    have hsome : nodes ≠ [] := by
      rintro rfl
      exact hne rfl
    simp [ih, hsome]

/-- A step keeps the set of every other block, and of the entry. -/
theorem mem_refine : d ∈ (refine preds entry dom i).getD k ∅ ↔
    if k = i ∧ i ≠ entry ∧ i < dom.length then d ∈ common dom (preds.getD i []) ∨ d = i
    else d ∈ dom.getD k ∅ := by
  unfold refine
  by_cases hentry : i = entry
  · simp [hentry]
  · rw [if_neg hentry, Backward.getD_set]
    by_cases hk : k = i ∧ i < dom.length
    · rw [if_pos hk, if_pos ⟨hk.1, hentry, hk.2⟩, PointSet.mem_insert]
    · rw [if_neg hk, if_neg fun h => hk ⟨h.1, h.2.2⟩]

/-- Refining the set of a node keeps the number of sets. -/
theorem length_refine : (refine preds entry dom i).length = dom.length := by
  unfold refine
  split
  · rfl
  · simp

/-! ### What all steps keep -/

/-- What every step keeps, a sweep keeps. -/
theorem sweep_keeps {P : List PointSet → Prop}
    (hstep : ∀ dom i, P dom → P (refine preds entry dom i)) (h : P dom) :
    P (sweep preds entry dom) := by
  unfold sweep
  generalize List.range dom.length = nodes
  induction nodes generalizing dom with
  | nil => exact h
  | cons i nodes ih =>
    apply ih
    exact hstep dom i h

/-- What every step keeps, the whole computation keeps. -/
theorem settle_keeps {P : List PointSet → Prop}
    (hstep : ∀ dom i, P dom → P (refine preds entry dom i)) (h : P dom) :
    P (settle preds entry dom) := by
  fun_induction settle preds entry dom with
  | case1 dom _ _ ih => exact ih (sweep_keeps hstep h)
  | case2 => exact h

/-- Settling keeps the number of sets. -/
theorem length_settle : (settle preds entry dom).length = dom.length :=
  settle_keeps (P := fun other => other.length = dom.length)
    (fun _ _ h => length_refine.trans h) rfl

/-! ### Sets that shrink -/

/-- Every set is contained in the one at its place. -/
structure Within (small large : List PointSet) : Prop where
  length : small.length = large.length
  subset : ∀ i d, d ∈ small.getD i ∅ → d ∈ large.getD i ∅

/-- Sets are within themselves. -/
theorem Within.refl (dom : List PointSet) : Within dom dom :=
  ⟨rfl, fun _ _ h => h⟩

/-- What is within sets that are within others is within those. -/
theorem Within.trans {middle : List PointSet} (h : Within small middle) (h' : Within middle large) :
    Within small large :=
  ⟨h.length.trans h'.length, fun i d hd => h'.subset i d (h.subset i d hd)⟩

/-- Sets that are within each other are the same. -/
theorem Within.antisymm (h : Within small large) (h' : Within large small) : small = large := by
  apply List.ext_getElem h.length
  intro i hi hi'
  apply PointSet.ext
  intro d
  have hsubset := h.subset i d
  have hsubset' := h'.subset i d
  simp only [List.getD_eq_getElem?_getD, List.getElem?_eq_getElem hi,
    List.getElem?_eq_getElem hi', Option.getD_some] at hsubset hsubset'
  exact ⟨hsubset, hsubset'⟩

/-- Smaller sets have less in common. -/
theorem Within.common {nodes : List Nat} (h : Within small large)
    (hd : d ∈ Dominance.common small nodes) : d ∈ Dominance.common large nodes := by
  rw [mem_common] at hd ⊢
  exact ⟨hd.1, fun i hi => h.subset i d (hd.2 i hi)⟩

/-- Sets that lose something become smaller in total. -/
theorem Within.eq_of_total (h : Within small large) (htotal : ¬ total small < total large) :
    small = large := by
  have hsets : List.Forall₂ (fun s t : PointSet => ∀ d, d ∈ s → d ∈ t) small large := by
    rw [List.forall₂_iff_get]
    refine ⟨h.length, fun i hi hi' d hd => ?_⟩
    simpa [List.getD_eq_getElem?_getD, hi'] using
      h.subset i d (by simpa [List.getD_eq_getElem?_getD, hi] using hd)
  -- the totals are compared set by set, so the statement is proved together with `≤`
  have hle : total small ≤ total large ∧ (total small = total large → small = large) := by
    clear h htotal
    induction hsets with
    | nil => simp
    | @cons s t small large hst _ ih =>
      have hbits := PointSet.bits_le_of_subset hst
      simp only [total, List.foldr_cons] at ih ⊢
      refine ⟨by omega, fun heq => ?_⟩
      have htail := ih.2 (by omega)
      have hhead : s = t := by
        obtain ⟨a⟩ := s
        obtain ⟨b⟩ := t
        simp only at hbits heq
        congr 1
        omega
      rw [hhead, htail]
  exact hle.2 (by omega)

/-- Every set but the one of the entry holds at least what a step would make of it. -/
def Shrinking (preds : List (List Nat)) (entry : Nat) (dom : List PointSet) : Prop :=
  ∀ i < dom.length, i ≠ entry → ∀ d, d ∈ common dom (preds.getD i []) ∨ d = i → d ∈ dom.getD i ∅

/-- Refining makes the sets smaller, if they shrink. -/
theorem Shrinking.within_refine (h : Shrinking preds entry dom) (i : Nat) :
    Within (refine preds entry dom i) dom := by
  refine ⟨length_refine, fun k d hd => ?_⟩
  rw [mem_refine] at hd
  split at hd
  · next hk =>
    obtain ⟨rfl, hentry, hlt⟩ := hk
    exact h k hlt hentry d hd
  · exact hd

/-- After a refinement they still shrink. -/
theorem Shrinking.refine (h : Shrinking preds entry dom) (i : Nat) :
    Shrinking preds entry (refine preds entry dom i) := by
  intro k hlt hentry d hd
  rw [length_refine] at hlt
  -- before the step the predecessors of `k` had at least as much in common
  have hbefore : d ∈ common dom (preds.getD k []) ∨ d = k :=
    hd.imp_left (h.within_refine i).common
  rw [mem_refine]
  split
  · next hk =>
    obtain ⟨rfl, -⟩ := hk
    exact hbefore
  · exact h k hlt hentry d hbefore

/-- Step after step the sets shrink. -/
theorem Shrinking.within_foldl (h : Shrinking preds entry dom) (nodes : List Nat) :
    Within (nodes.foldl (Dominance.refine preds entry) dom) dom := by
  induction nodes generalizing dom with
  | nil => exact .refl dom
  | cons i nodes ih => exact (ih (h.refine i)).trans (h.within_refine i)

/-- Where the steps together change nothing, no single one does. -/
theorem Shrinking.refine_eq_of_foldl (h : Shrinking preds entry dom) {nodes : List Nat}
    (hsame : nodes.foldl (Dominance.refine preds entry) dom = dom) :
    ∀ i ∈ nodes, Dominance.refine preds entry dom i = dom := by
  induction nodes with
  | nil => simp
  | cons i nodes ih =>
    have hlater := (h.refine i).within_foldl nodes
    rw [List.foldl_cons] at hsame
    rw [hsame] at hlater
    have hfirst : Dominance.refine preds entry dom i = dom := (h.within_refine i).antisymm hlater
    rw [hfirst] at hsame
    intro k hk
    rcases List.mem_cons.1 hk with rfl | hk
    · exact hfirst
    · exact ih hsame k hk

/-! ### The end of the computation -/

/-- The computation is a number of sweeps. -/
theorem exists_iterate_sweep (preds : List (List Nat)) (entry : Nat) (dom : List PointSet) :
    ∃ sweeps, (sweep preds entry)^[sweeps] dom = settle preds entry dom := by
  fun_induction settle preds entry dom with
  | case1 dom _ _ ih =>
    obtain ⟨sweeps, hsweeps⟩ := ih
    exact ⟨sweeps + 1, hsweeps⟩
  | case2 => exact ⟨0, rfl⟩

/-- After the last sweep another one changes nothing. -/
theorem sweep_settle (h : Shrinking preds entry dom) :
    sweep preds entry (settle preds entry dom) = settle preds entry dom := by
  fun_induction settle preds entry dom with
  | case1 dom _ _ ih => exact ih (sweep_keeps (fun _ i h => h.refine i) h)
  | case2 dom swept htotal => exact (h.within_foldl (List.range dom.length)).eq_of_total htotal

/-- In the end every set but the one of the entry is what a step makes of it. -/
theorem mem_settle (h : Shrinking preds entry dom) (hlt : i < dom.length) (hentry : i ≠ entry) :
    d ∈ (settle preds entry dom).getD i ∅ ↔
      d ∈ common (settle preds entry dom) (preds.getD i []) ∨ d = i := by
  have hshrinking : Shrinking preds entry (settle preds entry dom) :=
    settle_keeps (fun _ i h => h.refine i) h
  have hlt' : i < (settle preds entry dom).length := by rwa [length_settle]
  have hsame : refine preds entry (settle preds entry dom) i = settle preds entry dom :=
    hshrinking.refine_eq_of_foldl (sweep_settle h) i (List.mem_range.2 hlt')
  have hstep : d ∈ (refine preds entry (settle preds entry dom) i).getD i ∅ ↔ _ := mem_refine
  rwa [hsame, if_pos ⟨rfl, hentry, hlt'⟩] at hstep

/-- What belongs to the set of a block besides the block itself belongs to the sets of all blocks
that jump to it, and there is such a block. -/
def Supported (preds : List (List Nat)) (entry : Nat) (R : Nat → Nat → Prop) : Prop :=
  ∀ i d, R i d → i ≠ entry →
    d = i ∨ preds.getD i [] ≠ [] ∧ ∀ k ∈ preds.getD i [], R k d

/-- What is supported is never lost. -/
theorem Supported.mem_settle {R : Nat → Nat → Prop} (hR : Supported preds entry R)
    (h : ∀ i d, R i d → d ∈ dom.getD i ∅) (hi : R i d) :
    d ∈ (settle preds entry dom).getD i ∅ := by
  have hkept : ∀ i d, R i d → d ∈ (settle preds entry dom).getD i ∅ := by
    refine settle_keeps (P := fun dom => ∀ i d, R i d → d ∈ dom.getD i ∅) ?_ h
    intro dom i hdom k d hk
    rw [mem_refine]
    split
    · next hki =>
      obtain ⟨rfl, hentry, -⟩ := hki
      rcases hR k d hk hentry with heq | ⟨hne, hpreds⟩
      · exact .inr heq
      · exact .inl (mem_common.2 ⟨hne, fun p hp => hdom p d (hpreds p hp)⟩)
    · exact hdom k d hk
  exact hkept i d hi

/-- The set of the entry is never refined. -/
theorem getD_settle_entry : (settle preds entry dom).getD entry ∅ = dom.getD entry ∅ := by
  refine settle_keeps (P := fun other => other.getD entry ∅ = dom.getD entry ∅) ?_ rfl
  intro other i h
  rw [← h]
  apply PointSet.ext
  intro d
  rw [mem_refine, if_neg]
  rintro ⟨rfl, hentry, -⟩
  exact hentry rfl

end Dominance

namespace Graph

variable {g : Graph} {a b n : String} {i k d : Nat}

/-! ### Ways between blocks -/

/-- Control may go from one block to the other. -/
def Jumps (g : Graph) (name next : String) : Prop :=
  ∃ block ∈ g.blocks, block.name = name ∧ next ∈ block.successors

instance (g : Graph) (name next : String) : Decidable (g.Jumps name next) :=
  inferInstanceAs (Decidable (∃ block ∈ g.blocks, _))

/-- A way of jumps from one block to another, with all blocks on it. -/
inductive Way (g : Graph) (first : String) : List String → String → Prop where
  /-- The way of no jumps. -/
  | here : Way g first [first] first
  /-- One more jump. -/
  | jump {path : List String} {name next : String} :
      Way g first path name → g.Jumps name next → Way g first (path ++ [next]) next

/-- The block is the entry, or no block jumps to it. -/
def IsRoot (g : Graph) (name : String) : Prop :=
  name ∈ g.names ∧ (name = g.entry ∨ ∀ block ∈ g.blocks, name ∉ block.successors)

instance (g : Graph) (name : String) : Decidable (g.IsRoot name) :=
  inferInstanceAs (Decidable (_ ∧ (_ ∨ _)))

/-- The block lies on every way from a root to another block. -/
def OnEveryWay (g : Graph) (name target : String) : Prop :=
  ∀ root path, g.IsRoot root → g.Way root path target → name ∈ path

/-- The entry is a root. -/
theorem isRoot_entry (g : Graph) : g.IsRoot g.entry :=
  ⟨g.entry_mem, .inl rfl⟩

/-- A root to which a block jumps is the entry. -/
theorem IsRoot.eq_entry_of_jumps (h : g.IsRoot b) (hjumps : g.Jumps a b) : b = g.entry := by
  obtain ⟨block, hblock, -, hnext⟩ := hjumps
  rcases h.2 with hentry | hnone
  · exact hentry
  · exact absurd hnext (hnone block hblock)

/-- A jump leads from a block of the graph to one. -/
theorem Jumps.mem_names (h : g.Jumps a b) : a ∈ g.names ∧ b ∈ g.names := by
  obtain ⟨block, hblock, rfl, hnext⟩ := h
  exact ⟨List.mem_map_of_mem hblock, g.targets_mem block hblock b hnext⟩

/-! ### Names and numbers of blocks -/

/-- The name with a number is that of the block with the number. -/
theorem getElem?_names : g.names[i]? = some a ↔ g.blockIndex? a = some i := by
  simp [blockIndex?_eq_some, names, Layout.names, List.getElem?_map]

/-- The names of the graph are those that have a number. -/
theorem mem_names_iff : a ∈ g.names ↔ ∃ i, g.blockIndex? a = some i := by
  simp only [List.mem_iff_getElem?, getElem?_names]

/-- Names with the same number are the same. -/
theorem eq_of_blockIndex? (ha : g.blockIndex? a = some i) (hb : g.blockIndex? b = some i) :
    a = b := by
  rw [← getElem?_names] at ha hb
  exact Option.some.inj (ha.symm.trans hb)

/-- The numbers of blocks are below how many there are. -/
theorem lt_of_blockIndex? (h : g.blockIndex? a = some i) : i < g.blocks.length := by
  obtain ⟨block, hblock, -⟩ := blockIndex?_eq_some.1 h
  exact (List.getElem?_eq_some_iff.1 hblock).1

/-- The blocks that jump to a block, by name and by number. -/
theorem mem_blockPreds_iff (hb : g.blockIndex? b = some k) :
    i ∈ g.blockPreds.getD k [] ↔ ∃ a, g.blockIndex? a = some i ∧ g.Jumps a b := by
  obtain ⟨target, htarget, rfl⟩ := blockIndex?_eq_some.1 hb
  rw [mem_blockPreds]
  constructor
  · rintro ⟨block, target', hblock, htarget', hname⟩
    obtain rfl : target = target' := Option.some.inj (htarget.symm.trans htarget')
    refine ⟨block.name, blockIndex?_eq_some.2 ⟨block, hblock, rfl⟩, block, ?_, rfl, hname⟩
    exact List.mem_of_getElem? hblock
  · rintro ⟨a, ha, block, hblock, rfl, hname⟩
    obtain ⟨j, hj⟩ := List.mem_iff_getElem?.1 hblock
    have hindex : g.blockIndex? block.name = some j := blockIndex?_eq_some.2 ⟨block, hj, rfl⟩
    obtain rfl : j = i := Option.some.inj (hindex.symm.trans ha)
    exact ⟨block, target, hj, htarget, hname⟩

/-! ### The sets of a graph -/

/-- The number of the entry. -/
def entryNumber (g : Graph) : Nat :=
  (g.blockIndex? g.entry).getD 0

/-- The sets before the first sweep. -/
def startSets (g : Graph) : List PointSet :=
  (List.replicate g.blocks.length (.below g.blocks.length)).set g.entryNumber
    (.single g.entryNumber)

/-- The dominators are what the sets of all blocks settle to. -/
theorem dominatorSets_eq (g : Graph) :
    g.dominatorSets = Dominance.settle g.blockPreds g.entryNumber g.startSets := rfl

/-- The number of the entry is that of its name. -/
theorem blockIndex?_entry (g : Graph) : g.blockIndex? g.entry = some g.entryNumber := by
  obtain ⟨i, hi⟩ := mem_names_iff.1 g.entry_mem
  rw [entryNumber, hi]
  rfl

/-- At the start there is a set for each block. -/
theorem length_startSets : g.startSets.length = g.blocks.length := by
  simp [startSets]

/-- At the start the entry has itself, and the other blocks have all blocks. -/
theorem mem_startSets : d ∈ g.startSets.getD i ∅ ↔
    if i = g.entryNumber then d = g.entryNumber else i < g.blocks.length ∧ d < g.blocks.length := by
  have hlt := lt_of_blockIndex? g.blockIndex?_entry
  rw [startSets, Backward.getD_set, List.length_replicate]
  by_cases hi : i = g.entryNumber
  · simp [hi, hlt]
  · by_cases hcount : i < g.blocks.length
    · simp [hi, hcount, List.getD_eq_getElem?_getD]
    · simp [hi, hcount, List.getD_eq_getElem?_getD]

/-- The members are numbers of blocks. -/
theorem lt_of_mem_startSets (h : d ∈ g.startSets.getD i ∅) : d < g.blocks.length := by
  rw [mem_startSets] at h
  split at h
  · rw [h]
    exact lt_of_blockIndex? g.blockIndex?_entry
  · exact h.2

/-- The sets at the start shrink when they are refined. -/
theorem shrinking_startSets (g : Graph) :
    Dominance.Shrinking g.blockPreds g.entryNumber g.startSets := by
  intro i hlt hentry d hd
  rw [length_startSets] at hlt
  rw [mem_startSets, if_neg hentry]
  refine ⟨hlt, ?_⟩
  rcases hd with hd | rfl
  · obtain ⟨hne, hall⟩ := Dominance.mem_common.1 hd
    obtain ⟨k, hk⟩ := List.exists_mem_of_ne_nil _ hne
    exact lt_of_mem_startSets (hall k hk)
  · exact hlt

/-- Only the entry dominates the entry. -/
theorem mem_dominatorSets_entry : d ∈ g.dominatorSets.getD g.entryNumber ∅ ↔ d = g.entryNumber := by
  rw [dominatorSets_eq, Dominance.getD_settle_entry, mem_startSets, if_pos rfl]

/-- Another block is dominated by itself and by what dominates all blocks that jump to it. -/
theorem mem_dominatorSets_of_ne (hlt : i < g.blocks.length) (hentry : i ≠ g.entryNumber) :
    d ∈ g.dominatorSets.getD i ∅ ↔
      d ∈ Dominance.common g.dominatorSets (g.blockPreds.getD i []) ∨ d = i := by
  rw [dominatorSets_eq]
  apply Dominance.mem_settle g.shrinking_startSets _ hentry
  rwa [length_startSets]

/-- A block on every way to another one is on every way to the blocks that jump there. -/
theorem OnEveryWay.of_jumps (h : g.OnEveryWay a n) (hne : a ≠ n) (hjumps : g.Jumps b n) :
    g.OnEveryWay a b := by
  intro root path hroot hway
  have hlonger := h root (path ++ [n]) hroot (hway.jump hjumps)
  simpa [hne] using hlonger

/-- What lies on every way is supported along the jumps. -/
theorem supported_onEveryWay (g : Graph) : Dominance.Supported g.blockPreds g.entryNumber
    fun i d => ∃ n a, g.blockIndex? n = some i ∧ g.blockIndex? a = some d ∧ g.OnEveryWay a n := by
  rintro i d ⟨n, a, hn, ha, hways⟩ hentry
  by_cases hsame : a = n
  · subst hsame
    exact .inl (Option.some.inj (ha.symm.trans hn))
  refine .inr ⟨fun hnil => ?_, fun k hk => ?_⟩
  · -- without a block that jumps to it, `n` is a root, and alone on the way from itself
    have hroot : g.IsRoot n := by
      refine ⟨mem_names_iff.2 ⟨i, hn⟩, .inr fun block hblock hnext => ?_⟩
      have hjumps : g.Jumps block.name n := ⟨block, hblock, rfl, hnext⟩
      obtain ⟨k, hk⟩ := mem_names_iff.1 hjumps.mem_names.1
      have hmem := (mem_blockPreds_iff hn).2 ⟨block.name, hk, hjumps⟩
      rw [hnil] at hmem
      exact absurd hmem List.not_mem_nil
    exact hsame (List.mem_singleton.1 (hways n [n] hroot .here))
  · obtain ⟨b, hb, hjumps⟩ := (mem_blockPreds_iff hn).1 hk
    exact ⟨b, a, hb, ha, hways.of_jumps hsame hjumps⟩

/-- What is in the set of a block is on every way there. The induction follows the way, and in each
step the set of the last block is the outcome of its step. -/
theorem Way.exists_mem {root : String} {path : List String} (hroot : g.IsRoot root)
    (h : g.Way root path n) (hn : g.blockIndex? n = some i) (hd : d ∈ g.dominatorSets.getD i ∅) :
    ∃ a, g.blockIndex? a = some d ∧ a ∈ path := by
  induction h generalizing i with
  | here =>
    by_cases hentry : i = g.entryNumber
    · subst hentry
      rw [mem_dominatorSets_entry.1 hd]
      exact ⟨root, hn, List.mem_singleton_self root⟩
    · rcases (mem_dominatorSets_of_ne (lt_of_blockIndex? hn) hentry).1 hd with hcommon | rfl
      · obtain ⟨hne, -⟩ := Dominance.mem_common.1 hcommon
        obtain ⟨k, hk⟩ := List.exists_mem_of_ne_nil _ hne
        obtain ⟨b, -, hjumps⟩ := (mem_blockPreds_iff hn).1 hk
        obtain rfl := hroot.eq_entry_of_jumps hjumps
        exact absurd (Option.some.inj (hn.symm.trans g.blockIndex?_entry)) hentry
      · exact ⟨root, hn, List.mem_singleton_self root⟩
  | @jump path name next _ hjumps ih =>
    by_cases hentry : i = g.entryNumber
    · subst hentry
      rw [mem_dominatorSets_entry.1 hd]
      exact ⟨next, hn, by simp⟩
    · rcases (mem_dominatorSets_of_ne (lt_of_blockIndex? hn) hentry).1 hd with hcommon | rfl
      · obtain ⟨k, hk⟩ := mem_names_iff.1 hjumps.mem_names.1
        have hpred := (mem_blockPreds_iff hn).2 ⟨name, hk, hjumps⟩
        obtain ⟨a, ha, hmem⟩ := ih hk ((Dominance.mem_common.1 hcommon).2 k hpred)
        exact ⟨a, ha, by simp [hmem]⟩
      · exact ⟨next, hn, by simp⟩

/-- The set of a block holds the blocks that are on every way to it. -/
theorem mem_dominatorSets (hn : g.blockIndex? n = some i) (ha : g.blockIndex? a = some d) :
    d ∈ g.dominatorSets.getD i ∅ ↔ g.OnEveryWay a n := by
  constructor
  · intro hd root path hroot hway
    obtain ⟨b, hb, hmem⟩ := hway.exists_mem hroot hn hd
    rwa [eq_of_blockIndex? ha hb]
  · intro hways
    rw [dominatorSets_eq]
    refine g.supported_onEveryWay.mem_settle ?_ ⟨n, a, hn, ha, hways⟩
    rintro k e ⟨m, b, hm, hb, hways⟩
    rw [mem_startSets]
    split
    · next hk =>
      subst hk
      obtain rfl := eq_of_blockIndex? hm g.blockIndex?_entry
      obtain rfl : b = g.entry :=
        List.mem_singleton.1 (hways g.entry [g.entry] g.isRoot_entry .here)
      exact Option.some.inj (hb.symm.trans g.blockIndex?_entry)
    · exact ⟨lt_of_blockIndex? hm, lt_of_blockIndex? hb⟩

/-- There are dominators for each block. -/
theorem length_dominatorSets : g.dominatorSets.length = g.blocks.length := by
  rw [dominatorSets_eq, Dominance.length_settle, length_startSets]

/-- The dominators are listed by the names of the blocks, in their order. -/
theorem map_fst_dominators : g.dominators.map Prod.fst = g.names := by
  have hlength : g.names.length ≤ g.dominatorSets.length := by
    simp [length_dominatorSets, names, Layout.names]
  rw [dominators, List.map_map]
  exact List.map_fst_zip hlength

/-- The dominators of a block are the blocks of the graph that are on every way to it. -/
theorem mem_of_mem_dominators {set : NameSet} (h : (n, set) ∈ g.dominators) :
    a ∈ set ↔ a ∈ g.names ∧ g.OnEveryWay a n := by
  obtain ⟨⟨name, numbers⟩, hpair, heq⟩ := List.mem_map.1 h
  obtain ⟨rfl, rfl⟩ := Prod.mk.inj heq
  obtain ⟨i, hi⟩ := List.mem_iff_getElem?.1 hpair
  obtain ⟨hname, hnumbers⟩ := List.getElem?_zip_eq_some.1 hi
  rw [getElem?_names] at hname
  have hset : g.dominatorSets.getD i ∅ = numbers := by
    rw [List.getD_eq_getElem?_getD, hnumbers]
    rfl
  simp only [NameSet.mem_ofList, List.mem_filterMap, PointSet.mem_toList, getElem?_names]
  constructor
  · rintro ⟨d, hd, ha⟩
    rw [← hset] at hd
    exact ⟨mem_names_iff.2 ⟨d, ha⟩, (mem_dominatorSets hname ha).1 hd⟩
  · rintro ⟨hnames, hways⟩
    obtain ⟨d, ha⟩ := mem_names_iff.1 hnames
    refine ⟨d, ?_, ha⟩
    rw [← hset]
    exact (mem_dominatorSets hname ha).2 hways

/-- Where the entry leads to every block, it is the only root. -/
theorem IsRoot.eq_entry (hall : ∀ m ∈ g.names, ∃ path, g.Way g.entry path m) (h : g.IsRoot a) :
    a = g.entry := by
  obtain ⟨path, hway⟩ := hall a h.1
  cases hway with
  | here => rfl
  | jump _ hjumps => exact h.eq_entry_of_jumps hjumps

/-- The computation ends: after a number of sweeps another one would change nothing. Then each block
has its set of dominators, and it holds the blocks that are on every way to the block from a root.
So the entry has itself alone; a block that no root leads to has all blocks; and where the entry
leads to every block, the ways are those from the entry. -/
theorem dominators_exact (g : Graph) :
    (∃ sweeps, (Dominance.sweep g.blockPreds g.entryNumber)^[sweeps] g.startSets =
        g.dominatorSets) ∧
    Dominance.sweep g.blockPreds g.entryNumber g.dominatorSets = g.dominatorSets ∧
    g.dominators.map Prod.fst = g.names ∧
    ∀ n set, (n, set) ∈ g.dominators →
      (∀ a, a ∈ set ↔ a ∈ g.names ∧
        ∀ root path, g.IsRoot root → g.Way root path n → a ∈ path) ∧
      (n = g.entry → ∀ a, a ∈ set ↔ a = g.entry) ∧
      ((∀ root path, g.IsRoot root → ¬ g.Way root path n) → ∀ a, a ∈ set ↔ a ∈ g.names) ∧
      ((∀ m ∈ g.names, ∃ path, g.Way g.entry path m) →
        ∀ a, a ∈ set ↔ a ∈ g.names ∧ ∀ path, g.Way g.entry path n → a ∈ path) := by
  refine ⟨Dominance.exists_iterate_sweep _ _ _, Dominance.sweep_settle g.shrinking_startSets,
    map_fst_dominators, fun n set hset => ?_⟩
  refine ⟨fun a => mem_of_mem_dominators hset, ?_, ?_, ?_⟩
  · rintro rfl a
    rw [mem_of_mem_dominators hset]
    constructor
    · rintro ⟨-, hways⟩
      exact List.mem_singleton.1 (hways _ _ g.isRoot_entry .here)
    · rintro rfl
      refine ⟨g.entry_mem, fun root path _ hway => ?_⟩
      cases hway with
      | here => simp
      | jump _ _ => simp
  · intro hnone a
    rw [mem_of_mem_dominators hset, and_iff_left_iff_imp]
    intro _ root path hroot hway
    exact absurd hway (hnone root path hroot)
  · intro hall a
    rw [mem_of_mem_dominators hset]
    refine and_congr_right fun _ => ⟨fun hways path => hways _ path g.isRoot_entry, ?_⟩
    intro hways root path hroot hway
    rw [hroot.eq_entry hall] at hway
    exact hways path hway

end Graph

/-! ### Blocks outside the reach of the entry -/

namespace Sample

/-- The entry `E` and `A` make a loop. Nothing jumps to `X`, which jumps into the loop, and `Y` is
only reached from itself. -/
def strayBlocks : List Block := [
  { name := "E", terminator := .goto ["A"] },
  { name := "A", terminator := .goto ["E"] },
  { name := "X", terminator := .goto ["A"] },
  { name := "Y", terminator := .goto ["Y"] }]

/-- The graph of these blocks. -/
def strayLoop : Graph :=
  .build strayBlocks "E" (by decide) (by decide) (by decide)

/-- The block outside the loop leads into it. -/
theorem way_of_stray : strayLoop.Way "X" ["X", "A"] "A" :=
  .jump .here (by decide)

/-- No root leads to the block that is only reached from itself. -/
theorem not_way_to_isolated {root : String} {path : List String} (hroot : strayLoop.IsRoot root) :
    ¬ strayLoop.Way root path "Y" := by
  have hname : ∀ block ∈ strayLoop.blocks, "Y" ∈ block.successors → block.name = "Y" := by decide
  have hself : ∀ n, strayLoop.Way root path n → n = "Y" → root = "Y" := by
    intro n h
    induction h with
    | here => exact id
    | jump _ hjumps ih =>
      rintro rfl
      obtain ⟨block, hblock, rfl, hnext⟩ := hjumps
      exact ih (hname block hblock hnext)
  intro h
  obtain rfl := hself "Y" h rfl
  exact absurd hroot (by decide)

end Sample

/-- The entry does not dominate the other block of the loop, because of the way from `X`; and the
block that no root leads to has all blocks for its dominators. -/
theorem Graph.dominators_beside_entry : ∃ loop isolated,
    ("A", loop) ∈ Sample.strayLoop.dominators ∧ ("Y", isolated) ∈ Sample.strayLoop.dominators ∧
      "E" ∉ loop ∧ ∀ a, a ∈ isolated ↔ a ∈ ["E", "A", "X", "Y"] := by
  obtain ⟨-, -, hnames, hsets⟩ := Sample.strayLoop.dominators_exact
  have hlisted (a : String) (ha : a ∈ Sample.strayLoop.names) :
      ∃ set, (a, set) ∈ Sample.strayLoop.dominators := by
    rw [← hnames] at ha
    obtain ⟨⟨_, set⟩, hset, rfl⟩ := List.mem_map.1 ha
    exact ⟨set, hset⟩
  obtain ⟨loop, hloop⟩ := hlisted "A" (by decide)
  obtain ⟨isolated, hisolated⟩ := hlisted "Y" (by decide)
  refine ⟨loop, isolated, hloop, hisolated, fun hentry => ?_, ?_⟩
  · have hways := (((hsets _ _ hloop).1 "E").1 hentry).2
    exact absurd (hways "X" _ (by decide) Sample.way_of_stray) (by decide)
  · exact (hsets _ _ hisolated).2.2.1 fun _ _ hroot => Sample.not_way_to_isolated hroot

end RegionInference
