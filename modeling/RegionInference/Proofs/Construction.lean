import Mathlib
import RegionInference.Proofs.Drafts
import RegionInference.Proofs.Numbering
import RegionInference.Proofs.Outlines
import RegionInference.Proofs.Shapes

/-!
# Graphs from drafts

A draft can be finished iff its log describes a graph (`Draft.Incomplete` says when it does not);
otherwise the fault is that the graph is not well formed (`Draft.ends_finish`). The finished graph
is read off the log: the blocks and what each of them has (`Draft.Records.block_finished`), and what
stands at the point that a block announced before something was added to it
(`Draft.elements_of_addition?`). A statement stays at its place because blocks only grow at the end
(`Draft.statements_prefix_run`), a terminator because its block does not grow any more
(`Draft.run_terminated`). The main statement is `Draft.additions_stand_at_next_points`, for all
sequences of calls.
-/

namespace RegionInference

namespace Draft

variable {draft : Draft} {name : String}

/-! ### Finishing -/

/-- The log describes no graph: a block has no terminator, there are no blocks, the chosen entry is
not a block, or a terminator leads to no block. -/
def Incomplete (events : List Event) (chosen : Option String) : Prop :=
  (∃ name ∈ mentioned events, terminators events name = []) ∨
  mentioned events = [] ∨
  (∃ entry, chosen = some entry ∧ entry ∉ mentioned events) ∨
  ∃ name ∈ mentioned events, ∃ terminator ∈ terminators events name,
    ∃ target ∈ terminator.targets, target ∉ mentioned events

variable {events : List Event} {chosen : Option String} {blocks : List Block}

/-- All blocks can be finished iff each of them was given a terminator. -/
theorem Records.exists_mapM_finish (h : Records events draft) :
    (∃ blocks, draft.blocks.mapM BlockDraft.finish = .ok blocks) ↔
      ∀ name ∈ mentioned events, terminators events name ≠ [] := by
  rw [blocks_eq_map h.nodup, h.names_eq]
  constructor
  · rintro ⟨blocks, hblocks⟩ name hname hnone
    obtain ⟨result, -, hresult⟩ := exists_of_mem_mapM hblocks (List.mem_map_of_mem hname)
    obtain ⟨-, -, hsome⟩ := BlockDraft.finish_eq_ok.1 hresult
    rw [h.terminator_eq_none.2 hnone] at hsome
    cases hsome
  · intro hall
    refine exists_mapM fun block hblock => ?_
    obtain ⟨name, hname, rfl⟩ := List.mem_map.1 hblock
    obtain ⟨terminator, hsome⟩ :=
      Option.ne_none_iff_exists'.1 (mt h.terminator_eq_none.1 (hall name hname))
    exact ⟨⟨_, _, terminator⟩, BlockDraft.finish_eq_ok.2 ⟨rfl, rfl, hsome⟩⟩

/-- The finished blocks are those that were mentioned, in order. -/
theorem Records.names_finished (h : Records events draft)
    (hblocks : draft.blocks.mapM BlockDraft.finish = .ok blocks) :
    Layout.names blocks = mentioned events := by
  rw [← h.names_eq]
  exact map_results (fun _ _ hfinish => (BlockDraft.finish_eq_ok.1 hfinish).1.symm) hblocks

/-- A finished block has what was added to it. -/
theorem Records.block_finished (h : Records events draft)
    (hblocks : draft.blocks.mapM BlockDraft.finish = .ok blocks) {block : Block}
    (hblock : block ∈ blocks) : block.statements = statements events block.name ∧
      terminators events block.name = [block.terminator] := by
  rw [blocks_eq_map h.nodup] at hblocks
  obtain ⟨old, hold, hfinish⟩ := exists_of_mem_results hblocks hblock
  obtain ⟨name, -, rfl⟩ := List.mem_map.1 hold
  obtain ⟨hname, hstatements, hterminator⟩ := BlockDraft.finish_eq_ok.1 hfinish
  rw [name_block] at hname
  subst hname
  exact ⟨by rw [← hstatements, h.statements_eq], h.terminator_eq_some.1 hterminator⟩

/-- The finished blocks make a graph iff the log describes one. -/
theorem Records.wellFormed_iff (h : Records events draft)
    (hblocks : draft.blocks.mapM BlockDraft.finish = .ok blocks) :
    Layout.WellFormed blocks chosen ↔ ¬Incomplete events chosen := by
  have hnames := h.names_finished hblocks
  have hterminated := h.exists_mapM_finish.1 ⟨blocks, hblocks⟩
  constructor
  · rintro hwell (⟨name, hname, hnone⟩ | hnil | ⟨entry, hchosen, hunknown⟩ |
      ⟨name, hname, terminator, hterminator, target, htarget, hunknown⟩)
    · exact hterminated name hname hnone
    · rw [← hnames] at hnil
      exact hwell.nonempty (List.map_eq_nil_iff.1 hnil)
    · exact hunknown (hnames ▸ hwell.entry_mem entry hchosen)
    · rw [← hnames] at hname
      obtain ⟨block, hblock, rfl⟩ := List.mem_map.1 hname
      rw [(h.block_finished hblocks hblock).2, List.mem_singleton] at hterminator
      subst hterminator
      exact hunknown (hnames ▸ hwell.targets_mem block hblock target htarget)
  · intro hcomplete
    simp only [Incomplete, not_or] at hcomplete
    obtain ⟨-, hsome, hentry, htargets⟩ := hcomplete
    refine ⟨?_, ?_, ?_, ?_⟩
    · rintro rfl
      exact hsome hnames.symm
    · rw [hnames, ← h.names_eq]
      exact h.nodup
    · intro entry hchosen
      rw [hnames]
      by_contra hunknown
      exact hentry ⟨entry, hchosen, hunknown⟩
    · intro block hblock target htarget
      rw [hnames]
      by_contra hunknown
      refine htargets ⟨block.name, hnames ▸ List.mem_map_of_mem hblock, block.terminator, ?_,
        target, htarget, hunknown⟩
      rw [(h.block_finished hblocks hblock).2]
      exact List.mem_singleton_self _

/-- A draft can be finished iff the log describes a graph. -/
theorem Records.exists_finish (h : Records events draft) (chosen : Option String) :
    (∃ g, draft.finish chosen = .ok g) ↔ ¬Incomplete events chosen := by
  constructor
  · rintro ⟨g, hg⟩
    obtain ⟨blocks, hblocks, hg⟩ := exists_of_bind_eq_ok hg
    exact (h.wellFormed_iff hblocks).1 (Graph.of_ofBlocks hg).2
  · intro hcomplete
    obtain ⟨blocks, hblocks⟩ := h.exists_mapM_finish.2 fun name hname hnone =>
      hcomplete (.inl ⟨name, hname, hnone⟩)
    obtain ⟨g, hg⟩ := Graph.exists_ofBlocks ((h.wellFormed_iff hblocks).2 hcomplete)
    refine ⟨g, ?_⟩
    rw [finish, hblocks]
    exact hg

end Draft

/-- The fault is that a graph is not well formed. -/
def Fault.IsMalformed (fault : Fault) : Prop :=
  fault.diagnostic?.map Diagnostic.kind = some .malformedGraph

/-- Blocks that make no graph are not well formed. -/
theorem Graph.ends_ofBlocks (blocks : List Block) (chosen : Option String) :
    Ends (fun _ => True) Fault.IsMalformed (ofBlocks blocks chosen) := by
  unfold ofBlocks
  split
  · rfl
  · dsimp only
    split
    · rfl
    · split
      · split
        · rfl
        · trivial
      · rfl

/-- A draft that cannot be finished is not well formed. -/
theorem Draft.ends_finish (draft : Draft) (chosen : Option String) :
    Ends (fun _ => True) Fault.IsMalformed (draft.finish chosen) := by
  have hblock : ∀ block ∈ draft.blocks, Ends (fun _ => True) Fault.IsMalformed block.finish := by
    intro block _
    unfold BlockDraft.finish
    split
    · trivial
    · rfl
  exact (Ends.mapM hblock).bind fun blocks _ => Graph.ends_ofBlocks blocks chosen

/-! ### Where additions stand -/

/-- What an addition puts at a point. -/
def Addition.element : Addition → Element
  | .statement s => .stmt s
  | .terminator t => .term t

/-- What stands at a position of a block is found at its point. -/
theorem Graph.element_of_block {g : Graph} {block : Block} (hblock : block ∈ g.blocks) {j : Nat}
    {element : Element} (h : block.elements[j]? = some element) :
    g.element ⟨block.name, j⟩ = .ok element := by
  obtain ⟨hlt, -⟩ := List.getElem?_eq_some_iff.1 h
  rw [Block.length_elements] at hlt
  obtain ⟨before, after, hsplit⟩ := List.append_of_mem hblock
  have hindex := index_of_split hsplit hlt
  obtain ⟨k, hat⟩ := exists_at_of_index hblock hindex
  rw [Graph.element, index_eq_ok.1 hindex, Option.bind_some, hat.elementAt?, h]

namespace Draft

/-- A call that adds to a block names it. -/
theorem Event.block?_of_addition? {event : Event} {name : String} {a : Addition}
    (h : event.addition? name = some a) : event.call.block? = some name := by
  obtain ⟨-, h⟩ := Option.ite_none_right_eq_some.1 h
  cases hcall : event.call with
  | act block action =>
    rw [hcall] at h
    obtain ⟨rfl, -⟩ := Option.ite_none_right_eq_some.1 h
    rfl
  | finishBlock block =>
    rw [hcall] at h
    cases h
  | finish chosen =>
    rw [hcall] at h
    cases h

/-- A block with a terminator takes nothing more. -/
theorem run_terminated {draft : Draft} {name : String} {terminator : Terminator}
    (h : (draft.block name).terminator = some terminator) (calls : List Call) :
    (draft.run calls).block name = draft.block name := by
  induction calls generalizing draft with
  | nil => rfl
  | cons call calls ih =>
    rcases draft.step_block call name with ⟨-, heq⟩ | ⟨a, -, hopen, -⟩
    · exact (ih (heq ▸ h)).trans heq
    · rw [h] at hopen
      cases hopen

/-- The statements of a block stay in their places. -/
theorem statements_prefix_run (draft : Draft) (calls : List Call) (name : String) :
    (draft.block name).statements <+: ((draft.run calls).block name).statements := by
  induction calls generalizing draft with
  | nil => exact List.prefix_rfl
  | cons call calls ih =>
    refine List.IsPrefix.trans ?_ (ih (draft.step call))
    rcases draft.step_block call name with ⟨-, heq⟩ | ⟨a, -, -, heq⟩
    · rw [heq]
    · rw [heq]
      cases a with
      | statement s => exact List.prefix_append _ _
      | terminator t => exact List.prefix_rfl

/-- What was added stands behind the statements that were there before. -/
theorem elements_of_addition? {draft : Draft} {call : Call} {name : String} {a : Addition}
    (h : (draft.event call).addition? name = some a) {later : List Call} {block : Block}
    (hblock : (((draft.step call).run later).block name).finish = .ok block) :
    block.elements[(draft.block name).statements.length]? = some a.element := by
  obtain ⟨-, hstatements, hterminator⟩ := BlockDraft.finish_eq_ok.1 hblock
  have hstep : (draft.step call).block name = (draft.block name).extend a := by
    rcases draft.step_block call name with ⟨hnone, -⟩ | ⟨a', hsome, -, heq⟩
    · rw [h] at hnone
      cases hnone
    · rw [h] at hsome
      cases hsome
      exact heq
  cases a with
  | statement s =>
    have hprefix := (draft.step call).statements_prefix_run later name
    rw [hstep, hstatements] at hprefix
    obtain ⟨rest, hrest⟩ := hprefix
    have hall : block.statements = (draft.block name).statements ++ s :: rest := by
      rw [← hrest, BlockDraft.extend, List.append_assoc]
      rfl
    simp [Block.elements, hall, Addition.element]
  | terminator t =>
    -- nothing is added behind a terminator, so its position is the one it had when it came
    have hsame : ((draft.step call).run later).block name =
        (draft.block name).extend (.terminator t) := by
      rw [run_terminated (by rw [hstep]; rfl), hstep]
    rw [hsame] at hstatements hterminator
    obtain rfl : t = block.terminator := Option.some.inj hterminator
    have hall : (draft.block name).statements = block.statements := hstatements
    rw [hall]
    exact block.elements_last

/-- How a draft treats calls to its blocks. -/
structure Guarded (events : List Event) (draft : Draft) : Prop where
  /-- An action fails iff a place cannot be read, or it is to add to a block with a terminator. -/
  fails_iff : ∀ name action, (∃ fault, draft.reply (.act name action) = .error fault) ↔
    (∃ text ∈ action.texts, Unreadable text) ∨ (action ≠ .touch ∧ terminators events name ≠ [])
  /-- A call that fails leaves every block as it is. -/
  unchanged : ∀ call fault, draft.reply call = .error fault →
    ∀ name, (draft.step call).block name = draft.block name

/-- A graph is the one that calls describe. -/
structure Fulfils (calls : List Call) (g : Graph) : Prop where
  /-- The blocks stand in the order of first mention. -/
  names_eq : g.names = mentioned (log {} calls)
  /-- A block has the statements that were added to it, in order. -/
  statements_eq : ∀ block ∈ g.blocks, block.statements = statements (log {} calls) block.name
  /-- A block has the one terminator that was added to it. -/
  terminator_eq : ∀ block ∈ g.blocks, terminators (log {} calls) block.name = [block.terminator]
  /-- What a call added stands at the next point that its block had just before. -/
  element_eq : ∀ before call after, calls = before ++ call :: after →
    ∀ name a, ((run {} before).event call).addition? name = some a →
      g.element ((run {} before).block name).nextPoint = .ok a.element

/-- In a draft that holds what was recorded, calls fail where they have to, and change nothing then.
-/
theorem Records.guarded {events : List Event} {draft : Draft} (h : Records events draft) :
    Guarded events draft where
  fails_iff name action := by
    have hreads := action.failsOn_addition
    unfold FailsOn at hreads
    rw [← hreads]
    rcases draft.act_cases name action with ⟨fault, hadd, hreply, -⟩ |
      ⟨hadd, ⟨answer, hreply⟩, -⟩ | ⟨a, terminator, hadd, hterminated, hreply, -⟩ |
      ⟨a, hadd, hopen, ⟨answer, hreply⟩, -⟩
    · simp [hadd, hreply]
    · have htouch := Action.addition_eq_none.1 hadd
      simpa [hadd, hreply] using fun hne => absurd htouch hne
    · have htouch : action ≠ .touch := by
        rintro rfl
        cases hadd
      simp [hadd, hreply, htouch, h.terminator_eq_some.1 hterminated]
    · simp [hadd, hreply, h.terminator_eq_none.1 hopen]
  unchanged call fault hfault name := by
    rcases draft.step_block call name with ⟨-, heq⟩ | ⟨a, hsome, -, -⟩
    · exact heq
    · rw [addition?_of_fault hfault] at hsome
      cases hsome

/-- A graph that is finished is the one that the calls describe. -/
theorem fulfils_of_finish {calls : List Call} {chosen : Option String} {g : Graph}
    (hg : (run {} calls).finish chosen = .ok g) : Fulfils calls g := by
  have h := records_run calls
  obtain ⟨blocks, hblocks, hof⟩ := exists_of_bind_eq_ok hg
  obtain ⟨rfl, -⟩ := Graph.of_ofBlocks hof
  have hnames := h.names_finished hblocks
  refine ⟨hnames, fun block hblock => (h.block_finished hblocks hblock).1,
    fun block hblock => (h.block_finished hblocks hblock).2, ?_⟩
  rintro before call after rfl name a hadd
  -- the call mentions its block, so the block is one of those that were finished
  have hmem : name ∈ (run {} (before ++ call :: after)).names := by
    rw [h.names_eq, log_append]
    refine List.mem_eraseDups.2 (List.mem_filterMap.2 ⟨(run {} before).event call, ?_,
      Event.block?_of_addition? hadd⟩)
    exact List.mem_append_right _ List.mem_cons_self
  rw [blocks_eq_map h.nodup] at hblocks
  obtain ⟨block, hblock, hfinish⟩ := exists_of_mem_mapM hblocks (List.mem_map_of_mem hmem)
  obtain rfl : name = block.name := by
    rw [← (BlockDraft.finish_eq_ok.1 hfinish).1, name_block]
  rw [run_append] at hfinish
  rw [BlockDraft.nextPoint, name_block]
  exact Graph.element_of_block hblock (elements_of_addition? hadd hfinish)

/-- **Building.** Calls to a draft come in any order, and some of them fail. A call to a block fails
iff a place cannot be read or the block has its terminator already, and then all blocks stay as they
are. The draft cannot be finished, for the reason that it is not well formed, iff a block has no
terminator, there are no blocks, or the entry or a target is not a block. Otherwise the graph has
the blocks in the order of first mention, each with what was added to it, and every addition stands
at the next point that its block had just before. -/
theorem additions_stand_at_next_points (calls : List Call) (chosen : Option String) :
    Guarded (log {} calls) (run {} calls) ∧
    ((∃ fault, (run {} calls).reply (.finish chosen) = .error fault ∧ fault.IsMalformed) ↔
      Incomplete (log {} calls) chosen) ∧
    (¬Incomplete (log {} calls) chosen →
      ∃ g, (run {} calls).reply (.finish chosen) = .ok (.graph g) ∧ Fulfils calls g) := by
  have h := records_run calls
  have hexists := h.exists_finish chosen
  have hends := (run {} calls).ends_finish chosen
  refine ⟨h.guarded, ?_⟩
  rw [reply_finish]
  cases hfinish : (run {} calls).finish chosen with
  | error fault =>
    rw [hfinish] at hexists hends
    have hincomplete : Incomplete (log {} calls) chosen := by
      by_contra hcomplete
      obtain ⟨g, hg⟩ := hexists.2 hcomplete
      cases hg
    exact ⟨⟨fun _ => hincomplete, fun _ => ⟨fault, rfl, hends⟩⟩, absurd hincomplete⟩
  | ok g =>
    have hcomplete := hexists.1 ⟨g, hfinish⟩
    refine ⟨⟨?_, fun hincomplete => absurd hincomplete hcomplete⟩,
      fun _ => ⟨g, rfl, fulfils_of_finish hfinish⟩⟩
    rintro ⟨fault, hfault, -⟩
    cases hfault

end Draft

namespace Sample

/-- Calls to two blocks in turn. One has a place that cannot be read, two come after the terminator
of their block, and one is to finish the graph too early. -/
def calls : List Draft.Call := [
  .act "A" (.borrow (.path "p") "r" true (.given ⟨"x", []⟩)),
  .act "B" (.use [.path "*p"]),
  .act "B" (.move (.path "1x") (.path "p")),
  .act "A" (.switch (.path "b") ["B", "A"]),
  .act "A" .nop,
  .finish none,
  .act "B" (.drop "p"),
  .act "B" .ret,
  .act "B" (.goto ["C"])]

end Sample

/-- Of the sample calls four fail. The early attempt to finish is one of them, and at the end the
graph is there, with the terminator of one block and the last statement of the other where they were
announced. -/
theorem Draft.interleaved_additions_stand :
    (log {} Sample.calls).map (·.answer.isOk) =
      [true, true, false, true, false, false, true, true, false] ∧
    Incomplete (log {} (Sample.calls.take 5)) none ∧
    (∃ fault, (run {} (Sample.calls.take 5)).reply (.finish none) = .error fault ∧
      fault.IsMalformed) ∧
    ¬Incomplete (log {} Sample.calls) (some "B") ∧
    ∃ g, (run {} Sample.calls).reply (.finish (some "B")) = .ok (.graph g) ∧
      g.names = ["A", "B"] ∧
      g.element ⟨"A", 1⟩ = .ok (.term (.switch (.copy ⟨"b", []⟩) ["B", "A"])) ∧
      g.element ⟨"B", 1⟩ = .ok (.stmt (.drop "p")) := by
  have hnames : mentioned (log {} Sample.calls) = ["A", "B"] := by cbv
  have hfirst : terminators (log {} Sample.calls) "A" =
      [.switch (.copy ⟨"b", []⟩) ["B", "A"]] := by cbv
  have hsecond : terminators (log {} Sample.calls) "B" = [.ret] := by cbv
  have hearly : Incomplete (log {} (Sample.calls.take 5)) none := by
    have hopen : terminators (log {} (Sample.calls.take 5)) "B" = [] := by cbv
    have hmem : mentioned (log {} (Sample.calls.take 5)) = ["A", "B"] := by cbv
    exact .inl ⟨"B", by simp [hmem], hopen⟩
  have hcomplete : ¬Incomplete (log {} Sample.calls) (some "B") := by
    simp [Incomplete, hnames, hfirst, hsecond, Terminator.targets]
  obtain ⟨-, hraises, -⟩ := additions_stand_at_next_points (Sample.calls.take 5) none
  obtain ⟨-, -, hbuilt⟩ := additions_stand_at_next_points Sample.calls (some "B")
  obtain ⟨g, hg, h⟩ := hbuilt hcomplete
  refine ⟨by cbv, hearly, hraises.2 hearly, hcomplete, g, hg, h.names_eq.trans hnames, ?_, ?_⟩
  · have hpoint : ((run {} (Sample.calls.take 3)).block "A").nextPoint = ⟨"A", 1⟩ := by cbv
    rw [← hpoint]
    exact h.element_eq (Sample.calls.take 3) (.act "A" (.switch (.path "b") ["B", "A"]))
      (Sample.calls.drop 4) rfl "A" (.terminator (.switch (.copy ⟨"b", []⟩) ["B", "A"])) (by cbv)
  · have hpoint : ((run {} (Sample.calls.take 6)).block "B").nextPoint = ⟨"B", 1⟩ := by cbv
    rw [← hpoint]
    exact h.element_eq (Sample.calls.take 6) (.act "B" (.drop "p")) (Sample.calls.drop 7) rfl "B"
      (.statement (.drop "p")) (by cbv)

end RegionInference
