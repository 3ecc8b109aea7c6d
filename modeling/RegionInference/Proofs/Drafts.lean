import Mathlib
import RegionInference.Graph.Draft
import RegionInference.Proofs.ConstraintSet
import RegionInference.Proofs.FirstOccurrences

/-!
# Drafts and their logs

Calls to a draft come in any order, to any of its blocks, and some of them fail. The log of a run
(`Draft.log`) has each call with its answer, and is read without the draft: which blocks were
mentioned (`Draft.mentioned`), and what the calls that did not fail added to each of them
(`Draft.statements`, `Draft.terminators`).

An action is known to add something unless the text of one of its places cannot be read
(`Action.failsOn_addition`). What one call does to the blocks is said once for all calls, those that
fail included: a block takes what the log says the call added to it, and is otherwise as it was
(`Draft.step_block`). So at any time the draft is what its log says (`Draft.records_run`).
-/

namespace RegionInference

/-! ### Texts that are read -/

/-- The text of no place. -/
def Unreadable (text : String) : Prop :=
  ∃ fault, Place.parse text = .error fault

/-- A result is a fault iff one of some texts is unreadable. -/
def FailsOn (texts : List String) (result : Except Fault α) : Prop :=
  (∃ fault, result = .error fault) ↔ ∃ text ∈ texts, Unreadable text

namespace FailsOn

/-- Where nothing is read, nothing fails. -/
theorem ok (a : α) : FailsOn [] (.ok a : Except Fault α) := by
  simp [FailsOn]

/-- A place fails to be read on its own text. -/
theorem parse (text : String) : FailsOn [text] (Place.parse text) := by
  simp [FailsOn, Unreadable]

/-- The second step is taken only if the first one has read its texts. -/
theorem bind {first : Except Fault α} {f : α → Except Fault β} {texts later : List String}
    (hfirst : FailsOn texts first) (hf : ∀ a, FailsOn later (f a)) :
    FailsOn (texts ++ later) (first >>= f) := by
  unfold FailsOn at hfirst hf ⊢
  simp only [List.mem_append, or_and_right, exists_or]
  rw [← hfirst]
  cases first with
  | error fault => exact ⟨fun _ => .inl ⟨fault, rfl⟩, fun _ => ⟨fault, rfl⟩⟩
  | ok a =>
    rw [← hf a]
    exact ⟨.inr, fun h => h.resolve_left (by simp)⟩

/-- What is made of a result fails on what the result fails on. -/
theorem map {first : Except Fault α} {texts : List String} (hfirst : FailsOn texts first)
    (f : α → β) : FailsOn texts (first.map f) := by
  unfold FailsOn at hfirst ⊢
  rw [← hfirst]
  cases first <;> simp [Except.map]

/-- A last step that reads nothing. -/
theorem last {first : Except Fault α} {f : α → Except Fault β} {texts : List String}
    (hfirst : FailsOn texts first) (hf : ∀ a, FailsOn [] (f a)) :
    FailsOn texts (first >>= f) := by
  simpa using hfirst.bind hf

/-- A step for each item fails on the texts of one of the items. -/
theorem mapM {f : α → Except Fault β} {texts : α → List String} {items : List α}
    (h : ∀ a, FailsOn (texts a) (f a)) : FailsOn (items.flatMap texts) (items.mapM f) := by
  induction items with
  | nil =>
    rw [List.mapM_nil]
    exact .ok []
  | cons a items ih =>
    rw [List.mapM_cons, List.flatMap_cons]
    exact (h a).bind fun b => ih.last fun rest => .ok _

end FailsOn

/-- The texts that have to be read for a place. -/
def Location.texts : Location → List String
  | .path text => [text]
  | .given _ => []

/-- The texts that have to be read for a value. -/
def Source.texts : Source → List String
  | .path text => [text]
  | .given _ => []

/-- A location fails on its text, if it is given as one. -/
theorem Location.failsOn_toPlace (location : Location) :
    FailsOn location.texts location.toPlace := by
  cases location with
  | path text => exact .parse text
  | given place => exact .ok place

/-- A source fails on its text, if it is given as one. -/
theorem Source.failsOn_toOperand (source : Source) : FailsOn source.texts source.toOperand := by
  cases source with
  | path text => exact (FailsOn.parse text).map _
  | given operand => exact .ok operand

namespace Action

/-- The texts of places in an action. -/
def texts : Action → List String
  | .assign place source => source.texts ++ place.texts
  | .assignRvalue place _ => place.texts
  | .borrow place _ _ of => place.texts ++ of.texts
  | .write place _ => place.texts
  | .use sources => sources.flatMap Source.texts
  | .move place source => place.texts ++ source.texts
  | .call place _ => place.texts
  | .switch source _ => source.texts
  | .touch | .push _ | .drop _ | .storageDead _ | .nop | .goto _ | .ret => []

/-- It is known what an action adds unless the text of a place is unreadable. -/
theorem failsOn_addition (action : Action) : FailsOn action.texts action.addition := by
  cases action with
  | assign place source =>
    exact source.failsOn_toOperand.bind fun operand => place.failsOn_toPlace.last fun _ => .ok _
  | assignRvalue place rvalue =>
    cases rvalue <;> exact place.failsOn_toPlace.last fun _ => .ok _
  | borrow place lifetime mutable of =>
    exact place.failsOn_toPlace.bind fun place => of.failsOn_toPlace.last fun _ => .ok _
  | write place value => exact place.failsOn_toPlace.last fun _ => .ok _
  | use sources => exact (FailsOn.mapM Source.failsOn_toOperand).last fun _ => .ok _
  | move place source =>
    exact place.failsOn_toPlace.bind fun place => source.failsOn_toPlace.last fun _ => .ok _
  | call place rvalue => exact place.failsOn_toPlace.last fun _ => .ok _
  | switch source targets => exact source.failsOn_toOperand.last fun _ => .ok _
  | touch | push _ | drop _ | storageDead _ | nop | goto _ | ret => exact .ok _

/-- Only an action that asks for nothing adds nothing. -/
theorem addition_eq_none {action : Action} : action.addition = .ok none ↔ action = .touch := by
  constructor
  · intro h
    cases action with
    | touch => rfl
    | assign _ _ | borrow _ _ _ _ | move _ _ =>
      obtain ⟨_, -, h⟩ := exists_of_bind_eq_ok h
      obtain ⟨_, -, h⟩ := exists_of_bind_eq_ok h
      cases h
    | assignRvalue _ rvalue =>
      cases rvalue <;>
      · obtain ⟨_, -, h⟩ := exists_of_bind_eq_ok h
        cases h
    | write _ _ | use _ | call _ _ | switch _ _ =>
      obtain ⟨_, -, h⟩ := exists_of_bind_eq_ok h
      cases h
    | push _ | drop _ | storageDead _ | nop | goto _ | ret => cases h
  · rintro rfl
    rfl

end Action

/-! ### Blocks of a draft -/

/-- The statement of an addition. -/
def Addition.statement? : Addition → Option Statement
  | .statement s => some s
  | .terminator _ => none

/-- The terminator of an addition. -/
def Addition.terminator? : Addition → Option Terminator
  | .statement _ => none
  | .terminator t => some t

namespace BlockDraft

/-- The block with one more statement, or with a terminator. -/
def extend (block : BlockDraft) : Addition → BlockDraft
  | .statement statement => { block with statements := block.statements ++ [statement] }
  | .terminator terminator => { block with terminator := some terminator }

/-- An addition keeps the name of the block. -/
@[simp] theorem name_extend (block : BlockDraft) (a : Addition) :
    (block.extend a).name = block.name := by
  cases a <;> rfl

/-- To a block without a terminator everything can be added. -/
theorem add_of_open {block : BlockDraft} (h : block.terminator = none) (a : Addition) :
    block.add a = .ok (block.extend a) := by
  cases a <;> simp [add, extend, h]

/-- To a block with a terminator nothing can be added. -/
theorem add_of_terminated {block : BlockDraft} {terminator : Terminator}
    (h : block.terminator = some terminator) (a : Addition) :
    block.add a = .error (.alreadyTerminated block.name) := by
  simp [add, h]

/-- A block is finished iff it has a terminator, and then with what was added. -/
theorem finish_eq_ok {block : BlockDraft} {result : Block} :
    block.finish = .ok result ↔ block.name = result.name ∧
      block.statements = result.statements ∧ block.terminator = some result.terminator := by
  obtain ⟨name, statements, terminator⟩ := block
  obtain ⟨name', statements', terminator'⟩ := result
  cases terminator <;> simp [finish]

end BlockDraft

namespace Draft

variable {draft : Draft} {name : String}

/-- The names of the blocks. -/
def names (draft : Draft) : List String :=
  draft.blocks.map BlockDraft.name

/-- The block that is looked up by a name has the name. -/
@[simp] theorem name_block (draft : Draft) (name : String) : (draft.block name).name = name := by
  unfold block
  cases hfind : draft.blocks.find? (·.name == name) with
  | none => rfl
  | some found => simpa using List.find?_some hfind

/-- The test for a name looks at the names of all blocks. -/
theorem any_name_iff : draft.blocks.any (·.name == name) = true ↔ name ∈ draft.names := by
  simp [names]

/-- Mentioning a block puts it at the end, unless it is there. -/
theorem names_mention (draft : Draft) (name : String) :
    (draft.mention name).names =
      if name ∈ draft.names then draft.names else draft.names ++ [name] := by
  unfold mention
  by_cases hmem : name ∈ draft.names
  · rw [if_pos (any_name_iff.2 hmem), if_pos hmem]
  · rw [if_neg (mt any_name_iff.1 hmem), if_neg hmem]
    simp [names]

/-- A block that was mentioned is there. -/
theorem mem_names_mention (draft : Draft) (name : String) : name ∈ (draft.mention name).names := by
  rw [names_mention]
  split
  · assumption
  · simp

/-- A block that is only mentioned is as it was. -/
@[simp] theorem block_mention (draft : Draft) (name other : String) :
    (draft.mention name).block other = draft.block other := by
  unfold mention
  split
  · rfl
  · next hnew =>
    unfold block
    rw [List.find?_append]
    by_cases hother : name = other
    · subst hother
      cases draft.blocks.find? (·.name == name) <;> simp
    · cases draft.blocks.find? (·.name == other) <;> simp [hother]

/-- Replacing a block keeps the names. -/
@[simp] theorem names_replace (draft : Draft) (block : BlockDraft) :
    (draft.replace block).names = draft.names := by
  unfold names replace
  rw [List.map_map]
  refine List.map_congr_left fun old _ => ?_
  by_cases hname : old.name = block.name <;> simp [hname]

/-- A block that is replaced is the new one, and every other block is as it was. -/
theorem block_replace {block : BlockDraft} (h : block.name ∈ draft.names) (name : String) :
    (draft.replace block).block name = if block.name = name then block else draft.block name := by
  have hname : ((fun found : BlockDraft => found.name == name) ∘ fun old =>
      if old.name = block.name then block else old) = fun found => found.name == name := by
    funext old
    by_cases hold : old.name = block.name <;> simp [hold]
  unfold Draft.block replace
  rw [List.find?_map, hname]
  cases hfind : draft.blocks.find? (·.name == name) with
  | none =>
    obtain ⟨found, hfound, hsame⟩ := List.mem_map.1 h
    have hne : block.name ≠ name := by
      rintro rfl
      exact absurd (beq_iff_eq.2 hsame) (List.find?_eq_none.1 hfind found hfound)
    rw [if_neg hne]
    rfl
  | some found =>
    have hfound : found.name = name := by simpa using List.find?_some hfind
    simp [hfound, eq_comm]

/-- Blocks with different names are found by their names. -/
theorem blocks_eq_map (h : draft.names.Nodup) : draft.blocks = draft.names.map draft.block := by
  rw [names, List.map_map]
  refine (List.map_id _).symm.trans (List.map_congr_left fun found hfound => ?_)
  have hfind : draft.blocks.find? (·.name == found.name) = some found := by
    obtain ⟨first, hfirst⟩ : ∃ first, draft.blocks.find? (·.name == found.name) = some first := by
      rw [← Option.isSome_iff_exists, List.find?_isSome]
      exact ⟨found, hfound, by simp⟩
    have hname : first.name = found.name := by simpa using List.find?_some hfirst
    rw [hfirst, List.inj_on_of_nodup_map h (List.mem_of_find?_eq_some hfirst) hfound hname]
  simp [block, hfind]

/-! ### Calls -/

/-- What a call is answered. -/
def reply (draft : Draft) (call : Call) : Except Fault Answer :=
  ((serve call).run.run draft).1

/-- The draft after a call. -/
def step (draft : Draft) (call : Call) : Draft :=
  ((serve call).run.run draft).2

/-- A call that only asks leaves the draft as it is. -/
theorem run_lift_map (result : Except Fault α) (f : α → Answer) (draft : Draft) :
    (do return f (← result) : ExceptT Fault (StateM Draft) Answer).run.run draft =
      (result.map f, draft) := by
  cases result <;> rfl

/-- Finishing the whole leaves the draft as it is. -/
theorem run_serve_finish (draft : Draft) (chosen : Option String) :
    (serve (.finish chosen)).run.run draft = ((draft.finish chosen).map .graph, draft) :=
  run_lift_map (draft.finish chosen) .graph draft

/-- Finishing a block mentions it and changes nothing else. -/
theorem run_serve_finishBlock (draft : Draft) (name : String) :
    (serve (.finishBlock name)).run.run draft =
      (((draft.mention name).block name).finish.map .block, draft.mention name) :=
  run_lift_map ((draft.mention name).block name).finish .block (draft.mention name)

/-- An action that fails leaves the draft with the block mentioned. -/
theorem run_serve_act (draft : Draft) (name : String) (action : Action) :
    (serve (.act name action)).run.run draft =
      (((draft.mention name).act name action).map fun next => .next (next.block name).nextPoint,
        ((draft.mention name).act name action).toOption.getD (draft.mention name)) := by
  have hrun : ∀ result : Except Fault Draft,
      (do set (← result)
          return .next ((← get).block name).nextPoint :
        ExceptT Fault (StateM Draft) Answer).run.run (draft.mention name) =
      (result.map fun next => .next (next.block name).nextPoint,
        result.toOption.getD (draft.mention name)) := by
    intro result
    cases result <;> rfl
  exact hrun _

/-- The reply to a call that finishes is the graph of the blocks, or why there is none. -/
theorem reply_finish (draft : Draft) (chosen : Option String) :
    draft.reply (.finish chosen) = (draft.finish chosen).map .graph := by
  rw [reply, run_serve_finish]

/-- The four ways in which an action on a block can end. -/
theorem act_cases (draft : Draft) (name : String) (action : Action) :
    (∃ fault, action.addition = .error fault ∧
      draft.reply (.act name action) = .error fault ∧
      draft.step (.act name action) = draft.mention name) ∨
    (action.addition = .ok none ∧
      (∃ answer, draft.reply (.act name action) = .ok answer) ∧
      draft.step (.act name action) = draft.mention name) ∨
    (∃ a terminator, action.addition = .ok (some a) ∧
      (draft.block name).terminator = some terminator ∧
      draft.reply (.act name action) = .error (.alreadyTerminated name) ∧
      draft.step (.act name action) = draft.mention name) ∨
    (∃ a, action.addition = .ok (some a) ∧ (draft.block name).terminator = none ∧
      (∃ answer, draft.reply (.act name action) = .ok answer) ∧
      draft.step (.act name action) =
        (draft.mention name).replace ((draft.block name).extend a)) := by
  unfold reply step
  rw [run_serve_act, act]
  -- the places are read before the block is asked whether it takes anything
  cases hadd : action.addition with
  | error fault => exact .inl ⟨fault, rfl, rfl, rfl⟩
  | ok addition =>
    cases addition with
    | none => exact .inr (.inl ⟨rfl, ⟨_, rfl⟩, rfl⟩)
    | some a =>
      simp only [bind, Except.bind, block_mention]
      cases hterminator : (draft.block name).terminator with
      | none =>
        rw [BlockDraft.add_of_open hterminator]
        exact .inr (.inr (.inr ⟨a, rfl, rfl, ⟨_, rfl⟩, rfl⟩))
      | some terminator =>
        rw [BlockDraft.add_of_terminated hterminator, name_block]
        exact .inr (.inr (.inl ⟨a, terminator, rfl, rfl, rfl, rfl⟩))

/-! ### The log -/

/-- A call with its answer. -/
structure Event where
  /-- The call. -/
  call : Call
  /-- The answer, or the fault. -/
  answer : Except Fault Answer

/-- The block that a call mentions. -/
def Call.block? : Call → Option String
  | .act name _ => some name
  | .finishBlock name => some name
  | .finish _ => none

/-- What a call is to add to the block of that name. -/
def Call.addition? (call : Call) (name : String) : Option Addition :=
  match call with
  | .act block action => if block = name then action.addition.toOption.join else none
  | .finishBlock _ => none
  | .finish _ => none

/-- What a call added to the block of that name, which is nothing if it failed. -/
def Event.addition? (event : Event) (name : String) : Option Addition :=
  if event.answer.isOk then event.call.addition? name else none

/-- A call to a draft, with its answer. -/
def event (draft : Draft) (call : Call) : Event :=
  ⟨call, draft.reply call⟩

/-- The draft after calls in turn. -/
def run (draft : Draft) (calls : List Call) : Draft :=
  calls.foldl step draft

/-- Calls in turn, with their answers. -/
def log (draft : Draft) : List Call → List Event
  | [] => []
  | call :: calls => draft.event call :: (draft.step call).log calls

/-- The blocks that were mentioned, in the order of first mention. -/
def mentioned (events : List Event) : List String :=
  (events.filterMap (·.call.block?)).eraseDups

/-- The statements that were added to a block, in order. -/
def statements (events : List Event) (name : String) : List Statement :=
  events.filterMap fun event => (event.addition? name).bind Addition.statement?

/-- The terminators that were added to a block, in order. -/
def terminators (events : List Event) (name : String) : List Terminator :=
  events.filterMap fun event => (event.addition? name).bind Addition.terminator?

/-- Calls in a row are made one after the other. -/
theorem run_append (draft : Draft) (calls later : List Call) :
    draft.run (calls ++ later) = (draft.run calls).run later :=
  List.foldl_append

/-- The log of calls in a row goes on from where the first ones lead. -/
theorem log_append (draft : Draft) (calls later : List Call) :
    draft.log (calls ++ later) = draft.log calls ++ (draft.run calls).log later := by
  induction calls generalizing draft with
  | nil => rfl
  | cons call calls ih => exact congrArg (draft.event call :: ·) (ih (draft.step call))

/-- A call that fails adds nothing. -/
theorem addition?_of_fault {call : Call} {fault : Fault} (h : draft.reply call = .error fault)
    (name : String) : (draft.event call).addition? name = none := by
  simp [event, Event.addition?, h, Except.isOk, Except.toBool]

/-- A call that was answered has added what it asks for. -/
theorem addition?_of_answer {call : Call} (h : ∃ answer, draft.reply call = .ok answer)
    (name : String) : (draft.event call).addition? name = call.addition? name := by
  obtain ⟨answer, h⟩ := h
  simp [event, Event.addition?, h, Except.isOk, Except.toBool]

/-- A call that is to add nothing adds nothing. -/
theorem addition?_of_none {call : Call} (h : call.addition? name = none) :
    (draft.event call).addition? name = none := by
  simp [event, Event.addition?, h]

/-- What an action adds, it adds to its own block. -/
theorem Call.addition?_act {action : Action} {addition : Option Addition}
    (h : action.addition = .ok addition) (name other : String) :
    (Call.act name action).addition? other = if name = other then addition else none := by
  simp [Call.addition?, h, Except.toOption]

/-- **One call.** A block takes what the call added to it and is otherwise as it was; only a block
without a terminator takes anything. -/
theorem step_block (draft : Draft) (call : Call) (name : String) :
    ((draft.event call).addition? name = none ∧
      (draft.step call).block name = draft.block name) ∨
    ∃ a, (draft.event call).addition? name = some a ∧ (draft.block name).terminator = none ∧
      (draft.step call).block name = (draft.block name).extend a := by
  cases call with
  | finish chosen =>
    refine .inl ⟨addition?_of_none rfl, ?_⟩
    rw [step, run_serve_finish]
  | finishBlock block =>
    refine .inl ⟨addition?_of_none rfl, ?_⟩
    rw [step, run_serve_finishBlock, block_mention]
  | act block action =>
    rcases draft.act_cases block action with ⟨fault, -, hreply, hstep⟩ | ⟨hadd, -, hstep⟩ |
      ⟨a, terminator, -, -, hreply, hstep⟩ | ⟨a, hadd, hopen, hreply, hstep⟩
    · exact .inl ⟨addition?_of_fault hreply name, by rw [hstep, block_mention]⟩
    · refine .inl ⟨addition?_of_none ?_, by rw [hstep, block_mention]⟩
      rw [Call.addition?_act hadd, ite_self]
    · exact .inl ⟨addition?_of_fault hreply name, by rw [hstep, block_mention]⟩
    · -- the block has been mentioned, so it is there to be replaced
      have hmem : ((draft.block block).extend a).name ∈ (draft.mention block).names := by
        rw [BlockDraft.name_extend, name_block]
        exact draft.mem_names_mention block
      rw [addition?_of_answer hreply, Call.addition?_act hadd, hstep, block_replace hmem,
        BlockDraft.name_extend, name_block, block_mention]
      by_cases hname : block = name
      · subst hname
        exact .inr ⟨a, by simp, hopen, by simp⟩
      · exact .inl ⟨by simp [hname], by simp [hname]⟩

/-- The blocks are those of before, and the one that the call mentions. -/
theorem names_step (draft : Draft) (call : Call) :
    (draft.step call).names =
      call.block?.elim draft.names fun name => (draft.mention name).names := by
  cases call with
  | finish chosen =>
    rw [step, run_serve_finish]
    rfl
  | finishBlock name =>
    rw [step, run_serve_finishBlock]
    rfl
  | act name action =>
    change _ = (draft.mention name).names
    rcases draft.act_cases name action with ⟨fault, -, -, hstep⟩ | ⟨-, -, hstep⟩ |
      ⟨a, terminator, -, -, -, hstep⟩ | ⟨a, -, -, -, hstep⟩
    · rw [hstep]
    · rw [hstep]
    · rw [hstep]
    · rw [hstep, names_replace]

/-! ### What the log says of the draft -/

/-- One more event mentions its block at the end, unless it was mentioned. -/
theorem mentioned_concat (events : List Event) (event : Event) :
    mentioned (events ++ [event]) = event.call.block?.elim (mentioned events) fun name =>
      if name ∈ mentioned events then mentioned events else mentioned events ++ [name] := by
  rw [mentioned, List.filterMap_append, List.eraseDups_append, ← mentioned]
  cases hblock : event.call.block? with
  | none => simp [hblock, List.removeAll]
  | some name =>
    have hmem : name ∈ mentioned events ↔ name ∈ events.filterMap (·.call.block?) :=
      List.mem_eraseDups
    by_cases hold : name ∈ mentioned events
    · have hdrop : [name].removeAll (events.filterMap (·.call.block?)) = [] := by
        simpa [List.removeAll] using hmem.1 hold
      simp [hblock, hold, hdrop]
    · have hkeep : [name].removeAll (events.filterMap (·.call.block?)) = [name] := by
        simpa [List.removeAll] using mt hmem.2 hold
      simp [hblock, hold, hkeep, List.eraseDups_cons]

/-- The statements of a block, event after event. -/
theorem statements_append (events later : List Event) (name : String) :
    statements (events ++ later) name = statements events name ++ statements later name :=
  List.filterMap_append

/-- The terminators of a block, event after event. -/
theorem terminators_append (events later : List Event) (name : String) :
    terminators (events ++ later) name = terminators events name ++ terminators later name :=
  List.filterMap_append

/-- A draft is what its log says. -/
structure Records (events : List Event) (draft : Draft) : Prop where
  /-- The blocks are those that were mentioned. -/
  names_eq : draft.names = mentioned events
  /-- A block has the statements that were added to it. -/
  statements_eq : ∀ name, (draft.block name).statements = statements events name
  /-- A block has the terminator that was added to it. -/
  terminator_eq : ∀ name, (draft.block name).terminator.toList = terminators events name

/-- At the start nothing is recorded. -/
theorem records_start : Records [] {} :=
  ⟨rfl, fun _ => rfl, fun _ => rfl⟩

/-- Each call keeps that the draft holds what was recorded. -/
theorem Records.step {events : List Event} (h : Records events draft) (call : Call) :
    Records (events ++ [draft.event call]) (draft.step call) := by
  refine ⟨?_, fun name => ?_, fun name => ?_⟩
  · rw [names_step, mentioned_concat, ← h.names_eq]
    simp only [names_mention]
    rfl
  · rw [statements_append, ← h.statements_eq]
    rcases draft.step_block call name with ⟨hnone, heq⟩ | ⟨a, hsome, -, heq⟩
    · simp [statements, heq, hnone]
    · rw [heq]
      cases a <;> simp [statements, hsome, BlockDraft.extend, Addition.statement?]
  · rw [terminators_append, ← h.terminator_eq]
    rcases draft.step_block call name with ⟨hnone, heq⟩ | ⟨a, hsome, hopen, heq⟩
    · simp [terminators, heq, hnone]
    · rw [heq]
      cases a <;> simp [terminators, hsome, hopen, BlockDraft.extend, Addition.terminator?]

/-- At any time the draft is what the log says. -/
theorem records_run (calls : List Call) : Records (log {} calls) (run {} calls) := by
  -- a log grows at its end, so it is the last call that is taken off
  induction calls using List.reverseRecOn with
  | nil => exact records_start
  | append_singleton calls call ih =>
    rw [log_append, run_append]
    exact ih.step call

/-- No two blocks of the draft have one name. -/
theorem Records.nodup {events : List Event} (h : Records events draft) : draft.names.Nodup := by
  rw [h.names_eq]
  exact nodup_eraseDups _

/-- A block is open iff no terminator was recorded for it. -/
theorem Records.terminator_eq_none {events : List Event} (h : Records events draft) :
    (draft.block name).terminator = none ↔ terminators events name = [] := by
  rw [← h.terminator_eq, Option.toList_eq_nil_iff]

/-- A block has a terminator iff it is the one that was recorded for it. -/
theorem Records.terminator_eq_some {events : List Event} (h : Records events draft)
    {terminator : Terminator} :
    (draft.block name).terminator = some terminator ↔ terminators events name = [terminator] := by
  rw [← h.terminator_eq, Option.toList_eq_singleton_iff]

end Draft

end RegionInference
