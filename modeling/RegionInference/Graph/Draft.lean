import RegionInference.Graph.Basic

/-!
# Drafts of graphs

A draft is a graph under construction: blocks in the order in which they were first mentioned, each
with the statements given to it so far and with a terminator once it has one. An action gives a
block a statement or its terminator; a block with a terminator takes neither. Places in actions may
be given as texts. A draft is changed by calls (`Draft.serve`): each of them has an answer or fails,
and what it did before it failed stays.
-/

namespace RegionInference

/-- A block under construction. -/
structure BlockDraft where
  /-- The name. -/
  name : String
  /-- The statements so far. -/
  statements : List Statement := []
  /-- The terminator, once there is one. -/
  terminator : Option Terminator := none

/-- A graph under construction. -/
structure Draft where
  /-- The blocks, in the order of first mention. -/
  blocks : List BlockDraft := []

/-- A place as an action is given it. -/
inductive Location where
  /-- The text of a place. -/
  | path (text : String)
  /-- A place. -/
  | given (place : Place)

/-- A value as an action is given it. -/
inductive Source where
  /-- The text of a place, whose value is copied. -/
  | path (text : String)
  /-- An operand. -/
  | given (operand : Operand)

/-- What is added to a block. -/
inductive Addition where
  /-- A statement. -/
  | statement (statement : Statement)
  /-- The terminator. -/
  | terminator (terminator : Terminator)

/-- What can be asked of a block under construction. -/
inductive Action where
  /-- Nothing. -/
  | touch
  /-- To take a statement as it is given. -/
  | push (statement : Statement)
  /-- To store a value. -/
  | assign (place : Location) (source : Source)
  /-- To store a right-hand side, in which a bare literal is read as an operand. -/
  | assignRvalue (place : Location) (rvalue : Rvalue)
  /-- To store a reference. -/
  | borrow (place : Location) (lifetime : String) (mutable : Bool) (of : Location)
  /-- To store a literal. -/
  | write (place : Location) (value : String)
  /-- To read values. -/
  | use (sources : List Source)
  /-- To store the value of a place and leave that place uninitialized. -/
  | move (place source : Location)
  /-- To store a right-hand side as it is given. -/
  | call (place : Location) (rvalue : Rvalue)
  /-- To run the destructor of a local. -/
  | drop (name : String)
  /-- To end the storage of a local. -/
  | storageDead (name : String)
  /-- To do nothing for one step. -/
  | nop
  /-- To go to one of some blocks. -/
  | goto (targets : List String)
  /-- To go to one of some blocks, as a value says. -/
  | switch (source : Source) (targets : List String)
  /-- To leave the function. -/
  | ret

/-- The place that is meant. -/
def Location.toPlace : Location → Except Fault Place
  | .path text => Place.parse text
  | .given place => .ok place

/-- The operand that a value stands for. -/
def Source.toOperand : Source → Except Fault Operand
  | .path text => (Place.parse text).map .copy
  | .given operand => .ok operand

namespace Action

/-- What an action adds to its block. The places are read from left to right, but the value of an
assignment before its destination. -/
def addition : Action → Except Fault (Option Addition)
  | .touch => .ok none
  | .push statement => .ok (some (.statement statement))
  | .assign place source => do
    let operand ← source.toOperand
    let place ← place.toPlace
    return some (.statement (.assign place (.use operand)))
  | .assignRvalue place (.const value) => do
    let place ← place.toPlace
    return some (.statement (.assign place (.use (.const value))))
  | .assignRvalue place rvalue => do
    let place ← place.toPlace
    return some (.statement (.assign place rvalue))
  | .borrow place lifetime mutable of => do
    let place ← place.toPlace
    let of ← of.toPlace
    return some (.statement (.assign place (.borrow lifetime mutable of)))
  | .write place value => do
    let place ← place.toPlace
    return some (.statement (.assign place (.use (.const value))))
  | .use sources => do
    let operands ← sources.mapM Source.toOperand
    return some (.statement (.use operands))
  | .move place source => do
    let place ← place.toPlace
    let source ← source.toPlace
    return some (.statement (.assign place (.use (.move source))))
  | .call place rvalue => do
    let place ← place.toPlace
    return some (.statement (.assign place rvalue))
  | .drop name => .ok (some (.statement (.drop name)))
  | .storageDead name => .ok (some (.statement (.storageDead name)))
  | .nop => .ok (some (.statement .nop))
  | .goto targets => .ok (some (.terminator (.goto targets)))
  | .switch source targets => do
    let operand ← source.toOperand
    return some (.terminator (.switch operand targets))
  | .ret => .ok (some (.terminator .ret))

end Action

namespace BlockDraft

/-- The point that the next statement will have. -/
def nextPoint (block : BlockDraft) : Point :=
  ⟨block.name, block.statements.length⟩

/-- The block with something added at its end. -/
def add (block : BlockDraft) (addition : Addition) : Except Fault BlockDraft :=
  if block.terminator.isSome then .error (.alreadyTerminated block.name)
  else
    match addition with
    | .statement statement => .ok { block with statements := block.statements ++ [statement] }
    | .terminator terminator => .ok { block with terminator := some terminator }

/-- The finished block. -/
def finish (block : BlockDraft) : Except Fault Block :=
  match block.terminator with
  | some terminator => .ok ⟨block.name, block.statements, terminator⟩
  | none => .error (.unterminated block.name)

end BlockDraft

namespace Draft

/-- The block of that name, new or as it is. -/
def block (draft : Draft) (name : String) : BlockDraft :=
  (draft.blocks.find? (·.name == name)).getD { name := name }

/-- The draft in which the block of that name has been mentioned. -/
def mention (draft : Draft) (name : String) : Draft :=
  if draft.blocks.any (·.name == name) then draft
  else ⟨draft.blocks ++ [{ name := name }]⟩

/-- The draft with another block in the place of the one of its name. -/
def replace (draft : Draft) (block : BlockDraft) : Draft :=
  ⟨draft.blocks.map fun other => if other.name = block.name then block else other⟩

/-- The draft after an action on a block that has been mentioned. -/
def act (draft : Draft) (name : String) (action : Action) : Except Fault Draft := do
  match ← action.addition with
  | none => return draft
  | some addition => return draft.replace (← (draft.block name).add addition)

/-- The finished graph, entered at a named block or else at the first one mentioned. -/
def finish (draft : Draft) (chosen : Option String := none) : Except Fault Graph := do
  Graph.ofBlocks (← draft.blocks.mapM BlockDraft.finish) chosen

/-! ### Calls -/

/-- A call to a graph under construction. -/
inductive Call where
  /-- To mention a block and act on it. -/
  | act (name : String) (action : Action)
  /-- To mention a block and finish it by itself. -/
  | finishBlock (name : String)
  /-- To finish the graph. -/
  | finish (chosen : Option String)

/-- What a call gives. -/
inductive Answer where
  /-- The point that the next statement of the block will have. -/
  | next (point : Point)
  /-- The finished block. -/
  | block (block : Block)
  /-- The finished graph. -/
  | graph (graph : Graph)

/-- Serves a call. What was done before a failure stays, so a block is there once a call has
mentioned it. -/
def serve : Call → ExceptT Fault (StateM Draft) Answer
  | .act name action => do
    modify (·.mention name)
    set (← (← get).act name action)
    return .next ((← get).block name).nextPoint
  | .finishBlock name => do
    modify (·.mention name)
    return .block (← ((← get).block name).finish)
  | .finish chosen => return .graph (← (← get).finish chosen)

end Draft

end RegionInference
