import RegionInference.Body.Basic
import RegionInference.Graph.Draft

/-!
# Drafts of bodies

A body under construction: declarations are noted as they come, and the graph is drafted block by
block.
-/

namespace RegionInference

/-- A body under construction. -/
structure BodyDraft where
  /-- The name of the function. -/
  name : String := "fn"
  /-- The locals so far. -/
  vars : List Variable := []
  /-- The declared lifetimes so far. -/
  placeholders : List Lifetime := []
  /-- The obligations so far. -/
  obligations : List Obligation := []
  /-- Whether the destructor of a local leaves data of a lifetime alone, if that is not for its type
  to say. -/
  mayDangle : Option (Variable → String → Bool) := none
  /-- The graph so far. -/
  blocks : Draft := {}

namespace BodyDraft

/-- Declares a local. -/
def declare (draft : BodyDraft) (name : String) (ty : Ty) : BodyDraft :=
  { draft with vars := draft.vars ++ [⟨name, ty⟩] }

/-- Declares a lifetime with a fixed region: some points, or else every point. -/
def placeholder (draft : BodyDraft) (name : String) (points : Option (List Point) := none) :
    BodyDraft :=
  let lifetime : Lifetime :=
    { name, kind := .placeholder, fixed := points, coversAll := points.isNone }
  { draft with placeholders := draft.placeholders ++ [lifetime] }

/-- Demands something from outside. -/
def demand (draft : BodyDraft) (obligation : Obligation) : BodyDraft :=
  { draft with obligations := draft.obligations ++ [obligation] }

/-- Says which data the destructors of locals leave alone. -/
def letDangle (draft : BodyDraft) (rule : Variable → String → Bool) : BodyDraft :=
  { draft with mayDangle := some rule }

/-- Adds to a block of the graph. -/
def act (draft : BodyDraft) (block : String) (action : Action) : Except Fault BodyDraft :=
  ((draft.blocks.mention block).act block action).map fun blocks => { draft with blocks }

/-- The body that was drafted, entered at a named block or else at the first one. -/
def finish (draft : BodyDraft) (chosen : Option String := none) : Except Fault Body := do
  let graph ← draft.blocks.finish chosen
  let parts : BodyParts := {
    name := draft.name, graph, vars := draft.vars
    placeholders := draft.placeholders, obligations := draft.obligations }
  Body.ofParts { parts with mayDangle := draft.mayDangle.getD parts.mayDangle }

end BodyDraft

end RegionInference
