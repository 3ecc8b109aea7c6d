import RegionInference.Body.Basic
import RegionInference.Dataflow.Backward

/-!
# Liveness

For each point, the locals whose value may still be read, and those whose value may still be
dropped. The two are kept apart because they keep different lifetimes alive: a read needs all
lifetimes of the type, a drop only those that the destructor may touch.
-/

namespace RegionInference

/-- The locals that may still be read, and those that may still be dropped. -/
abbrev LiveFact := NameSet × NameSet

/-- The live locals of each point of a body. -/
structure Liveness where
  /-- The body. -/
  body : Body
  /-- The facts by the number of the point. -/
  facts : Array LiveFact
  /-- How many blocks were processed. -/
  iterations : Nat

namespace Liveness

/-- Pairs of sets of names. -/
def lattice : Lattice LiveFact :=
  .prod .names .names

/-- What is live before an element, from what is live after it. -/
def step (element : Element) (fact : LiveFact) : LiveFact :=
  let defs := NameSet.ofList element.defs
  ((fact.1.diff defs).union (.ofList element.uses),
    (fact.2.diff defs).union (.ofList element.drops))

/-- What is live before some elements in a row. -/
def stepAll (elements : List Element) (fact : LiveFact) : LiveFact :=
  elements.foldr step fact

/-- What is live before each of some elements in a row. -/
def sweep (fact : LiveFact) : List Element → List LiveFact
  | [] => []
  | element :: elements =>
    let rest := sweep fact elements
    step element (rest.headD fact) :: rest

/-- The analysis of the blocks of a graph. -/
def analysis (g : Graph) : Backward LiveFact :=
  .ofGraph g lattice (fun block => stepAll block.elements) lattice.bottom

/-- The facts of each point, from the facts at the ends of the blocks. -/
def pointFacts (g : Graph) (ends : List LiveFact) : List LiveFact :=
  (g.blocks.zip ends).flatMap fun (block, fact) => sweep fact block.elements

/-- How often a local is read or dropped. Each of the two parts of a fact holds at most so many. -/
def mentions (g : Graph) : Nat :=
  g.elementTable.foldl (fun count element => count + element.uses.length + element.drops.length) 0

/-- Runs the analysis. Stopping short of the fixpoint is a fault, since regions would come out too
small. -/
def run (body : Body) (order : Order := .postorder)
    (bound : Bound := .count defaultIterationLimit) : Except Fault Liveness := do
  let state ← (analysis body.graph).runBelow order bound (2 * mentions body.graph)
  if state.converged then
    let facts := (pointFacts body.graph state.ends).toArray
    return { body, facts, iterations := state.iterations }
  else throw (.limitReached .liveness state.iterations bound)

/-- What is live at the point with a number. -/
def factAt (liveness : Liveness) (i : Nat) : LiveFact :=
  liveness.facts[i]?.getD lattice.bottom

/-- The locals that are live at the point with a number. -/
def liveAt (liveness : Liveness) (i : Nat) : NameSet :=
  (liveness.factAt i).1.union (liveness.factAt i).2

/-- Whether a local is live at a point. -/
def isLive (liveness : Liveness) (name : String) (point : Point) : Except Fault Bool :=
  (liveness.body.graph.index point).map fun i => name ∈ liveness.liveAt i

/-- The lifetimes of the type of a local. -/
def typeLifetimes (body : Body) (name : String) : Except Fault (List String) :=
  (body.var name).map (·.ty.lifetimes)

/-- The lifetimes that are live at the point with a number. -/
def lifetimesAt (liveness : Liveness) (i : Nat) : Except Fault NameSet := do
  let fact := liveness.factAt i
  let read ← fact.1.toList.mapM (typeLifetimes liveness.body)
  let dropped ← fact.2.toList.mapM liveness.body.nonDangling
  return .ofList (read.flatten ++ dropped.flatten)

/-- The locals that are used at a point, with the lifetimes that the use needs: all of the type
for a read, those that the destructor may touch for a drop. A drop that needs none is left out. -/
def useSites (body : Body) (element : Element) : Except Fault (NameMap (List String)) := do
  let read ← element.uses.mapM fun name => do return (name, ← typeLifetimes body name)
  let dropped ← element.drops.mapM fun name => do return (name, ← body.nonDangling name)
  return .ofList (read ++ dropped.filter fun (name, needed) =>
    !needed.isEmpty && name ∉ element.uses)

end Liveness

end RegionInference
