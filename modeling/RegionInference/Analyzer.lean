import RegionInference.Liveness

/-!
# Liveness on request

An analyzer has the facts of liveness when they are asked for: the first question runs the analysis,
later ones read what it found, and the live lifetimes of a point are worked out once. A run that is
stopped leaves no facts behind, so the next question runs the analysis again. What the engine made
of the blocks until then is not kept here: no question reads the result of a run, only the facts of
the points that are worked out from it once it has come to its end.
-/

namespace RegionInference

/-- An analysis of liveness that is run when it is needed. -/
structure Analyzer where
  /-- The body. -/
  body : Body
  /-- In which order blocks are processed. -/
  order : Order := .postorder
  /-- The bound on the number of blocks that are processed. -/
  bound : Bound := .count defaultIterationLimit
  /-- The facts by the number of the point, none before a run has come to its end. -/
  facts : Array LiveFact := #[]
  /-- How many blocks the run processed that gave the facts. -/
  iterations : Nat := 0
  /-- The live lifetimes of the points that were asked about, by the number of the point. -/
  lifetimes : List (Nat × NameSet) := []

namespace Analyzer

/-- The facts there are. -/
def liveness (analyzer : Analyzer) : Liveness :=
  ⟨analyzer.body, analyzer.facts, analyzer.iterations⟩

/-- Runs the analysis. What was found before is replaced only if the run comes to its end. -/
def run (analyzer : Analyzer) : Analyzer × Except Fault Unit :=
  match Liveness.run analyzer.body analyzer.order analyzer.bound with
  | .error fault => (analyzer, .error fault)
  | .ok found =>
    ({ analyzer with facts := found.facts, iterations := found.iterations, lifetimes := [] },
      .ok ())

/-- Runs the analysis unless there are facts. -/
def ready (analyzer : Analyzer) : Analyzer × Except Fault Unit :=
  if analyzer.facts.isEmpty then analyzer.run else (analyzer, .ok ())

/-- What is live at a point. -/
def fact (analyzer : Analyzer) (point : Point) : Analyzer × Except Fault LiveFact :=
  match analyzer.ready with
  | (analyzer, .error fault) => (analyzer, .error fault)
  | (analyzer, .ok ()) =>
    (analyzer, (analyzer.body.graph.index point).map analyzer.liveness.factAt)

/-- The locals whose value may still be read at a point. -/
def useLive (analyzer : Analyzer) (point : Point) : Analyzer × Except Fault NameSet :=
  let reply := analyzer.fact point
  (reply.1, reply.2.map Prod.fst)

/-- The locals whose value may still be dropped at a point. -/
def dropLive (analyzer : Analyzer) (point : Point) : Analyzer × Except Fault NameSet :=
  let reply := analyzer.fact point
  (reply.1, reply.2.map Prod.snd)

/-- The locals that are live at a point. -/
def liveIn (analyzer : Analyzer) (point : Point) : Analyzer × Except Fault NameSet :=
  let reply := analyzer.fact point
  (reply.1, reply.2.map fun fact => fact.1.union fact.2)

/-- Whether a local is live at a point. -/
def isLive (analyzer : Analyzer) (name : String) (point : Point) : Analyzer × Except Fault Bool :=
  let reply := analyzer.liveIn point
  (reply.1, reply.2.map fun live => name ∈ live)

/-- The lifetimes that are live at a point. -/
def liveLifetimes (analyzer : Analyzer) (point : Point) : Analyzer × Except Fault NameSet :=
  match analyzer.body.graph.index point with
  | .error fault => (analyzer, .error fault)
  | .ok i =>
    match analyzer.lifetimes.lookup i with
    | some known => (analyzer, .ok known)
    | none =>
      match analyzer.ready with
      | (analyzer, .error fault) => (analyzer, .error fault)
      | (analyzer, .ok ()) =>
        match analyzer.liveness.lifetimesAt i with
        | .error fault => (analyzer, .error fault)
        | .ok found => ({ analyzer with lifetimes := (i, found) :: analyzer.lifetimes }, .ok found)

end Analyzer

end RegionInference
