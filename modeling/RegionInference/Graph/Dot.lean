import RegionInference.Graph.Dominance

/-!
# Graphs in the DOT language

A node for each block, with its elements and, where regions are given, the lifetimes whose regions
hold the point; an edge for each edge, drawn by its kind.
-/

namespace RegionInference.Graph

/-- The text with a backslash before each double quote. -/
def escapeQuotes (text : String) : String :=
  String.ofList (text.toList.flatMap fun c => if c = '"' then ['\\', '"'] else [c])

/-- The mark of a point that lies in regions: the names of their lifetimes in increasing order. -/
def regionMark (regions : List (String × List Point)) (point : Point) : String :=
  let names := regions.flatMap fun (name, points) =>
    (points.filter (· = point)).map fun _ => "'" ++ name
  if names.isEmpty then ""
  else "  \x7b" ++ ", ".intercalate (names.mergeSort fun a b => !(b < a)) ++ "\x7d"

/-- The node of a block. -/
def dotNode (g : Graph) (regions : List (String × List Point)) (block : Block) : String :=
  let rows := (block.rows.zip block.points).map fun (row, point) =>
    escapeQuotes (row ++ regionMark regions point)
  let colour :=
    if block.name = g.entry then ", style=filled, fillcolor=\"#ccffcc\""
    else if block.successors.isEmpty then ", style=filled, fillcolor=\"#ffcccc\""
    else ""
  "  \"" ++ block.name ++ "\" [label=\"" ++ block.name ++ "\\n" ++
    "\\l".intercalate rows ++ "\\l\"" ++ colour ++ "];"

/-- The line of an edge. -/
def dotEdge (edge : Edge) : String :=
  let style := match edge.kind with
    | .backEdge => ", style=dashed, color=blue"
    | .switchCase => ", color=darkgreen"
    | .goto => ""
  "  \"" ++ edge.source ++ "\" -> \"" ++ edge.target ++ "\" [label=\"" ++ edge.kind.text ++ "\"" ++
    style ++ "];"

/-- The graph in the DOT language. An empty title counts as none. -/
def dot (g : Graph) (title : String := "") (regions : List (String × List Point) := []) : String :=
  "\n".intercalate
    (["digraph CFG \x7b"] ++
      (if title.isEmpty then [] else ["  label=\"" ++ title ++ "\";"]) ++
      ["  node [shape=box, fontname=monospace, fontsize=10];"] ++
      g.blocks.map (g.dotNode regions) ++ g.edges.map dotEdge ++ ["\x7d"])

end RegionInference.Graph
