import RegionInference.Body.Basic
import RegionInference.Graph.Dominance
import RegionInference.Ty.Printer

/-!
# The printed forms of bodies

Places, statements, graphs and whole bodies as JSON values.
-/

namespace RegionInference

/-- Points as an array of their texts. -/
def Json.points (points : List Point) : Json :=
  .strs (points.map Point.text)

/-- A projection as its text. -/
def Projection.toJson : Projection → Json
  | .deref => .str "*"
  | .index => .str "[]"
  | .field name => .str ("." ++ name)

/-- A place as an object. -/
def Place.toJson (place : Place) : Json :=
  .obj [
    ("text", .str place.text),
    ("base", .str place.base),
    ("proj", .arr (place.projections.map Projection.toJson)),
    ("local", .bool place.isLocal),
    ("deref", .bool place.throughDeref),
    ("prefixes", .strs (place.prefixes.map Place.text))]

namespace Element

/-- What kind of statement or terminator an element is. -/
def kindText : Element → String
  | .stmt (.assign _ _) => "Assign"
  | .stmt (.use _) => "Use"
  | .stmt (.drop _) => "Drop"
  | .stmt (.storageDead _) => "StorageDead"
  | .stmt .nop => "Nop"
  | .term (.goto _) => "Goto"
  | .term (.switch _ _) => "Switch"
  | .term .ret => "Return"

/-- What an assignment assigns, as members of an object. -/
def valueMembers : Element → List (String × Json)
  | .stmt (.assign _ (.use _)) => [("rvalue", .str "UseOperand")]
  | .stmt (.assign _ (.borrow _ _ _)) => [("rvalue", .str "Borrow")]
  | .stmt (.assign _ (.const _)) => [("rvalue", .str "Const")]
  | .stmt (.assign _ (.call _ _ params result)) =>
    [("rvalue", .str "Call"), ("params", .arr (Ty.toJsons params)),
      ("ret", .option Ty.toJson result)]
  | _ => []

/-- An element as an object. -/
def toJson (element : Element) : Json :=
  .obj ([
    ("kind", .str element.kindText),
    ("text", .str element.text),
    ("uses", .strs element.uses),
    ("defs", .strs element.defs),
    ("drops", .strs element.drops)] ++ element.valueMembers)

end Element

/-- The edges of a graph as an array. -/
def Graph.edgesJson (g : Graph) : Json :=
  .arr (g.edges.map fun edge => .strs [edge.source, edge.target, edge.kind.text])

/-- An obligation as an array. -/
def Obligation.toJson : Obligation → Json
  | .outlives longer shorter point => .strs [longer, shorter, point.text]
  | .subtype sub sup point variance => .strs [sub.text, sup.text, point.text, variance.symbol]

/-- A lifetime as an array; its fixed points have to be points of the graph. -/
def Lifetime.toJson (lifetime : Lifetime) (g : Graph) : Except Fault Json := do
  let fixed ← lifetime.fixed.mapM fun points => do g.pointsOf (← g.setOf points)
  return .arr [.str lifetime.name, .str lifetime.kind.text, .option .points fixed,
    .bool lifetime.coversAll]

/-- A body as an object. -/
def Body.toJson (body : Body) : Except Fault Json := do
  let block (block : Block) : Json :=
    .arr [.str block.name, .arr (block.elements.map Element.toJson)]
  let lifetimes ← body.lifetimes.mapM (·.toJson body.graph)
  return .obj [
    ("name", .str body.name),
    ("repr", .str body.summary),
    ("entry", .str body.graph.entry),
    ("blocks", .arr (body.graph.blocks.map block)),
    ("edges", body.graph.edgesJson),
    ("variables", .arr (body.vars.map fun v => .arr [.str v.name, v.ty.toJson])),
    ("lifetimes", .arr lifetimes),
    ("obligations", .arr (body.obligations.map Obligation.toJson))]

end RegionInference
