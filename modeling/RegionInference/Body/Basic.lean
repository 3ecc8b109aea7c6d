import RegionInference.Lifetime
import RegionInference.Loan.Fact
import RegionInference.NameMap
import RegionInference.Ty.Drop

/-!
# Function bodies

A body is a graph with the types of its locals, the lifetimes with fixed regions, and what is
demanded of lifetimes from outside. The other lifetimes are not declared: every lifetime that is
mentioned by a type, a borrow, a call or a demand is one that is solved for.

A body is made of parts without a fault: no local and no placeholder is declared twice, and
whatever the parts name is declared.
-/

namespace RegionInference

open Text

/-- A local with its type. -/
structure Variable where
  /-- The name. -/
  name : String
  /-- The type. -/
  ty : Ty

/-- A local as it is declared. -/
def Variable.text (v : Variable) : String :=
  v.name ++ ": " ++ v.ty.text

/-- What is demanded at a point from outside. -/
inductive Obligation where
  /-- A lifetime outlives another. -/
  | outlives (longer shorter : String) (point : Point)
  /-- A type is a subtype of another, at a variance. -/
  | subtype (sub sup : Ty) (point : Point) (variance : Variance)

namespace Obligation

/-- The point of an obligation. -/
def point : Obligation → Point
  | .outlives _ _ point => point
  | .subtype _ _ point _ => point

/-- The lifetimes that an obligation mentions. -/
def lifetimes : Obligation → List String
  | .outlives longer shorter _ => [longer, shorter]
  | .subtype sub sup _ _ => sub.lifetimes ++ sup.lifetimes

end Obligation

/-- The parts of a body, which need not fit together. -/
structure BodyParts where
  /-- The name of the function. -/
  name : String
  /-- The graph. -/
  graph : Graph
  /-- The locals. -/
  vars : List Variable
  /-- The declared lifetimes. -/
  placeholders : List Lifetime := []
  /-- What is demanded from outside. -/
  obligations : List Obligation := []
  /-- Whether the destructor of a local leaves data of a lifetime alone. -/
  mayDangle : Variable → String → Bool := fun v lifetime =>
    lifetime ∉ v.ty.dropLifetimes
  /-- The loans, if they are not those of the statements. -/
  loans : Option (List Loan) := none
  /-- The accesses, if they are not those of the statements. -/
  accesses : Option (List Access) := none
  /-- The scope exits, if they are not those of the statements. -/
  exits : Option (List ScopeExit) := none

/-! ### Lifetimes -/

/-- The lifetimes that the signature of a call or a borrow mentions. -/
def Rvalue.lifetimes : Rvalue → List String
  | .borrow lifetime _ _ => [lifetime]
  | .call _ _ params result =>
    params.flatMap Ty.lifetimes ++ (result.elim [] Ty.lifetimes)
  | _ => []

/-- The lifetimes that an element mentions. -/
def Element.lifetimes : Element → List String
  | .stmt (.assign _ rvalue) => rvalue.lifetimes
  | _ => []

namespace BodyParts

/-- The names of the locals. -/
def names (parts : BodyParts) : List String :=
  parts.vars.map Variable.name

/-- The lifetimes mentioned anywhere, in the order of their first mention. -/
def mentioned (parts : BodyParts) : List String :=
  (parts.vars.flatMap (·.ty.lifetimes) ++
    parts.graph.elementTable.toList.flatMap Element.lifetimes ++
    parts.obligations.flatMap Obligation.lifetimes).eraseDups

/-- All lifetimes: the declared ones, then the others that are mentioned. -/
def lifetimes (parts : BodyParts) : List Lifetime :=
  parts.placeholders ++
    (parts.mentioned.filter (· ∉ parts.placeholders.map Lifetime.name)).map fun name =>
      { name := name }

/-! ### Faults -/

/-- A local that is declared twice. -/
def variableFault? (parts : BodyParts) : Option Fault :=
  (repeatedName? [] parts.names).map .duplicateVariable

/-- A declared lifetime that was declared before, or that has points outside the graph. -/
def placeholderFault? (g : Graph) (seen : List String) : List Lifetime → Option Fault
  | [] => none
  | lifetime :: lifetimes =>
    if lifetime.name ∈ seen then some (.duplicateLifetime lifetime.name)
    else
      match (lifetime.fixed.getD []).find? (!g.contains ·) with
      | some point => some (.unknownPoint point)
      | none => placeholderFault? g (lifetime.name :: seen) lifetimes

/-- An element that names a local that is not declared. -/
def elementFault? (parts : BodyParts) : Option Fault :=
  parts.graph.items.findSome? fun (point, element) =>
    (element.names.find? (· ∉ parts.names)).map (.unknownVariableAt · point)

/-- An obligation at a point outside the graph. -/
def obligationFault? (parts : BodyParts) : Option Fault :=
  (parts.obligations.find? (!parts.graph.contains ·.point)).map (.unknownPoint ·.point)

/-- A fact about a point outside the graph, or about a local or lifetime that is not declared. -/
def factFault? (parts : BodyParts) (text : String) (point : Point) (name : String)
    (lifetime : Option String) : Option Fault :=
  if !parts.graph.contains point then some (.unknownFactPoint text point)
  else if name ∉ parts.names then some (.unknownVariable name)
  else (lifetime.filter (· ∉ parts.lifetimes.map Lifetime.name)).map .unknownLifetime

/-- A given fact that has a fault. -/
def factsFault? (parts : BodyParts) : Option Fault :=
  ((parts.loans.getD []).findSome? fun loan =>
      parts.factFault? loan.text loan.point loan.path.base (some loan.lifetime)) <|>
    ((parts.accesses.getD []).findSome? fun access =>
      parts.factFault? access.text access.point access.path.base access.through) <|>
    ((parts.exits.getD []).findSome? fun exit =>
      parts.factFault? exit.text exit.point exit.name none)

/-- The first fault of the parts. -/
def fault? (parts : BodyParts) : Option Fault :=
  parts.variableFault? <|> placeholderFault? parts.graph [] parts.placeholders <|>
    parts.elementFault? <|> parts.obligationFault? <|> parts.factsFault?

end BodyParts

/-- A function body: parts without a fault. -/
structure Body extends BodyParts where
  /-- The parts have no fault. -/
  valid : toBodyParts.fault? = none

namespace Body

/-- The body of some parts, which must have no fault. -/
def ofParts (parts : BodyParts) : Except Fault Body :=
  match h : parts.fault? with
  | some fault => .error fault
  | none => .ok ⟨parts, h⟩

/-- The local of that name, which has to be declared. -/
def var (body : Body) (name : String) : Except Fault Variable :=
  match body.vars.find? (·.name == name) with
  | some found => .ok found
  | none => .error (.unknownVariable name)

/-- The lifetime of that name, which has to be mentioned somewhere. -/
def lifetime (body : Body) (name : String) : Except Fault Lifetime :=
  match body.lifetimes.find? (·.name == name) with
  | some found => .ok found
  | none => .error (.unknownLifetime name)

/-- The lifetimes by their names. -/
def declared (body : Body) : NameMap Lifetime :=
  ⟨body.lifetimes.map fun lifetime => (lifetime.name, lifetime)⟩

/-- The lifetimes of the type of a local that its destructor may touch. -/
def nonDangling (body : Body) (name : String) : Except Fault (List String) :=
  (body.var name).map fun found =>
    found.ty.lifetimes.filter fun lifetime => !body.mayDangle found lifetime

/-- A short description of the body. -/
def summary (body : Body) : String :=
  s!"FunctionBody({quote body.name}, {body.graph.blocks.length} blocks, " ++
    s!"{body.vars.length} vars, {body.lifetimes.length} lifetimes)"

end Body

end RegionInference
