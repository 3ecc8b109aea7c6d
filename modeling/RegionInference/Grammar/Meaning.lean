import RegionInference.Body.Basic
import RegionInference.Grammar.Rules

/-!
# The bodies of a text

The functions of a text that follows the grammar, as bodies. What can still turn out wrong is found
in the order of the text, and in what encloses after what is enclosed.
-/

namespace RegionInference

namespace Grammar

open Text

/-- The line and column of a position of a text. -/
def positionOf (text : List Char) (pos : Nat) : Position :=
  ⟨lineOf text pos, columnOf text pos⟩

/-- Reads the trees of a text. -/
def parse (text : String) : Except Fault (List ItemTree) :=
  match file (Cursor.ofText text) with
  | (some (items, _), _) => .ok items
  | (none, trace) =>
    let (pos, name) := trace.report
    .error (.unexpectedText (name.getD "input") (positionOf text.toList pos))

/-- What is known when a part of a text is looked at: the text, and the structs declared so far. -/
structure Context where
  /-- The text. -/
  text : List Char
  /-- The structs declared so far. -/
  structs : NameMap AdtDecl := {}

namespace Context

/-- The fault of a declaration at a position. -/
def declarationFault (context : Context) (pos : Nat) (error : DeclarationError) : Fault :=
  .declaration error (positionOf context.text pos)

/-- The declaration of a nominal type. A cell need not be declared. -/
def struct? (context : Context) (name : String) : Option AdtDecl :=
  match context.structs.get? name with
  | some decl => some decl
  | none => if name = AdtDecl.cell.name then some .cell else none

/-! ### Places -/

/-- Reads the stretch of text of a place as a place. -/
def readPlace (context : Context) (span : Span) : Except Fault Place :=
  (Place.ofText span.text).mapError (.unreadablePlace · (positionOf context.text span.start))

/-- The place that is written, read from its own text after the places inside it. -/
def place (context : Context) : PlaceTree → Except Fault Place
  | .star span inner => do
    let _ ← context.place inner
    context.readPlace span
  | .group span inner _ => do
    let _ ← context.place inner
    context.readPlace span
  | .name span _ _ => context.readPlace span

/-! ### Types -/

/-- A type with its arguments, of which a name that is not declared has none. -/
def instantiate (context : Context) (start : Nat) (name : String) (lifetimes : List String)
    (args : List Ty) : Except Fault Ty :=
  match context.struct? name with
  | some decl =>
    (Ty.instantiate decl lifetimes args).mapError fun _ =>
      context.declarationFault start (.arity decl.name)
  | none =>
    if lifetimes.isEmpty && args.isEmpty then .ok (.scalar name)
    else .error (context.declarationFault start (.unknownGeneric name))

mutual

/-- The type that is written. -/
def type (context : Context) : TypeTree → Except Fault Ty
  | .ref lifetime mutable referent => (context.type referent).map (.ref lifetime mutable)
  | .named start name lifetimes args => do
    let args ← context.types args
    context.instantiate start name lifetimes args

/-- The types that are written. -/
def types (context : Context) : List TypeTree → Except Fault (List Ty)
  | [] => .ok []
  | ty :: tys => do
    let ty ← context.type ty
    return ty :: (← context.types tys)

end

/-! ### Statements -/

/-- The operand that is written. -/
def operand (context : Context) : OperandTree → Except Fault Operand
  | .copy place => (context.place place).map .copy
  | .move place => (context.place place).map .move
  | .const value => .ok (.const value)

/-- The right-hand side that is written. -/
def rvalue (context : Context) : RvalueTree → Except Fault Rvalue
  | .borrow lifetime mutable place => (context.place place).map (.borrow lifetime mutable)
  | .call func args none => do
    return .call func (← args.mapM context.operand) [] none
  | .call func args (some signature) => do
    let args ← args.mapM context.operand
    let params ← context.types signature.params
    let result ← signature.result.mapM context.type
    return .call func args params result
  | .use operand => (context.operand operand).map .use

/-- The statement that is written. -/
def statement (context : Context) : StatementTree → Except Fault Statement
  | .assign place rvalue => do
    let place ← context.place place
    return .assign place (← context.rvalue rvalue)
  | .use operands => (operands.mapM context.operand).map .use
  | .drop name => .ok (.drop name)
  | .storageDead name => .ok (.storageDead name)
  | .nop => .ok .nop

/-- The terminator that is written. -/
def terminator (context : Context) : TerminatorTree → Except Fault Terminator
  | .goto targets => .ok (.goto targets)
  | .switch operand targets => do
    return .switch (← context.operand operand) targets
  | .ret => .ok .ret

/-! ### Functions and structs -/

/-- The point that is written. -/
def point (text : String) : Except Fault Point :=
  (Point.ofText text).mapError .unreadablePoint

/-- What the items of a function say. -/
structure FunctionParts where
  /-- The locals. -/
  vars : List Variable := []
  /-- The lifetimes with fixed regions. -/
  placeholders : List Lifetime := []
  /-- The demands. -/
  obligations : List Obligation := []
  /-- The blocks. -/
  blocks : List Block := []

/-- Adds what an item of a function says. -/
def addItem (context : Context) (parts : FunctionParts) :
    FunctionItem → Except Fault FunctionParts
  | .declare name ty => do
    return { parts with vars := parts.vars ++ [⟨name, ← context.type ty⟩] }
  | .placeholder name points => do
    let fixed ← points.mapM fun points => points.mapM point
    let lifetime : Lifetime := { name, kind := .placeholder, fixed, coversAll := fixed.isNone }
    return { parts with placeholders := parts.placeholders ++ [lifetime] }
  | .outlives longer shorter written => do
    return { parts with
      obligations := parts.obligations ++ [.outlives longer shorter (← point written)] }
  | .block name statements terminator => do
    let statements ← statements.mapM context.statement
    let terminator ← context.terminator terminator
    return { parts with blocks := parts.blocks ++ [⟨name, statements, terminator⟩] }

/-- The body of a function. -/
def function (context : Context) (start : Nat) (name : String) (items : List FunctionItem) :
    Except Fault Body := do
  let parts ← items.foldlM context.addItem {}
  if parts.blocks.isEmpty then throw (context.declarationFault start (.noBlocks name))
  let graph ← Graph.ofBlocks parts.blocks
  Body.ofParts {
    name, graph, vars := parts.vars, placeholders := parts.placeholders
    obligations := parts.obligations }

/-- A parameter of a struct; of several variances the last counts. -/
def param (tree : ParamTree) : AdtParam :=
  tree.keywords.foldl
    (fun param word =>
      if word = "may_dangle" then { param with mayDangle := true }
      else
        match Variance.ofText word with
        | .ok variance => { param with variance }
        | .error _ => param)
    ⟨tree.name, .covariant, false⟩

/-- The context with one more struct. -/
def struct (context : Context) (start : Nat) (name : String) (params : List ParamTree)
    (hasDestructor : Bool) : Except Fault Context :=
  if context.structs.contains name then
    .error (context.declarationFault start (.duplicateType name))
  else
    let decl : AdtDecl :=
      ⟨name, (params.filter (·.isLifetime)).map param, (params.filter (!·.isLifetime)).map param,
        hasDestructor⟩
    .ok { context with structs := context.structs.set name decl }

/-- The bodies of the functions among some items. -/
def bodies (context : Context) : List ItemTree → Except Fault (List Body)
  | [] => .ok []
  | .struct start name params hasDestructor :: items => do
    (← context.struct start name params hasDestructor).bodies items
  | .function start name functionItems :: items => do
    let body ← context.function start name functionItems
    return body :: (← context.bodies items)

end Context

end Grammar

/-- The bodies of the functions of a text. -/
def Body.allOfText (text : String) : Except Fault (List Body) := do
  ({ text := text.toList } : Grammar.Context).bodies (← Grammar.parse text)

/-- The body of the only function of a text. -/
def Body.ofText (text : String) : Except Fault Body := do
  match ← Body.allOfText text with
  | [body] => return body
  | bodies => throw (.functionCount bodies.length)

end RegionInference
