import RegionInference.Grammar.Token
import RegionInference.Grammar.Tree

/-!
# The rules of the grammar

Each rule is a parser of its own name; the names are what is told about a text that cannot be read.
The two rules that contain themselves, for places and for types, are given a depth that bounds how
often they do; the length of the text ahead is always enough, since each time around reads at least
one character.
-/

namespace RegionInference.Grammar

open Grammar.Parser

/-! ### Places -/

/-- A field, or an index with any text in it. -/
def projection : Parser Projection :=
  rule "projection" (oneOf [
    do
      literal "."
      return .field (← ident),
    do
      literal "["
      let _ ← token fun cs => some (cs.takeWhile (· != ']')).length
      literal "]"
      return .index])

/-- The stretch of text that a parser reads. -/
def spanned (p : Parser (Span → α)) : Parser α := do
  let start ← position
  let (text, build) ← withText p
  return build ⟨start, text⟩

/-- A place whose parentheses and stars are at most so deep. -/
def placeWithin : Nat → Parser PlaceTree
  | 0 => fun cursor => (none, .unnamed cursor.pos)
  | depth + 1 =>
    rule "place" (spanned (oneOf [
      do
        literal "*"
        blanks
        let inner ← placeWithin depth
        return fun span => .star span inner,
      rule "base_place" (do
        let head ← oneOf [
          do
            literal "("
            blanks
            let inner ← placeWithin depth
            blanks
            literal ")"
            return fun span steps => PlaceTree.group span inner steps,
          do
            let base ← ident
            return fun span steps => PlaceTree.name span base steps]
        let steps ← many projection
        return fun span => head span steps)]))

/-- A place. -/
def place : Parser PlaceTree :=
  fun cursor => placeWithin (cursor.rest.length + 1) cursor

/-! ### Types -/

/-- The mark of a mutable reference. -/
def mutable : Parser Unit :=
  rule "mut_kw" do
    literal "mut"
    spacing

/-- The name of a type with its arguments. -/
def namedType (start : Nat) (name : String) (args : List TypeArg) : TypeTree :=
  .named start name
    (args.filterMap fun
      | .lifetime name => some name
      | .type _ => none)
    (args.filterMap fun
      | .lifetime _ => none
      | .type ty => some ty)

/-- A type whose parts are at most so deep. -/
def typeWithin : Nat → Parser TypeTree
  | 0 => fun cursor => (none, .unnamed cursor.pos)
  | depth + 1 =>
    rule "type" (oneOf [
      rule "ref_type" (do
        literal "&"
        let lifetime ← lifetime
        blanks
        let mutable ← optional mutable
        return .ref lifetime mutable.isSome (← typeWithin depth)),
      rule "adt_type" (do
        let start ← position
        let name ← ident
        blanks
        let args ← optional <| rule "type_args" do
          literal "<"
          blanks
          let args ← separated (rule "type_arg" (oneOf [
            do
              return .lifetime (← lifetime),
            do
              return .type (← typeWithin depth)]))
          blanks
          literal ">"
          return args
        return namedType start name (args.getD []))])

/-- A type. -/
def type : Parser TypeTree :=
  fun cursor => typeWithin (cursor.rest.length + 1) cursor

/-! ### Operands and right-hand sides -/

/-- An operand. A place alone is read. -/
def operand : Parser OperandTree :=
  rule "operand" (oneOf [
    rule "move_op" (do
      literal "move"
      spacing
      return .move (← place)),
    rule "copy_op" (do
      literal "copy"
      spacing
      return .copy (← place)),
    do
      return .const (← const),
    do
      return .copy (← place)])

/-- Operands with commas between them. -/
def operandList : Parser (List OperandTree) :=
  rule "operand_list" (separated operand)

/-- Something in parentheses that may be left out. -/
def parenthesized (p : Parser (List α)) : Parser (List α) := do
  literal "("
  blanks
  let items ← optional p
  blanks
  literal ")"
  return items.getD []

/-- The signature of a call. -/
def signature : Parser SignatureTree :=
  rule "signature" do
    literal "as"
    spacing
    literal "fn"
    blanks
    let params ← parenthesized (rule "type_list" (separated type))
    blanks
    let result ← optional <| rule "ret_type" do
      literal "->"
      blanks
      type
    return ⟨params, result⟩

/-- A right-hand side. A name in front of a parenthesis is the function of a call, whatever the
name. -/
def rvalue : Parser RvalueTree :=
  rule "rvalue" (oneOf [
    rule "borrow" (do
      literal "&"
      let lifetime ← lifetime
      blanks
      let mutable ← optional mutable
      return .borrow lifetime mutable.isSome (← place)),
    rule "call" (do
      let func ← ident
      blanks
      let args ← parenthesized operandList
      blanks
      return .call func args (← optional signature)),
    do
      return .use (← operand)])

/-! ### Statements and terminators -/

/-- The end of a statement. -/
def semicolon : Parser Unit := do
  blanks
  literal ";"

/-- A keyword with the name of a local in parentheses. -/
def nameStatement (keyword : String) : Parser String := do
  literal keyword
  blanks
  literal "("
  blanks
  let name ← ident
  blanks
  literal ")"
  semicolon
  return name

/-- A statement. -/
def statement : Parser StatementTree :=
  rule "stmt" do
    let statement ← oneOf [
      rule "use_stmt" (do
        literal "use"
        blanks
        let operands ← parenthesized operandList
        semicolon
        return .use operands),
      rule "drop_stmt" (do
        return .drop (← nameStatement "drop")),
      rule "dead_stmt" (do
        return .storageDead (← nameStatement "storage_dead")),
      rule "nop_stmt" (do
        literal "nop"
        semicolon
        return .nop),
      rule "assign" (do
        let place ← place
        blanks
        literal "="
        blanks
        let rvalue ← rvalue
        semicolon
        return .assign place rvalue)]
    blanks
    return statement

/-- The names of the blocks that may follow, each after a blank. -/
def targets : Parser (List String) :=
  rule "targets" <| many1 do
    spacing
    ident

/-- A terminator. -/
def terminator : Parser TerminatorTree :=
  rule "terminator" (oneOf [
    rule "goto_term" (do
      literal "goto"
      let targets ← targets
      semicolon
      return .goto targets),
    rule "switch_term" (do
      literal "switch"
      spacing
      let operand ← operand
      let targets ← targets
      semicolon
      return .switch operand targets),
    rule "return_term" (do
      literal "return"
      semicolon
      return .ret)])

/-! ### Functions -/

/-- A local. -/
def variableDecl : Parser FunctionItem :=
  rule "let_decl" do
    literal "let"
    spacing
    let name ← ident
    blanks
    literal ":"
    blanks
    let ty ← type
    semicolon
    return .declare name ty

/-- The points of a fixed region. -/
def pointSet : Parser (Option (List String)) :=
  rule "point_set" (oneOf [
    do
      literal "all"
      return none,
    do
      literal "\x7b"
      blanks
      let points ← optional (separated point)
      blanks
      literal "\x7d"
      return some (points.getD [])])

/-- A lifetime with a fixed region. -/
def placeholderDecl : Parser FunctionItem :=
  rule "placeholder_decl" do
    literal "placeholder"
    spacing
    let lifetime ← lifetime
    blanks
    literal "="
    blanks
    let points ← pointSet
    semicolon
    return .placeholder lifetime points

/-- A demand on two lifetimes. -/
def outlivesDecl : Parser FunctionItem :=
  rule "outlives_decl" do
    literal "outlives"
    spacing
    let longer ← lifetime
    blanks
    literal ":"
    blanks
    let shorter ← lifetime
    blanks
    literal "@"
    blanks
    let point ← point
    semicolon
    return .outlives longer shorter point

/-- A block. -/
def blockDecl : Parser FunctionItem :=
  rule "block_decl" do
    literal "block"
    spacing
    let name ← ident
    blanks
    literal "\x7b"
    blanks
    let statements ← many statement
    let terminator ← terminator
    blanks
    literal "\x7d"
    return .block name statements terminator

/-- Something in a function. -/
def functionItem : Parser FunctionItem :=
  rule "fn_item" do
    let item ← oneOf [variableDecl, placeholderDecl, outlivesDecl, blockDecl]
    blanks
    return item

/-- A function. -/
def functionDecl : Parser ItemTree :=
  rule "fn_decl" do
    let start ← position
    literal "fn"
    spacing
    let name ← ident
    blanks
    literal "\x7b"
    blanks
    let items ← many functionItem
    literal "\x7d"
    return .function start name items

/-! ### Structs -/

/-- A keyword in front of a parameter. -/
def paramKeyword : Parser String :=
  rule "param_keyword" (oneOf
    (["may_dangle", "invariant", "contravariant", "covariant", "bivariant"].map fun word => do
      literal word
      return word))

/-- A parameter of a struct. -/
def genericParam : Parser ParamTree :=
  rule "generic_param" do
    let keywords ← many <| rule "param_attr" do
      let word ← paramKeyword
      spacing
      return word
    oneOf [
      do
        return ⟨keywords, true, ← lifetime⟩,
      do
        return ⟨keywords, false, ← ident⟩]

/-- The parameters of a struct. -/
def genericParams : Parser (List ParamTree) :=
  rule "generic_params" do
    literal "<"
    blanks
    let params ← separated genericParam
    blanks
    literal ">"
    return params

/-- A struct. -/
def structDecl : Parser ItemTree :=
  rule "struct_decl" do
    let start ← position
    literal "struct"
    spacing
    let name ← ident
    blanks
    let params ← optional genericParams
    blanks
    let drop ← optional <| rule "drop_flag" do
      literal "drop"
      blanks
    literal ";"
    return .struct start name (params.getD []) drop.isSome

/-! ### Files -/

/-- A struct or a function. -/
def item : Parser ItemTree :=
  rule "item" do
    let item ← oneOf [structDecl, functionDecl]
    blanks
    return item

/-- The end of the text. -/
def endOfText : Parser Unit :=
  rule "eof" fun cursor =>
    if cursor.atEnd then (some ((), cursor), .unnamed cursor.pos)
    else (none, {})

/-- A whole text. -/
def file : Parser (List ItemTree) :=
  rule "file" do
    blanks
    let items ← many item
    endOfText
    return items

end RegionInference.Grammar
