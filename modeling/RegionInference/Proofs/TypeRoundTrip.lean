import Mathlib
import RegionInference.Proofs.AssignmentGrammar
import RegionInference.Proofs.StructGrammar

/-!
# Types in whole texts

A text declares a table of types and then, in a function, locals of types over this table. What is
read is a body with just these locals: `Grammar.declared_types_read_back`.

The declarations and the function are read from the same text, but the types of the locals mean
nothing before the context of the table is known. So the locals are read for any context
(`Grammar.reads_local`), and the context is put in once the declarations have been gone through.
-/

namespace RegionInference

open Text Grammar Place

/-- The declaration of a local. -/
def Variable.line (v : Variable) : String :=
  "let " ++ v.text ++ "; "

namespace Grammar

open Grammar.Parser

variable {cursor next : Cursor} {cs : List Char} {context : Context} {table : List AdtDecl}

/-- The text of a block that does nothing. -/
def idleText : String :=
  "block A \x7b return; \x7d "

/-- The text of a function that declares locals and does nothing. -/
def functionText (f : Name) (vars : List Variable) : String :=
  "fn " ++ String.ofList f.chars ++ " \x7b " ++ String.join (vars.map Variable.line) ++ idleText ++
    "\x7d"

/-- The text of some declarations and a function. -/
def sourceText (written : List StructSpelling) (f : Name) (vars : List Variable) : String :=
  String.join (written.map StructSpelling.text) ++ functionText f vars

/-! ### Locals -/

/-- What an item says that is read from the declaration of a local. -/
def IsLocal (context : Context) (v : Variable) (item : FunctionItem) : Prop :=
  ∃ tree, item = .declare v.name tree ∧ context.type tree = .ok v.ty

/-- The characters of the declaration of a local, part by part. -/
theorem toList_line (v : Variable) : v.line.toList =
    "let".toList ++ " ".toList ++ (v.name.toList ++ (":".toList ++ " ".toList ++
      (v.ty.text.toList ++ (";".toList ++ " ".toList)))) := by
  simp [Variable.line, Variable.text]

/-- No blank stands in front of it. -/
theorem noBlank_line (v : Variable) (rest : List Char) : NoBlank (v.line.toList ++ rest) := by
  rw [toList_line]
  exact skipBlanks_of_start (by decide) (by decide) (by decide)

/-- The declaration of a local is read as what it says, if its type is. -/
theorem reads_local {v : Variable} (hname : isIdent v.name.toList = true)
    (hty : ReadsType context type v.ty) :
    Reads NoBlank functionItem v.line.toList (IsLocal context v) := by
  intro cursor next hpasses hstart
  rw [toList_line] at hpasses
  obtain ⟨second, hlet, hpasses⟩ := hpasses.split
  obtain ⟨third, hident, hpasses⟩ := hpasses.split
  obtain ⟨fifth, hcolon, hpasses⟩ := hpasses.split
  obtain ⟨sixth, htext, hlast⟩ := hpasses.split
  have hidentStart : NoBlank second.rest := by
    rw [hident.rest]
    exact noBlank_name ⟨v.name.toList, hname⟩ third.rest
  have htextStart : NoBlank fifth.rest := by
    rw [htext.rest]
    exact hty.start sixth.rest
  obtain ⟨first, hword, -, -, hspacing⟩ := spaced_of_passes hlet hidentStart
  obtain ⟨fourth, hcolon, -, hblanks, -⟩ := spaced_of_passes hcolon htextStart
  obtain ⟨seventh, hended, -, hlastBlanks, -⟩ := spaced_of_passes hlast hstart
  have hcolonEnds : EndsIdent third.rest ∧ NoBlank third.rest := by
    rw [hcolon.rest]
    exact ⟨endsIdent_cons.2 (by decide), skipBlanks_of_start (by decide) (by decide) (by decide)⟩
  have hends : EndsType sixth.rest := by
    refine endsType_of_head ?_ (.inl rfl)
    rw [hended.rest]
    rfl
  obtain ⟨tree, hread, hmeant⟩ := hty.read htext hends
  have hdecl : variableDecl.outcome cursor = some (.declare v.name tree, seventh) := by
    simp [variableDecl, outcome_literal_eq_some.2 hword, hspacing,
      outcome_ident_of_isIdent hname hident hcolonEnds.1, outcome_blanks_of_noBlank hcolonEnds.2,
      outcome_literal_eq_some.2 hcolon, hblanks, hread, outcome_semicolon_of_passes hended]
  exact ⟨.declare v.name tree, by simp [functionItem, hdecl, hlastBlanks], tree, rfl, hmeant⟩

/-! ### The block -/

/-- The name of a local that the end of a block could be taken for. -/
def returnName : Name :=
  ⟨"return".toList, by decide⟩

section Return

variable (h : cursor.Passes (returnName.chars ++ ";".toList) next)

include h

/-- In front of the final return, no word with another first letter is read. -/
theorem outcome_literal_of_return {word : String} (d : Char) (hword : word.toList.head? = some d)
    (hd : d ≠ 'r') : (literal word).outcome cursor = none := by
  have hhead : cursor.rest.head? = some 'r' := by
    rw [h.rest]
    rfl
  refine outcome_literal_of_head d hword ?_
  rw [hhead]
  simpa using hd.symm

/-- The end of a block is no statement: as a local it would have to be assigned to. -/
theorem outcome_statement_of_return : statement.outcome cursor = none := by
  have huse : (literal "use").outcome cursor = none :=
    outcome_literal_of_return h 'u' rfl (by decide)
  have hdrop : (literal "drop").outcome cursor = none :=
    outcome_literal_of_return h 'd' rfl (by decide)
  have hdead : (literal "storage_dead").outcome cursor = none :=
    outcome_literal_of_return h 's' rfl (by decide)
  have hnop : (literal "nop").outcome cursor = none :=
    outcome_literal_of_return h 'n' rfl (by decide)
  obtain ⟨middle, hname, hended⟩ := h.split
  have hhead : middle.rest.head? = some ';' := by
    rw [hended.rest]
    rfl
  have hplace :
      place.outcome cursor = some ((Spelling.name returnName []).tree cursor.pos, middle) := by
    have hchars : (Spelling.name returnName []).chars = returnName.chars := List.append_nil _
    refine outcome_place_of_passes (by rwa [hchars]) ?_
    rw [hended.rest]
    exact stops_cons.2 (by decide)
  have hends : EndsType middle.rest := endsType_of_head hhead (.inl rfl)
  have hequals : (literal "=").outcome middle = none :=
    outcome_literal_of_head '=' rfl (by rw [hhead]; decide)
  have hassign : assigning.outcome cursor = none := by
    simp [assigning, hplace, outcome_blanks_of_noBlank hends.noBlank, hequals]
  simp [statement_eq, huse, nameStatement, hdrop, hdead, hnop, hassign]

/-- The final return is read as a terminator. -/
theorem outcome_terminator_of_return : terminator.outcome cursor = some (.ret, next) := by
  have hgoto : (literal "goto").outcome cursor = none :=
    outcome_literal_of_return h 'g' rfl (by decide)
  have hswitch : (literal "switch").outcome cursor = none :=
    outcome_literal_of_return h 's' rfl (by decide)
  obtain ⟨middle, hname, hended⟩ := h.split
  have hreturn : (literal "return").outcome cursor = some ((), middle) :=
    outcome_literal_eq_some.2 hname
  simp [terminator, hgoto, hswitch, hreturn, outcome_semicolon_of_passes hended]

end Return

/-- The characters of the block that does nothing, part by part. -/
theorem toList_idleText : idleText.toList =
    "block".toList ++ " ".toList ++ ("A".toList ++ " ".toList ++ ("\x7b".toList ++ " ".toList ++
      (returnName.chars ++ ";".toList ++ " ".toList ++ ("\x7d".toList ++ " ".toList)))) := rfl

/-- No blank stands in front of it. -/
theorem noBlank_idleText (rest : List Char) : NoBlank (idleText.toList ++ rest) :=
  skipBlanks_of_start (by decide) (by decide) (by decide)

/-- A chain fails where its first step does. -/
theorem outcome_bind_of_none {α β : Type} {p : Parser α} (f : α → Parser β)
    (h : p.outcome cursor = none) : (p >>= f).outcome cursor = none := by
  rw [outcome_bind, h, Option.bind_none]

/-- Only a block starts with another letter than the other items of a function. -/
theorem outcome_functionItem_of_head {c : Char} (h : cursor.rest.head? = some c) (hlet : c ≠ 'l')
    (hplaceholder : c ≠ 'p') (houtlives : c ≠ 'o') :
    functionItem.outcome cursor = (blockDecl.outcome cursor).bind fun found =>
      (blanks.outcome found.2).map fun last => (found.1, last.2) := by
  have hvariable : variableDecl.outcome cursor = none := by
    rw [variableDecl, outcome_rule]
    exact outcome_bind_of_none _ (outcome_literal_of_head 'l' rfl (by rw [h]; simpa using hlet))
  have hregion : placeholderDecl.outcome cursor = none := by
    rw [placeholderDecl, outcome_rule]
    exact outcome_bind_of_none _
      (outcome_literal_of_head 'p' rfl (by rw [h]; simpa using hplaceholder))
  have hdemand : outlivesDecl.outcome cursor = none := by
    rw [outlivesDecl, outcome_rule]
    exact outcome_bind_of_none _
      (outcome_literal_of_head 'o' rfl (by rw [h]; simpa using houtlives))
  simp only [functionItem, outcome_rule, outcome_bind, outcome_oneOf_cons, hvariable, hregion,
    hdemand, Option.none_or, outcome_oneOf_single, outcome_pure, Option.map_eq_bind]
  rfl

/-- The block that does nothing is read as a block without statements. -/
theorem reads_idle : Reads NoBlank functionItem idleText.toList (· = .block "A" [] .ret) := by
  intro cursor next hpasses hstart
  rw [toList_idleText] at hpasses
  obtain ⟨second, hblock, hpasses⟩ := hpasses.split
  obtain ⟨fourth, hname, hpasses⟩ := hpasses.split
  obtain ⟨sixth, hopen, hpasses⟩ := hpasses.split
  obtain ⟨eighth, hreturn, hclose⟩ := hpasses.split
  have hnameStart : NoBlank second.rest :=
    noBlank_of_passes hname (by decide) (by decide) (by decide)
  have hopenStart : NoBlank fourth.rest :=
    noBlank_of_passes hopen (by decide) (by decide) (by decide)
  have hreturnStart : NoBlank sixth.rest :=
    noBlank_of_passes hreturn (by decide) (by decide) (by decide)
  have hcloseStart : NoBlank eighth.rest :=
    noBlank_of_passes hclose (by decide) (by decide) (by decide)
  obtain ⟨first, hblock, -, -, hspacing⟩ := spaced_of_passes hblock hnameStart
  obtain ⟨third, hname, hspace, hblanks, -⟩ := spaced_of_passes hname hopenStart
  obtain ⟨fifth, hopen, -, hblanks', -⟩ := spaced_of_passes hopen hreturnStart
  obtain ⟨seventh, hreturn, -, hblanks'', -⟩ := spaced_of_passes hreturn hcloseStart
  obtain ⟨ninth, hclose, -, hlast, -⟩ := spaced_of_passes hclose hstart
  have hident : ident.outcome second = some ("A", third) := by
    refine outcome_ident_of_isIdent (by decide) hname ?_
    rw [hspace]
    exact endsIdent_cons.2 (by decide)
  have hdecl : blockDecl.outcome cursor = some (.block "A" [] .ret, ninth) := by
    simp [blockDecl, outcome_literal_eq_some.2 hblock, hspacing, hident, hblanks,
      outcome_literal_eq_some.2 hopen, hblanks',
      outcome_many_of_none (outcome_statement_of_return hreturn),
      outcome_terminator_of_return hreturn, hblanks'', outcome_literal_eq_some.2 hclose]
  have hhead : cursor.rest.head? = some 'b' := by
    rw [hblock.rest]
    rfl
  refine ⟨.block "A" [] .ret, ?_, rfl⟩
  rw [outcome_functionItem_of_head hhead (by decide) (by decide) (by decide), hdecl]
  simp [hlast]

/-! ### The function -/

/-- What a tree says that is read from the text of a function. -/
def IsFunction (context : Context) (f : Name) (vars : List Variable) (tree : ItemTree) : Prop :=
  ∃ start locals, tree = .function start (String.ofList f.chars) (locals ++ [.block "A" [] .ret]) ∧
    List.Forall₂ (IsLocal context) vars locals

/-- The characters of a function, part by part. -/
theorem toList_functionText (f : Name) (vars : List Variable) : (functionText f vars).toList =
    "fn".toList ++ " ".toList ++ (f.chars ++ " ".toList ++ ("\x7b".toList ++ " ".toList ++
      (vars.flatMap (·.line.toList) ++ (idleText.toList ++ "\x7d".toList)))) := by
  simp [functionText, List.flatMap_map]

/-- No blank stands in front of it. -/
theorem noBlank_functionText (f : Name) (vars : List Variable) (rest : List Char) :
    NoBlank ((functionText f vars).toList ++ rest) := by
  rw [toList_functionText]
  exact skipBlanks_of_start (by decide) (by decide) (by decide)

/-- The closing brace is no item of a function. -/
theorem outcome_functionItem_of_close (h : cursor.rest.head? = some '\x7d') :
    functionItem.outcome cursor = none := by
  have hblock : blockDecl.outcome cursor = none := by
    rw [blockDecl, outcome_rule]
    exact outcome_bind_of_none _ (outcome_literal_of_head 'b' rfl (by rw [h]; decide))
  rw [outcome_functionItem_of_head h (by decide) (by decide) (by decide), hblock]
  rfl

/-- A declaration of a type begins with its keyword. -/
theorem outcome_structDecl_of_head (h : cursor.rest.head? ≠ some 's') :
    structDecl.outcome cursor = none := by
  rw [structDecl, outcome_rule, outcome_bind, outcome_position, Option.bind_some]
  exact outcome_bind_of_none _ (outcome_literal_of_head 's' rfl h)

/-- A function begins with its keyword. -/
theorem outcome_functionDecl_of_head (h : cursor.rest.head? ≠ some 'f') :
    functionDecl.outcome cursor = none := by
  rw [functionDecl, outcome_rule, outcome_bind, outcome_position, Option.bind_some]
  exact outcome_bind_of_none _ (outcome_literal_of_head 'f' rfl h)

/-- A function is read as what its text says, if its locals are. -/
theorem reads_function_item (f : Name) {vars : List Variable}
    (hvars : ∀ v ∈ vars, Reads NoBlank functionItem v.line.toList (IsLocal context v)) :
    Reads NoBlank item (functionText f vars).toList (IsFunction context f vars) := by
  intro cursor next hpasses hstart
  rw [toList_functionText] at hpasses
  obtain ⟨second, hword, hpasses⟩ := hpasses.split
  obtain ⟨fourth, hname, hpasses⟩ := hpasses.split
  obtain ⟨sixth, hopen, hpasses⟩ := hpasses.split
  obtain ⟨seventh, hlines, hpasses⟩ := hpasses.split
  obtain ⟨eighth, hidle, hclose⟩ := hpasses.split
  have hidleStart : NoBlank seventh.rest := by
    rw [hidle.rest]
    exact noBlank_idleText eighth.rest
  have hlinesStart : NoBlank sixth.rest := by
    rw [hlines.rest]
    exact follows_flatMap (fun v _ => noBlank_line v) hidleStart
  have hopenStart : NoBlank fourth.rest :=
    noBlank_of_passes hopen (by decide) (by decide) (by decide)
  have hnameStart : NoBlank second.rest := by
    rw [hname.rest, List.append_assoc]
    exact noBlank_name f _
  have hcloseHead : eighth.rest.head? = some '\x7d' := by
    rw [hclose.rest]
    rfl
  have hcloseStart : NoBlank eighth.rest :=
    noBlank_of_passes hclose (by decide) (by decide) (by decide)
  obtain ⟨first, hword, -, -, hspacing⟩ := spaced_of_passes hword hnameStart
  obtain ⟨third, hname, hspace, hblanks, -⟩ := spaced_of_passes hname hopenStart
  obtain ⟨fifth, hopen, -, hblanks', -⟩ := spaced_of_passes hopen hlinesStart
  have hident : EndsIdent third.rest := by
    rw [hspace]
    exact endsIdent_cons.2 (by decide)
  obtain ⟨locals, hlocals, hmany⟩ := outcome_many_append hvars
    (fun v _ => ⟨by simp [toList_line], noBlank_line v⟩) hlines hidleStart
  obtain ⟨block, hblock, rfl⟩ := reads_idle hidle hcloseStart
  have hlt : eighth.rest.length < seventh.rest.length := hidle.length_lt (by simp [toList_idleText])
  have hend : (many functionItem).outcome seventh = some ([.block "A" [] .ret], eighth) := by
    rw [outcome_many_of_some hblock hlt,
      outcome_many_of_none (outcome_functionItem_of_close hcloseHead)]
    rfl
  have hstruct : structDecl.outcome cursor = none :=
    outcome_structDecl_of_head (by simp [hword.rest])
  have hdecl : functionDecl.outcome cursor = some (.function cursor.pos (String.ofList f.chars)
      (locals ++ [.block "A" [] .ret]), next) := by
    simp [functionDecl, outcome_literal_eq_some.2 hword, hspacing,
      outcome_ident_of_passes hname hident, hblanks, outcome_literal_eq_some.2 hopen, hblanks',
      hmany, hend, outcome_literal_eq_some.2 hclose]
  exact ⟨_, by simp [item, hstruct, hdecl, outcome_blanks_of_noBlank hstart], cursor.pos, locals,
    rfl, hlocals⟩

/-! ### The text -/

/-- The characters of a whole text: the declarations, and then the function. -/
theorem toList_sourceText (written : List StructSpelling) (f : Name) (vars : List Variable) :
    (sourceText written f vars).toList =
      written.flatMap (·.text.toList) ++ (functionText f vars).toList := by
  simp [sourceText, List.flatMap_map]

/-- At the end of the text there is no item. -/
theorem outcome_item_of_end (h : cursor.rest = []) : item.outcome cursor = none := by
  have hstruct : structDecl.outcome cursor = none := outcome_structDecl_of_head (by simp [h])
  have hfunction : functionDecl.outcome cursor = none := outcome_functionDecl_of_head (by simp [h])
  simp [item, hstruct, hfunction]

/-- The end of the text is read there. -/
theorem outcome_endOfText (h : cursor.rest = []) :
    endOfText.outcome cursor = some ((), cursor) := by
  refine (outcome_rule "eof" _).trans ?_
  simp [outcome, Cursor.atEnd, h]

/-- A text that is read to its end is parsed. -/
theorem parse_eq_ok {text : String} {trees : List ItemTree}
    (h : file.outcome (Cursor.ofText text) = some (trees, next)) : parse text = .ok trees := by
  rw [outcome] at h
  rw [parse]
  rcases hfile : file (Cursor.ofText text) with ⟨_ | ⟨found, last⟩, trace⟩
  · simp [hfile] at h
  · rw [hfile] at h
    cases h
    rfl

/-- The trees of a text are those of its declarations and the one of its function. -/
theorem parse_sourceText {written : List StructSpelling} {f : Name} {vars : List Variable}
    (hvars : ∀ v ∈ vars, Reads NoBlank functionItem v.line.toList (IsLocal context v)) :
    ∃ trees tree, parse (sourceText written f vars) = .ok (trees ++ [tree]) ∧
      List.Forall₂ StructSpelling.IsTree written trees ∧ IsFunction context f vars tree := by
  let last : Cursor := ⟨(sourceText written f vars).toList.length, []⟩
  have hpasses : (Cursor.ofText (sourceText written f vars)).Passes
      (sourceText written f vars).toList last :=
    ⟨by simp [Cursor.ofText, last], by simp [Cursor.ofText, last]⟩
  have hstart : NoBlank (Cursor.ofText (sourceText written f vars)).rest := by
    rw [hpasses.rest, toList_sourceText, List.append_assoc]
    exact follows_flatMap (fun s _ => noBlank_struct s) (noBlank_functionText f vars _)
  rw [toList_sourceText] at hpasses
  obtain ⟨middle, hstructs, hfunction⟩ := hpasses.split
  have hmiddle : NoBlank middle.rest := by
    rw [hfunction.rest]
    exact noBlank_functionText f vars _
  obtain ⟨trees, htrees, hmany⟩ := outcome_many_append (fun s _ => reads_struct_item s)
    (fun s _ => ⟨by simp [toList_text_struct], noBlank_struct s⟩) hstructs hmiddle
  obtain ⟨tree, htree, hmeant⟩ := reads_function_item f hvars hfunction rfl
  have hlt : last.rest.length < middle.rest.length :=
    hfunction.length_lt (by simp [toList_functionText])
  have hend : (many item).outcome middle = some ([tree], last) := by
    rw [outcome_many_of_some htree hlt, outcome_many_of_none (outcome_item_of_end rfl)]
    rfl
  have hended : endOfText.outcome last = some ((), last) := outcome_endOfText rfl
  have hfile : file.outcome (Cursor.ofText (sourceText written f vars)) =
      some (trees ++ [tree], last) := by
    simp [file, outcome_blanks_of_noBlank hstart, hmany, hend, hended]
  exact ⟨trees, tree, parse_eq_ok hfile, htrees, hmeant⟩

/-! ### The body -/

/-- The locals of a function are added in their order. -/
theorem foldlM_locals {vars : List Variable} {items : List FunctionItem}
    (h : List.Forall₂ (IsLocal context) vars items) (parts : Context.FunctionParts) :
    items.foldlM context.addItem parts = .ok { parts with vars := parts.vars ++ vars } := by
  induction h generalizing parts with
  | nil =>
    rw [List.append_nil]
    rfl
  | @cons v item vars items hitem _ ih =>
    obtain ⟨tree, rfl, htype⟩ := hitem
    have hadd : context.addItem parts (.declare v.name tree) =
        .ok { parts with vars := parts.vars ++ [v] } := by
      rw [Context.addItem, htype]
      rfl
    rw [List.foldlM_cons, hadd]
    refine (ih _).trans ?_
    simp

/-- Parts without a fault make a body. -/
theorem ofParts_eq_ok {parts : BodyParts} (h : parts.fault? = none) :
    Body.ofParts parts = .ok ⟨parts, h⟩ := by
  rw [Body.ofParts]
  split
  · next fault hfault =>
    rw [h] at hfault
    cases hfault
  · rfl

/-- A block that does nothing. -/
def idleBlock : Block :=
  ⟨"A", [], .ret⟩

/-- The graph of a function that does nothing. -/
def idleGraph : Graph :=
  Graph.build [idleBlock] "A" (by decide) (by decide) (by decide)

/-- A function that declares different locals and does nothing has no fault. -/
theorem fault?_idle (name : String) {vars : List Variable}
    (hnodup : (vars.map Variable.name).Nodup) :
    BodyParts.fault? { name, graph := idleGraph, vars } = none := by
  have hnames : repeatedName? [] (vars.map Variable.name) = none :=
    repeatedName?_eq_none hnodup (by simp)
  have hitems : idleGraph.items = [(⟨"A", 0⟩, .term .ret)] := rfl
  have helement : (Element.term .ret).names = [] := rfl
  simp [BodyParts.fault?, BodyParts.variableFault?, BodyParts.names, hnames,
    BodyParts.placeholderFault?, BodyParts.elementFault?, hitems, helement,
    BodyParts.obligationFault?, BodyParts.factsFault?]

/-- A function with different locals makes one body, with its name and its locals. -/
theorem bodies_of_function {f : Name} {vars : List Variable} {tree : ItemTree}
    (hnodup : (vars.map Variable.name).Nodup) (h : IsFunction context f vars tree) :
    ∃ body, context.bodies [tree] = .ok [body] ∧ body.name = String.ofList f.chars ∧
      body.vars = vars := by
  obtain ⟨start, locals, rfl, hlocals⟩ := h
  have hfold : (locals ++ [FunctionItem.block "A" [] .ret]).foldlM context.addItem {} =
      .ok { vars, blocks := [idleBlock] } := by
    rw [List.foldlM_append, foldlM_locals hlocals]
    rfl
  let body : Body := ⟨_, fault?_idle (String.ofList f.chars) hnodup⟩
  have hfunction : context.function start (String.ofList f.chars)
      (locals ++ [.block "A" [] .ret]) = .ok body := by
    rw [Context.function, hfold]
    exact ofParts_eq_ok (fault?_idle (String.ofList f.chars) hnodup)
  refine ⟨body, ?_, rfl, rfl⟩
  rw [Context.bodies, hfunction]
  rfl

/-- Types and their texts are inverse to each other. A table of types with different names is
declared, in any of the ways it can be written, of which there is one whenever the names are
identifiers. Behind it, a function with any locals of well-formed types over the table, each written
as the text of its type, is read as a body with just these locals. -/
theorem declared_types_read_back (f : Name) {table : List AdtDecl} {vars : List Variable}
    (hwritable : ∀ decl ∈ table, decl.Writable) (htable : (table.map AdtDecl.name).Nodup)
    (hvars : (vars.map Variable.name).Nodup)
    (hover : ∀ v ∈ vars, isIdent v.name.toList = true ∧ v.ty.Over table ∧ v.ty.WellFormed) :
    (∃ written : List StructSpelling, written.map StructSpelling.decl = table) ∧
    ∀ written : List StructSpelling, written.map StructSpelling.decl = table →
      ∃ body, Body.ofText (sourceText written f vars) = .ok body ∧
        body.name = String.ofList f.chars ∧ body.vars = vars := by
  refine ⟨exists_spellings hwritable, ?_⟩
  rintro written rfl
  let start : Context := { text := (sourceText written f vars).toList }
  have haccepts : start.Accepts (written.map StructSpelling.decl) := ⟨htable, fun _ _ => rfl⟩
  have hknows : (Context.ofTable start.text (written.map StructSpelling.decl)).Knows
      (written.map StructSpelling.decl) :=
    knows_ofTable start.text htable fun decl hdecl => (hwritable decl hdecl).1
  have hlocals : ∀ v ∈ vars, Reads NoBlank functionItem v.line.toList
      (IsLocal (Context.ofTable start.text (written.map StructSpelling.decl)) v) := by
    intro v hv
    obtain ⟨hname, hty, hwell⟩ := hover v hv
    exact reads_local hname (readsType_type hknows hty hwell)
  obtain ⟨trees, tree, hparse, htrees, hfunction⟩ := parse_sourceText hlocals
  obtain ⟨body, hbodies, hname, hbodyVars⟩ := bodies_of_function hvars hfunction
  have hall : Body.allOfText (sourceText written f vars) = .ok [body] := by
    rw [Body.allOfText, hparse]
    exact (bodies_of_structs htrees haccepts [tree]).trans hbodies
  refine ⟨body, ?_, hname, hbodyVars⟩
  rw [Body.ofText, hall]
  rfl

/-! ### Types with the name of a keyword -/

namespace Sample

/-- A struct with the name of the mark of mutable references. -/
def mutStruct : StructSpelling where
  name := ⟨"mut".toList, by decide⟩
  params :=
    [⟨[.mayDangle, .variance .invariant], true, ⟨"a".toList, by decide⟩⟩,
      ⟨[], false, ⟨"T".toList, by decide⟩⟩]
  hasDestructor := true

/-- A mutable and a shared reference to the struct. -/
def structLocals : List Variable :=
  [⟨"p", .ref "x" true (.adt mutStruct.decl ["x"] [.scalar "i32"])⟩,
    ⟨"q", .ref "x" false (.adt mutStruct.decl ["y"] [.cell (.ref "y" true (.scalar "mutable"))])⟩]

/-- A mutable and a shared reference to a scalar with the name of the mark. -/
def scalarLocals : List Variable :=
  [⟨"p", .ref "x" true (.scalar "mut")⟩, ⟨"q", .ref "x" false (.scalar "mut")⟩]

/-- The name of a function. -/
def functionName : Name :=
  ⟨"f".toList, by decide⟩

/-- A name that nothing is declared under is a scalar over the table. -/
theorem scalar_over {name : String} {table : List AdtDecl} (hname : isIdent name.toList = true)
    (hcell : name ≠ "Cell") (htable : ∀ decl ∈ table, decl.name ≠ name) :
    (Ty.scalar name).Over table := by
  refine .scalar hname ?_
  rintro decl (hdecl | ⟨rfl, -⟩)
  · exact htable decl hdecl
  · exact hcell.symm

/-- The locals of the first sample have names and types as they have to be. -/
theorem over_structLocals : ∀ v ∈ structLocals,
    isIdent v.name.toList = true ∧ v.ty.Over [mutStruct.decl] ∧ v.ty.WellFormed := by
  have hstruct : AdtDecl.Declared [mutStruct.decl] mutStruct.decl := .inl (.head _)
  have hcell : AdtDecl.Declared [mutStruct.decl] .cell := .inr ⟨rfl, by decide⟩
  have hint : (Ty.scalar "i32").Over [mutStruct.decl] :=
    scalar_over (by decide) (by decide) (by decide)
  have hmutable : (Ty.scalar "mutable").Over [mutStruct.decl] :=
    scalar_over (by decide) (by decide) (by decide)
  have hwrapped : (Ty.cell (.ref "y" true (.scalar "mutable"))).Over [mutStruct.decl] :=
    .adt hcell (by simp) (by simpa using .ref (by decide) hmutable)
  intro v hv
  simp only [structLocals, List.mem_cons, List.not_mem_nil, or_false] at hv
  rcases hv with rfl | rfl
  · refine ⟨by decide, .ref (by decide) (.adt hstruct (by decide) (by simpa using hint)), ?_⟩
    simp [Ty.WellFormed, Ty.AllWellFormed, mutStruct, StructSpelling.decl]
  · refine ⟨by decide, .ref (by decide) (.adt hstruct (by decide) (by simpa using hwrapped)), ?_⟩
    simp [Ty.WellFormed, Ty.AllWellFormed, mutStruct, StructSpelling.decl, Ty.cell, AdtDecl.cell]

/-- So have those of the second one. -/
theorem over_scalarLocals : ∀ v ∈ scalarLocals,
    isIdent v.name.toList = true ∧ v.ty.Over [] ∧ v.ty.WellFormed := by
  have hmut : (Ty.scalar "mut").Over [] := scalar_over (by decide) (by decide) (by simp)
  intro v hv
  simp only [scalarLocals, List.mem_cons, List.not_mem_nil, or_false] at hv
  rcases hv with rfl | rfl
  · exact ⟨by decide, .ref (by decide) hmut, trivial⟩
  · exact ⟨by decide, .ref (by decide) hmut, trivial⟩

end Sample

/-- A struct and a scalar may be called like the mark of mutable references, and be referred to with
and without the mark. -/
theorem mut_types_read_back :
    (Sample.mutStruct.decl.Writable ∧
      (∀ v ∈ Sample.structLocals, isIdent v.name.toList = true ∧
        v.ty.Over [Sample.mutStruct.decl] ∧ v.ty.WellFormed) ∧
      ∃ body, Body.ofText ("struct mut<may_dangle invariant 'a, T> drop; fn f \x7b " ++
          "let p: &'x mut mut<'x, i32>; let q: &'x mut<'y, Cell<&'y mut mutable>>; " ++
          "block A \x7b return; \x7d \x7d") = .ok body ∧
        body.vars = Sample.structLocals) ∧
    (∀ v ∈ Sample.scalarLocals, isIdent v.name.toList = true ∧ v.ty.Over [] ∧ v.ty.WellFormed) ∧
      ∃ body, Body.ofText ("fn f \x7b let p: &'x mut mut; let q: &'x mut; " ++
          "block A \x7b return; \x7d \x7d") = .ok body ∧
        body.vars = Sample.scalarLocals := by
  have hwritable : Sample.mutStruct.decl.Writable := ⟨by decide, by decide⟩
  refine ⟨⟨hwritable, Sample.over_structLocals, ?_⟩, Sample.over_scalarLocals, ?_⟩
  · obtain ⟨-, hread⟩ := declared_types_read_back Sample.functionName (by simpa using hwritable)
      (by decide) (by decide) Sample.over_structLocals
    obtain ⟨body, hbody, -, hvars⟩ := hread [Sample.mutStruct] rfl
    exact ⟨body, (congrArg Body.ofText (by decide +kernel)).trans hbody, hvars⟩
  · obtain ⟨-, hread⟩ := declared_types_read_back Sample.functionName (by simp) (by decide)
      (by decide) Sample.over_scalarLocals
    obtain ⟨body, hbody, -, hvars⟩ := hread [] rfl
    exact ⟨body, (congrArg Body.ofText (by decide +kernel)).trans hbody, hvars⟩

end Grammar

end RegionInference
