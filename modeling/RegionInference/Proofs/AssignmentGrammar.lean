import Mathlib
import RegionInference.Proofs.OperandGrammar

/-!
# Assignments that take a place

A statement that starts with the name of a local and an equals sign is an assignment, whatever the
name is. The right-hand side is read before the end of the statement is looked for, so a copy or a
move of a place in parentheses is read as a call, and where something is projected from the
parentheses the statement is lost (`Grammar.taken_place_is_operand_iff`).
-/

namespace RegionInference

open Text Grammar Place

namespace Grammar

open Grammar.Parser

variable {cs rest : List Char} {cursor next : Cursor} {pos : Nat} {α : Type}

/-! ### Where a local is assigned to -/

/-- An assignment. -/
def assigning : Parser StatementTree := do
  let place ← place
  blanks
  literal "="
  blanks
  let rvalue ← rvalue
  semicolon
  return .assign place rvalue

/-- The alternatives for a statement, in the order in which they are tried. -/
theorem statement_eq : statement = rule "stmt" (do
    let statement ← oneOf [
      rule "use_stmt" (do
        literal "use"
        blanks
        let operands ← parenthesized operandList
        semicolon
        return .use operands),
      rule "drop_stmt" (do
        return .drop (← nameStatement "drop")),
      rule "dead_stmt" (do
        return .storageDead (← nameStatement "storage_dead")),
      rule "nop_stmt" (do
        literal "nop"
        semicolon
        return .nop),
      rule "assign" assigning]
    blanks
    return statement) := rfl

section Statements

variable {target : Name}

/-- Letters in front of an equals sign are followed by no parenthesis and no semicolon. -/
theorem head?_before_equals {d : Char} (hpart : isIdentPart d = false) (hd : d ≠ '=')
    {more : List Char} (hmore : ∀ c ∈ more, isIdentPart c = true) :
    (skipBlanks false (more ++ (" =".toList ++ cs))).head? ≠ some d := by
  cases more with
  | nil =>
    have hstart : skipBlanks false ('=' :: cs) = '=' :: cs :=
      skipBlanks_of_start (by decide) (by decide) (by decide)
    have hskip : skipBlanks false ([] ++ (" =".toList ++ cs)) = '=' :: cs := skipBlanks_space hstart
    rw [hskip]
    simpa using hd.symm
  | cons c more =>
    have hc : isIdentPart c = true := hmore c List.mem_cons_self
    rw [List.cons_append, skipBlanks_of_isIdentPart hc]
    rintro ⟨⟩
    rw [hpart] at hc
    cases hc

/-- A keyword is not read where a local is assigned to, even where the name of the local starts with
the keyword or is the keyword. -/
theorem outcome_keyword_of_target {word : String} {p : Parser α}
    (hrest : cursor.rest = target.chars ++ (" =".toList ++ cs))
    (hword : word.toList.all isIdentPart = true)
    (hp : ∀ next : Cursor, (skipBlanks false next.rest).head? ≠ some '(' →
      (skipBlanks false next.rest).head? ≠ some ';' → p.outcome next = none) :
    (literal word >>= fun _ => p).outcome cursor = none := by
  refine outcome_keyword_of_name hrest (endsIdent_cons.2 (by decide)) hword ?_
  intro next more hnext hmore
  apply hp next
  · rw [hnext]
    exact head?_before_equals (by decide) (by decide) hmore
  · rw [hnext]
    exact head?_before_equals (by decide) (by decide) hmore

/-- A statement that takes a name does not stand where an assignment does: behind its keyword comes
a parenthesis, not the rest of a target. -/
theorem outcome_nameStatement_of_target {word : String}
    (hrest : cursor.rest = target.chars ++ (" =".toList ++ cs))
    (hword : word.toList.all isIdentPart = true) : (nameStatement word).outcome cursor = none := by
  refine outcome_keyword_of_target hrest hword ?_
  intro next hopen _
  have hnone : (literal "(").outcome (next.skip (blankLength next.rest)) = none :=
    outcome_literal_of_head '(' rfl (by rwa [rest_skip_blankLength])
  simp [outcome_blanks, hnone]

/-- Where a local is assigned to, a statement is an assignment. -/
theorem outcome_statement_of_target (hrest : cursor.rest = target.chars ++ (" =".toList ++ cs)) :
    statement.outcome cursor = (assigning.outcome cursor).map fun found =>
      (found.1, found.2.skip (blankLength found.2.rest)) := by
  have huse : (do
      literal "use"
      blanks
      let operands ← parenthesized operandList
      semicolon
      return StatementTree.use operands : Parser StatementTree).outcome cursor = none := by
    refine outcome_keyword_of_target hrest (by decide) ?_
    intro next hopen _
    have hnone : (literal "(").outcome (next.skip (blankLength next.rest)) = none :=
      outcome_literal_of_head '(' rfl (by rwa [rest_skip_blankLength])
    simp [outcome_blanks, parenthesized, hnone]
  have hdrop : (nameStatement "drop").outcome cursor = none :=
    outcome_nameStatement_of_target hrest (by decide)
  have hdead : (nameStatement "storage_dead").outcome cursor = none :=
    outcome_nameStatement_of_target hrest (by decide)
  have hnop : (do
      literal "nop"
      semicolon
      return StatementTree.nop : Parser StatementTree).outcome cursor = none := by
    refine outcome_keyword_of_target hrest (by decide) ?_
    intro next _ hsemicolon
    have hnone : (literal ";").outcome (next.skip (blankLength next.rest)) = none :=
      outcome_literal_of_head ';' rfl (by rwa [rest_skip_blankLength])
    simp [semicolon, outcome_blanks, hnone]
  rw [statement_eq, outcome_rule, outcome_bind, outcome_oneOf_cons, outcome_rule, huse,
    outcome_oneOf_cons, outcome_rule, outcome_bind, hdrop, outcome_oneOf_cons, outcome_rule,
    outcome_bind, hdead, outcome_oneOf_cons, outcome_rule, hnop, outcome_oneOf_single, outcome_rule]
  cases assigning.outcome cursor with
  | none => rfl
  | some found => rfl

/-- The tree of a local that is assigned to. -/
def targetTree (target : Name) (pos : Nat) : PlaceTree :=
  (Spelling.name target []).tree pos

/-- Behind the target and the sign, an assignment is read as its right side and the semicolon. -/
theorem outcome_assigning (h : cursor.Passes (target.chars ++ (" =".toList ++ " ".toList)) next)
    (hstart : skipBlanks false next.rest = next.rest) :
    assigning.outcome cursor = (rvalue.outcome next).bind fun found =>
      (semicolon.outcome found.2).map fun ended =>
        (.assign (targetTree target cursor.pos) found.1, ended.2) := by
  obtain ⟨first, htarget, hrest⟩ := h.split
  obtain ⟨third, hequals, hblank⟩ := hrest.split
  have hsplit : first.Passes (" ".toList ++ "=".toList) third := hequals
  obtain ⟨second, hblank', hequals⟩ := hsplit.split
  have hplace : place.outcome cursor = some (targetTree target cursor.pos, first) := by
    refine outcome_place_of_passes ?_ ?_
    · simpa [Spelling.chars] using htarget
    · rw [hblank'.rest]
      exact stops_cons.2 (by decide)
  have hblanks : blanks.outcome first = some ((), second) := by
    refine outcome_blanks_of_space hblank' ?_
    rw [hequals.rest]
    exact skipBlanks_of_start (by decide) (by decide) (by decide)
  have hblanks' : blanks.outcome third = some ((), next) := outcome_blanks_of_space hblank hstart
  simp only [assigning, outcome_bind, hplace, Option.bind_some, hblanks,
    outcome_literal_eq_some.2 hequals, hblanks', outcome_pure]
  cases rvalue.outcome next with
  | none => rfl
  | some found =>
    simp only [Option.bind_some]
    cases semicolon.outcome found.2 <;> rfl

/-- A semicolon is read, with nothing to skip behind it. -/
theorem outcome_semicolon_of_passes (h : cursor.Passes ";".toList next) :
    semicolon.outcome cursor = some ((), next) := by
  have hblanks : blanks.outcome cursor = some ((), cursor) := by
    refine outcome_blanks_of_passes (Cursor.Passes.refl cursor) ?_
    rw [h.rest]
    exact skipBlanks_of_start (by decide) (by decide) (by decide)
  simp [semicolon, hblanks, outcome_literal_eq_some.2 h]

/-- The end of a statement is not in front of a field or an index. -/
theorem outcome_semicolon_of_suffixes {suffixes : List Suffix} (hne : suffixes ≠ [])
    (h : cursor.rest = suffixes.flatMap Suffix.chars ++ rest) :
    semicolon.outcome cursor = none := by
  obtain ⟨suffix, suffixes, rfl⟩ := List.exists_cons_of_ne_nil hne
  have hblanks : blanks.outcome cursor = some ((), cursor) := by
    refine outcome_blanks_of_passes (Cursor.Passes.refl cursor) ?_
    rw [h]
    exact skipBlanks_suffixes suffix suffixes rest
  have hnone : (literal ";").outcome cursor = none := by
    refine outcome_literal_of_head ';' rfl ?_
    rw [h]
    exact head?_suffixes_ne (by decide) (by decide) suffix suffixes rest
  simp [semicolon, hblanks, hnone]

/-! ### Assignments that take a place -/

/-- The operand that takes a place. -/
def takeOperand : Bool → Place → Operand
  | true => .move
  | false => .copy

/-- The text of an assignment that takes a place. -/
def takeText (target : Name) (moved : Bool) (text : String) : String :=
  String.ofList target.chars ++ " = " ++ takeWord moved ++ " " ++ text ++ ";"

/-- A statement is read up to some cursor, and this is what it says. -/
def ReadsStatement (context : Context) (cursor next : Cursor) (meant : Statement) : Prop :=
  ∃ tree, statement.outcome cursor = some (tree, next) ∧ context.statement tree = .ok meant

/-- A text is read as one statement at most. -/
theorem ReadsStatement.eq {context : Context} {next' : Cursor} {meant meant' : Statement}
    (h : ReadsStatement context cursor next meant)
    (h' : ReadsStatement context cursor next' meant') : meant = meant' := by
  obtain ⟨tree, hread, hmeant⟩ := h
  obtain ⟨tree', hread', hmeant'⟩ := h'
  rw [hread] at hread'
  cases hread'
  rw [hmeant] at hmeant'
  exact Except.ok.inj hmeant'

variable {moved : Bool} {s : Spelling} {text : String} {context : Context}

/-- The parts of the text of an assignment that takes a place. -/
theorem passes_takeText (hs : s.chars = text.toList)
    (h : cursor.Passes (takeText target moved text).toList next) :
    ∃ first second third, cursor.Passes (target.chars ++ (" =".toList ++ " ".toList)) first ∧
      first.Passes ((takeName moved).chars ++ " ".toList) second ∧
      second.Passes s.chars third ∧ third.Passes ";".toList next := by
  have hsplit : cursor.Passes ((target.chars ++ (" =".toList ++ " ".toList)) ++
      (((takeName moved).chars ++ " ".toList) ++ (s.chars ++ ";".toList))) next := by
    simpa [takeText, takeName, hs] using h
  obtain ⟨first, htarget, hrest⟩ := hsplit.split
  obtain ⟨second, hname, hrest⟩ := hrest.split
  obtain ⟨third, hplace, hended⟩ := hrest.split
  exact ⟨first, second, third, htarget, hname, hplace, hended⟩

/-- Up to the right-hand side the statement is read as an assignment. -/
theorem outcome_statement_of_takeText (hs : s.chars = text.toList)
    (h : cursor.Passes (takeText target moved text).toList next) :
    ∃ first second third, first.Passes ((takeName moved).chars ++ " ".toList) second ∧
      second.Passes s.chars third ∧ third.Passes ";".toList next ∧
      statement.outcome cursor = (rvalue.outcome first).bind fun found =>
        (semicolon.outcome found.2).map fun ended =>
          (.assign (targetTree target cursor.pos) found.1,
            ended.2.skip (blankLength ended.2.rest)) := by
  obtain ⟨first, second, third, htarget, hname, hplace, hended⟩ := passes_takeText hs h
  refine ⟨first, second, third, hname, hplace, hended, ?_⟩
  have hrest : cursor.rest = target.chars ++ (" =".toList ++ (" ".toList ++ first.rest)) := by
    rw [htarget.rest, List.append_assoc, List.append_assoc]
  have hstart : skipBlanks false first.rest = first.rest := by
    obtain ⟨c, cs, hchars, hc⟩ := (takeName moved).exists_cons
    rw [hname.rest, hchars]
    exact skipBlanks_of_isIdentPart (isIdentPart_of_isIdentStart hc)
  rw [outcome_statement_of_target hrest, outcome_assigning htarget hstart]
  cases rvalue.outcome first with
  | none => rfl
  | some found =>
    simp only [Option.bind_some, Option.map_map]
    rfl

/-- The tree of a name that is assigned to means that name. -/
theorem meaning_targetTree (context : Context) (target : Name) (pos : Nat) :
    context.place (targetTree target pos) = .ok ⟨String.ofList target.chars, []⟩ :=
  (place_tree_eq_ok context).2 ⟨trivial, rfl⟩

/-- The tree of a copy or a move of a place means that operand. -/
theorem meaning_takeTree (moved : Bool) (hreadable : s.Readable) :
    context.operand (takeTree moved (s.tree pos)) = .ok (takeOperand moved s.place) := by
  have hplace : context.place (s.tree pos) = .ok s.place :=
    (place_tree_eq_ok context).2 ⟨hreadable, rfl⟩
  cases moved with
  | true =>
    rw [takeTree, Context.operand, hplace]
    rfl
  | false =>
    rw [takeTree, Context.operand, hplace]
    rfl

/-- A place that is no argument of a call is taken. -/
theorem readsStatement_use (ha : s.callArgument? = none) (hreadable : s.Readable)
    (hs : s.chars = text.toList) (h : cursor.Passes (takeText target moved text).toList next) :
    ReadsStatement context cursor (next.skip (blankLength next.rest))
      (.assign ⟨String.ofList target.chars, []⟩ (.use (takeOperand moved s.place))) := by
  obtain ⟨first, second, third, hname, hplace, hended, hread⟩ := outcome_statement_of_takeText hs h
  have hstops : Stops third.rest := by
    rw [hended.rest]
    exact stops_cons.2 (by decide)
  refine ⟨.assign (targetTree target cursor.pos) (.use (takeTree moved (s.tree second.pos))),
    ?_, ?_⟩
  · rw [hread, rvalue_of_no_argument ha hname hplace hstops, Option.bind_some,
      outcome_semicolon_of_passes hended]
    rfl
  · rw [Context.statement, meaning_targetTree, Context.rvalue, meaning_takeTree moved hreadable]
    rfl

/-- A place whose parentheses are all of it is the argument of a call. -/
theorem readsStatement_call {a : Operand} (ha : s.callArgument? = some a) (hreadable : s.Readable)
    (hsuffixes : s.suffixes = []) (hs : s.chars = text.toList)
    (h : cursor.Passes (takeText target moved text).toList next) :
    ReadsStatement context cursor (next.skip (blankLength next.rest))
      (.assign ⟨String.ofList target.chars, []⟩ (.call (takeWord moved) [a] [] none)) := by
  obtain ⟨first, second, third, hname, hplace, hended, hread⟩ := outcome_statement_of_takeText hs h
  obtain ⟨tree, closed, hrvalue, hclosed, hmeaning⟩ :=
    rvalue_of_argument ha hreadable hname hplace hended.rest
  rw [hsuffixes] at hclosed
  obtain rfl : closed = third := hclosed.skip
  refine ⟨.assign (targetTree target cursor.pos) (.call (takeWord moved) [tree] none), ?_, ?_⟩
  · rw [hread, hrvalue, Option.bind_some, outcome_semicolon_of_passes hended]
    rfl
  · have hargs : [tree].mapM context.operand = .ok [a] := by
      simp [hmeaning]
    rw [Context.statement, meaning_targetTree, Context.rvalue, hargs]
    rfl

/-- Behind the parentheses of a call no field and no index can follow. -/
theorem outcome_statement_of_projected {a : Operand} (ha : s.callArgument? = some a)
    (hreadable : s.Readable) (hsuffixes : s.suffixes ≠ []) (hs : s.chars = text.toList)
    (h : cursor.Passes (takeText target moved text).toList next) :
    statement.outcome cursor = none := by
  obtain ⟨first, second, third, hname, hplace, hended, hread⟩ := outcome_statement_of_takeText hs h
  obtain ⟨tree, closed, hrvalue, hclosed, -⟩ :=
    rvalue_of_argument ha hreadable hname hplace hended.rest
  rw [hread, hrvalue, Option.bind_some, outcome_semicolon_of_suffixes hsuffixes hclosed.rest]
  rfl

/-- A place is matched by the rule for places, and a plain spelling of it stands behind the keyword
of an assignment that takes it. The assignment is read as one that takes the place just if the
parentheses of the place, if it starts with any, cannot be those of a call. If they can, then the
statement is a call of the keyword where nothing is projected from the parentheses, and no statement
at all otherwise. -/
theorem taken_place_is_operand_iff (context : Context) (moved : Bool) (target : Name)
    {text : String} {tree : PlaceTree}
    (hmatch : place.outcome (Cursor.ofText text) = some (tree, ⟨text.length, []⟩))
    (h : cursor.Passes (takeText target moved text).toList next) :
    (∃ s : Spelling, s.chars = text.toList) ∧
    ∀ s : Spelling, s.chars = text.toList → s.isPlain = true →
      ∃ p, Place.ofText text = .ok p ∧
        (ReadsStatement context cursor (next.skip (blankLength next.rest))
          (.assign ⟨String.ofList target.chars, []⟩ (.use (takeOperand moved p))) ↔
          s.callArgument? = none) ∧
        ∀ a, s.callArgument? = some a →
          (s.suffixes = [] → ReadsStatement context cursor (next.skip (blankLength next.rest))
            (.assign ⟨String.ofList target.chars, []⟩ (.call (takeWord moved) [a] [] none))) ∧
          (s.suffixes ≠ [] → statement.outcome cursor = none) := by
  rw [outcome_place] at hmatch
  obtain ⟨matched, hpasses, -⟩ := readsSpellings_placeWithin _ hmatch
  refine ⟨⟨matched, by simpa [Cursor.ofText] using hpasses.rest.symm⟩, fun s hs hplain => ?_⟩
  obtain ⟨hreadable, -⟩ := Spelling.readable_of_isPlain hplain
  refine ⟨s.place, ?_, ⟨fun hreads => ?_, fun ha => readsStatement_use ha hreadable hs h⟩,
    fun a ha => ⟨fun hsuffixes => readsStatement_call ha hreadable hsuffixes hs h,
      fun hsuffixes => outcome_statement_of_projected ha hreadable hsuffixes hs h⟩⟩
  · rw [Place.ofText, ← hs]
    exact s.read_eq_ok.2 ⟨hreadable, rfl⟩
  · cases ha : s.callArgument? with
    | none => rfl
    | some a =>
      by_cases hsuffixes : s.suffixes = []
      · cases hreads.eq (readsStatement_call ha hreadable hsuffixes hs h)
      · obtain ⟨tree, hread, -⟩ := hreads
        rw [outcome_statement_of_projected ha hreadable hsuffixes hs h] at hread
        cases hread

end Statements

namespace Sample

/-- A star in front of parentheses from which an element is projected. -/
def starredGroup : Spelling :=
  .star [] (.group [] (.name nameP [.field nameF]) [] [.index ['i'] (by decide)])

/-- A local in parentheses. -/
def bareGroup : Spelling :=
  .group [] (.name nameX []) [] []

end Sample

open Sample

/-- The local that is assigned to may have a keyword for its name. -/
theorem move_of_starred_group :
    place.outcome (Cursor.ofText "*(p.f)[i]") =
        some (starredGroup.tree 0, ⟨"*(p.f)[i]".length, []⟩) ∧
      (Cursor.ofText "drop = move *(p.f)[i]; nop;").Passes
        (takeText ⟨"drop".toList, by decide⟩ true "*(p.f)[i]").toList ⟨22, " nop;".toList⟩ ∧
      ReadsStatement ⟨[], {}⟩ (Cursor.ofText "drop = move *(p.f)[i]; nop;") ⟨23, "nop;".toList⟩
        (.assign ⟨"drop", []⟩ (.use (.move ⟨"p", [.field "f", .index, .deref]⟩))) := by
  have hmatch : place.outcome (Cursor.ofText "*(p.f)[i]") =
      some (starredGroup.tree 0, ⟨"*(p.f)[i]".length, []⟩) :=
    outcome_place_of_passes ⟨rfl, rfl⟩ (by simp [Stops])
  have hpasses : (Cursor.ofText "drop = move *(p.f)[i]; nop;").Passes
      (takeText ⟨"drop".toList, by decide⟩ true "*(p.f)[i]").toList ⟨22, " nop;".toList⟩ :=
    ⟨by decide +kernel, by decide +kernel⟩
  refine ⟨hmatch, hpasses, ?_⟩
  obtain ⟨p, hread, hreads, -⟩ := (taken_place_is_operand_iff ⟨[], {}⟩ true
    ⟨"drop".toList, by decide⟩ hmatch hpasses).2 starredGroup rfl (by decide)
  have hp : p = ⟨"p", [.field "f", .index, .deref]⟩ := (starredGroup.read_eq_ok.1 hread).2
  subst hp
  exact hreads.2 (by decide)

/-- A copy of a place in parentheses is read as a call of the keyword. -/
theorem copy_of_group_is_call :
    place.outcome (Cursor.ofText "(x)") = some (bareGroup.tree 0, ⟨3, []⟩) ∧
      Place.ofText "(x)" = .ok ⟨"x", []⟩ ∧
      ReadsStatement ⟨[], {}⟩ (Cursor.ofText "y = copy (x);") ⟨13, []⟩
        (.assign ⟨"y", []⟩ (.call "copy" [.copy ⟨"x", []⟩] [] none)) ∧
      ∀ next, ¬ ReadsStatement ⟨[], {}⟩ (Cursor.ofText "y = copy (x);") next
        (.assign ⟨"y", []⟩ (.use (.copy ⟨"x", []⟩))) := by
  have hcall : ReadsStatement ⟨[], {}⟩ (Cursor.ofText "y = copy (x);") ⟨13, []⟩
      (.assign ⟨"y", []⟩ (.call "copy" [.copy ⟨"x", []⟩] [] none)) := by
    have hpasses : (Cursor.ofText "y = copy (x);").Passes
        (takeText ⟨['y'], by decide⟩ false "(x)").toList ⟨13, []⟩ :=
      ⟨by decide +kernel, by decide +kernel⟩
    have hreadable : bareGroup.Readable := by decide
    exact readsStatement_call rfl hreadable rfl rfl hpasses
  refine ⟨outcome_place_of_passes ⟨rfl, rfl⟩ (by simp [Stops]), ?_, hcall, fun next huse => ?_⟩
  · exact bareGroup.read_eq_ok.2 ⟨by decide, rfl⟩
  · cases hcall.eq huse

end Grammar

end RegionInference
