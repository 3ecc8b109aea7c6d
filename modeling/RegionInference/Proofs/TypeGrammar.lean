import Mathlib
import RegionInference.Proofs.OperandGrammar
import RegionInference.Proofs.RelatingLaws

/-!
# The grammar of types

The text of a type has the lifetime of a reference behind an ampersand and the arguments of a
nominal type in angle brackets. What is read from it is the type again, wherever the names in it
are known as they were when it was written: `Grammar.readsType_type`.

Choices of the grammar are final, and two of them are made on little evidence. The word `mut` behind
a lifetime is taken for the mark of a mutable reference as soon as a blank follows, and an angle
bracket behind a name for the start of its arguments. Both are right because of what can follow a
type (`Grammar.EndsType`), so this is carried along in every statement: no type has a blank behind
its name, whatever the name is.

Lists in angle brackets are those of the parameters of a struct as well, so what is said about them
(`Grammar.outcome_optional_bracketed`) is said for any parser of their items.
-/

namespace RegionInference

open Text Grammar Place

/-- Passing characters leaves fewer. -/
theorem Text.Cursor.Passes.length_lt {a b : Cursor} {cs : List Char} (h : a.Passes cs b)
    (hne : cs ≠ []) : b.rest.length < a.rest.length := by
  have hpos := List.length_pos_iff.2 hne
  rw [h.rest, List.length_append]
  omega

namespace Grammar

open Grammar.Parser

variable {cursor next : Cursor} {cs : List Char} {α β : Type}

/-! ### Names and lifetimes -/

/-- The text starts with no blank and no comment. -/
def NoBlank (cs : List Char) : Prop :=
  skipBlanks false cs = cs

/-- A text with a first character that opens no gap begins with no blank. -/
theorem noBlank_of_passes {c : Char} (h : cursor.Passes (c :: cs) next) (hhash : c ≠ '#')
    (hslash : c ≠ '/') (hblank : isBlank c = false) : NoBlank cursor.rest := by
  rw [h.rest]
  exact skipBlanks_of_start hhash hslash hblank

/-- There the parser of blanks reads nothing. -/
theorem outcome_blanks_of_noBlank (h : NoBlank cursor.rest) :
    blanks.outcome cursor = some ((), cursor) :=
  outcome_blanks_of_passes (Cursor.Passes.refl cursor) h

/-- The blank behind something is passed whether one has to be there or may be there. -/
theorem spaced_of_passes (h : cursor.Passes (cs ++ " ".toList) next) (hstart : NoBlank next.rest) :
    ∃ middle, cursor.Passes cs middle ∧ middle.rest = ' ' :: next.rest ∧
      blanks.outcome middle = some ((), next) ∧ spacing.outcome middle = some ((), next) := by
  obtain ⟨middle, hfront, hspace⟩ := h.split
  have hskip : skipBlanks false middle.rest = next.rest := by
    rw [hspace.rest]
    exact skipBlanks_space hstart
  exact ⟨middle, hfront, hspace.rest, outcome_blanks_of_passes hspace hskip,
    outcome_spacing_of_passes hspace (by decide) hskip⟩

/-- An identifier is read as itself. -/
theorem outcome_ident_of_isIdent {name : String} (hname : isIdent name.toList = true)
    (h : cursor.Passes name.toList next) (hends : EndsIdent next.rest) :
    ident.outcome cursor = some (name, next) := by
  have hpasses : cursor.Passes (Name.mk name.toList hname).chars next := h
  rw [outcome_ident_of_passes hpasses hends, String.ofList_toList]

/-- A marked identifier is read as a lifetime. -/
theorem outcome_lifetime_of_passes {name : String} (hname : isIdent name.toList = true)
    (h : cursor.Passes ("'" ++ name).toList next) (hends : EndsIdent next.rest) :
    lifetime.outcome cursor = some (name, next) := by
  have hlength : lifetimeLength cursor.rest = some ("'" ++ name).toList.length := by
    rw [h.rest]
    simp [lifetimeLength, identLength, ident?_append_of_ends hname hends]
  have htoken : (token lifetimeLength).outcome cursor = some ("'" ++ name, next) := by
    rw [outcome_token, hlength, Option.map_some, h.skip, h.rest, List.take_left,
      String.ofList_toList]
  have hdrop : (("'" ++ name).drop 1).copy = name := by
    rw [← String.toList_inj]
    simp [String.toList_copy_drop]
  simp [lifetime, htoken, hdrop]

/-- Without the mark, no lifetime is read. -/
theorem outcome_lifetime_of_head (h : cursor.rest.head? ≠ some '\'') :
    lifetime.outcome cursor = none := by
  have hlength : lifetimeLength cursor.rest = none := by
    cases hrest : cursor.rest with
    | nil => rfl
    | cons c cs =>
      rw [hrest, List.head?_cons, ne_eq, Option.some.injEq] at h
      simp [lifetimeLength, h]
  simp [lifetime, outcome_token, hlength]

/-- What may follow a type: the text goes on with no letter of a name, no blank and no list. -/
structure EndsType (cs : List Char) : Prop where
  endsIdent : EndsIdent cs
  noBlank : NoBlank cs
  head?_ne : cs.head? ≠ some '<'

/-- A declaration ends behind its type, or the type is followed by the next item of a list or by the
end of the list. -/
theorem endsType_of_head {c : Char} (h : cs.head? = some c) (hc : c = ';' ∨ c = ',' ∨ c = '>') :
    EndsType cs := by
  obtain ⟨tail, rfl⟩ := List.head?_eq_some_iff.1 h
  rcases hc with rfl | rfl | rfl <;>
    exact ⟨endsIdent_cons.2 (by decide), skipBlanks_of_start (by decide) (by decide) (by decide),
      by simp⟩

/-! ### Items in a row -/

/-- Wherever the characters are written and are followed by what may follow them, a value is read
that is meant by them. -/
def Reads (Follows : List Char → Prop) (p : Parser α) (chars : List Char) (Meant : α → Prop) :
    Prop :=
  ∀ ⦃cursor next : Cursor⦄, cursor.Passes chars next → Follows next.rest →
    ∃ a, p.outcome cursor = some (a, next) ∧ Meant a

section Rows

variable {p : Parser α} {chars : β → List Char} {Meant : β → α → Prop}
  {Follows : List Char → Prop} {items : List β}

/-- What may follow an item may follow it behind other items. -/
theorem follows_flatMap (hfollows : ∀ item ∈ items, ∀ rest, Follows (chars item ++ rest))
    (h : Follows cs) : Follows (items.flatMap chars ++ cs) := by
  cases items with
  | nil => exact h
  | cons item items =>
    rw [List.flatMap_cons, List.append_assoc]
    exact hfollows item List.mem_cons_self _

/-- Items in a row are read one after the other, if each of them may follow the one before, and then
what is read behind them. -/
theorem outcome_many_append (h : ∀ item ∈ items, Reads Follows p (chars item) (Meant item))
    (hfollows : ∀ item ∈ items, chars item ≠ [] ∧ ∀ rest, Follows (chars item ++ rest))
    (hpasses : cursor.Passes (items.flatMap chars) next) (hnext : Follows next.rest) :
    ∃ values, List.Forall₂ Meant items values ∧
      (many p).outcome cursor =
        ((many p).outcome next).map fun found => (values ++ found.1, found.2) := by
  induction items generalizing cursor with
  | nil =>
    obtain rfl : cursor = next := hpasses.skip
    exact ⟨[], .nil, by simp⟩
  | cons item items ih =>
    rw [List.flatMap_cons] at hpasses
    obtain ⟨middle, hitem, hitems⟩ := hpasses.split
    have hmiddle : Follows middle.rest := by
      rw [hitems.rest]
      exact follows_flatMap (fun item hmem => (hfollows item (.tail _ hmem)).2) hnext
    obtain ⟨a, hread, hmeant⟩ := h item List.mem_cons_self hitem hmiddle
    obtain ⟨values, hmeants, hvalues⟩ := ih (fun item hmem => h item (.tail _ hmem))
      (fun item hmem => hfollows item (.tail _ hmem)) hitems
    have hlt : middle.rest.length < cursor.rest.length :=
      hitem.length_lt (hfollows item List.mem_cons_self).1
    refine ⟨a :: values, .cons hmeant hmeants, ?_⟩
    rw [outcome_many_of_some hread hlt, hvalues, Option.map_map]
    rfl

/-- Items in a row are read up to where no further item is read. -/
theorem outcome_many_of_reads (h : ∀ item ∈ items, Reads Follows p (chars item) (Meant item))
    (hfollows : ∀ item ∈ items, chars item ≠ [] ∧ ∀ rest, Follows (chars item ++ rest))
    (hpasses : cursor.Passes (items.flatMap chars) next) (hnext : Follows next.rest)
    (hnone : p.outcome next = none) :
    ∃ values, (many p).outcome cursor = some (values, next) ∧
      List.Forall₂ Meant items values := by
  obtain ⟨values, hmeant, hvalues⟩ := outcome_many_append h hfollows hpasses hnext
  refine ⟨values, ?_, hmeant⟩
  rw [hvalues, outcome_many_of_none hnone]
  simp

end Rows

/-! ### Lists in angle brackets -/

/-- What an item of a list is written as: no blank is in front, and a value is read that is meant
by it. -/
structure ReadsAs (p : Parser α) (chars : List Char) (Meant : α → Prop) : Prop where
  start : ∀ rest, NoBlank (chars ++ rest)
  read : Reads EndsType p chars Meant

/-- A comma, and then the next item of a list. -/
def nextItem (p : Parser α) : Parser α := do
  blanks
  literal ","
  blanks
  p

/-- A list is its first item, and then those behind commas. -/
theorem separated_eq (p : Parser α) : separated p = do
    let first ← p
    let others ← many (nextItem p)
    return first :: others := rfl

/-- Items with commas between them, in angle brackets. -/
def bracketed (p : Parser α) : Parser (List α) := do
  literal "<"
  blanks
  let items ← separated p
  blanks
  literal ">"
  return items

/-- An item behind a comma. -/
def nextChars (chars : β → List Char) (item : β) : List Char :=
  (",".toList ++ " ".toList) ++ chars item

/-- The items of a list in angle brackets, or nothing if there are none. -/
def bracketChars (chars : β → List Char) : List β → List Char
  | [] => []
  | first :: others =>
    "<".toList ++ (chars first ++ (others.flatMap (nextChars chars) ++ ">".toList))

section Brackets

variable {p : Parser α} {chars : β → List Char} {Meant : β → α → Prop} {items : List β} {item : β}

/-- The text of a list is its first item, and then those behind commas. -/
theorem intercalate_cons_eq (item : β) (items : List β) :
    ", ".toList.intercalate ((item :: items).map chars) =
      chars item ++ items.flatMap (nextChars chars) := by
  induction items generalizing item with
  | nil => simp
  | cons second items ih =>
    rw [List.map_cons, List.map_cons, List.intercalate_cons_cons, ← List.map_cons, ih]
    simp [nextChars]

/-- No item is longer than the list it is in. -/
theorem length_le_flatMap (h : item ∈ items) :
    (chars item).length ≤ (items.flatMap (nextChars chars)).length := by
  rw [List.length_flatMap]
  calc (chars item).length
    _ ≤ (nextChars chars item).length := by simp only [nextChars, List.length_append]; omega
    _ ≤ _ := List.le_sum_of_mem (List.mem_map.2 ⟨item, h, rfl⟩)

/-- Every item of a list is shorter than the list in its brackets. -/
theorem length_lt_bracketChars (h : item ∈ items) :
    (chars item).length < (bracketChars chars items).length := by
  cases items with
  | nil => cases h
  | cons first others =>
    have hopen : "<".length = 1 := rfl
    simp only [bracketChars, List.length_append, String.length_toList]
    rcases List.mem_cons.1 h with rfl | hothers
    · omega
    · have hle : (chars item).length ≤ (others.flatMap (nextChars chars)).length :=
        length_le_flatMap hothers
      omega

/-- A comma ends a type. -/
theorem endsType_nextChars (item : β) (rest : List Char) :
    EndsType (nextChars chars item ++ rest) := by
  have hhead : (nextChars chars item ++ rest).head? = some ',' := rfl
  exact endsType_of_head hhead (by decide)

/-- An item is read behind a comma, if it is read alone. -/
theorem reads_nextItem (h : ReadsAs p (chars item) (Meant item)) :
    Reads EndsType (nextItem p) (nextChars chars item) (Meant item) := by
  intro cursor next hpasses hends
  obtain ⟨second, hpasses, hitem⟩ := hpasses.split
  have hstart : NoBlank second.rest := by
    rw [hitem.rest]
    exact h.start next.rest
  obtain ⟨first, hcomma, -, hblanks', -⟩ := spaced_of_passes hpasses hstart
  obtain ⟨a, hread, hmeant⟩ := h.read hitem hends
  have hblanks : blanks.outcome cursor = some ((), cursor) :=
    outcome_blanks_of_noBlank (noBlank_of_passes hcomma (by decide) (by decide) (by decide))
  exact ⟨a, by simp [nextItem, hblanks, outcome_literal_eq_some.2 hcomma, hblanks', hread], hmeant⟩

/-- Items behind commas are read up to the closing bracket. -/
theorem outcome_many_nextItem (h : ∀ item ∈ items, ReadsAs p (chars item) (Meant item))
    (hpasses : cursor.Passes (items.flatMap (nextChars chars)) next)
    (hclose : next.rest.head? = some '>') :
    ∃ values, (many (nextItem p)).outcome cursor = some (values, next) ∧
      List.Forall₂ Meant items values := by
  have hends : EndsType next.rest := endsType_of_head hclose (by decide)
  refine outcome_many_of_reads (fun item hitem => reads_nextItem (h item hitem))
    (fun item _ => ⟨by simp [nextChars], endsType_nextChars item⟩) hpasses hends ?_
  have hcomma : (literal ",").outcome next = none :=
    outcome_literal_of_head ',' rfl (by rw [hclose]; decide)
  simp [nextItem, outcome_blanks_of_noBlank hends.noBlank, hcomma]

/-- A list in brackets is read, item by item. -/
theorem outcome_bracketed (h : ∀ item ∈ items, ReadsAs p (chars item) (Meant item))
    (hne : items ≠ []) (hpasses : cursor.Passes (bracketChars chars items) next) :
    ∃ values, (bracketed p).outcome cursor = some (values, next) ∧
      List.Forall₂ Meant items values := by
  obtain ⟨item, items, rfl⟩ := List.exists_cons_of_ne_nil hne
  have hreads := h item List.mem_cons_self
  obtain ⟨first, hopen, hpasses⟩ := hpasses.split
  obtain ⟨second, hitem, hpasses⟩ := hpasses.split
  obtain ⟨third, hlater, hclose⟩ := hpasses.split
  have hhead : third.rest.head? = some '>' := by
    rw [hclose.rest]
    rfl
  have hends : EndsType third.rest := endsType_of_head hhead (by decide)
  have hends' : EndsType second.rest := by
    rw [hlater.rest]
    exact follows_flatMap (fun other _ => endsType_nextChars other) hends
  obtain ⟨a, hread, hmeant⟩ := hreads.read hitem hends'
  obtain ⟨values, hvalues, hmeants⟩ :=
    outcome_many_nextItem (fun item hmem => h item (.tail _ hmem)) hlater hhead
  have hblanks : blanks.outcome first = some ((), first) := by
    refine outcome_blanks_of_noBlank ?_
    rw [hitem.rest]
    exact hreads.start second.rest
  refine ⟨a :: values, ?_, .cons hmeant hmeants⟩
  simp [bracketed, separated_eq, outcome_literal_eq_some.2 hopen, hblanks, hread, hvalues,
    outcome_blanks_of_noBlank hends.noBlank, outcome_literal_eq_some.2 hclose]

/-- A list in angle brackets is read whole, and no list is read where there is none. -/
theorem outcome_optional_bracketed (name : String)
    (h : ∀ item ∈ items, ReadsAs p (chars item) (Meant item))
    (hpasses : cursor.Passes (bracketChars chars items) next)
    (hnext : next.rest.head? ≠ some '<') :
    ∃ found, (optional (rule name (bracketed p))).outcome cursor = some (found, next) ∧
      List.Forall₂ Meant items (found.getD []) := by
  cases items with
  | nil =>
    obtain rfl : cursor = next := hpasses.skip
    have hopen : (literal "<").outcome cursor = none := outcome_literal_of_head '<' rfl hnext
    refine ⟨none, outcome_optional_of_none ?_, .nil⟩
    simp [bracketed, hopen]
  | cons item items =>
    obtain ⟨values, hvalues, hmeant⟩ := outcome_bracketed h (List.cons_ne_nil _ _) hpasses
    refine ⟨some values, outcome_optional_of_some ?_ ?_, hmeant⟩
    · rw [outcome_rule, hvalues]
    · simp [hpasses.rest, bracketChars]

/-- What stands behind a name, a list in angle brackets or not, does not belong to the name. -/
theorem ends_bracketChars (items : List β) (hnext : EndsType cs) :
    EndsIdent (bracketChars chars items ++ cs) ∧ NoBlank (bracketChars chars items ++ cs) := by
  cases items with
  | nil => exact ⟨hnext.endsIdent, hnext.noBlank⟩
  | cons item items =>
    exact ⟨endsIdent_cons.2 (by decide), skipBlanks_of_start (by decide) (by decide) (by decide)⟩

end Brackets

end Grammar

/-! ### Types over a table -/

/-- The nominal types that can be named: those of a table, and the cell unless the table has a type
of that name. -/
def AdtDecl.Declared (table : List AdtDecl) (decl : AdtDecl) : Prop :=
  decl ∈ table ∨ decl = .cell ∧ ∀ other ∈ table, other.name ≠ decl.name

/-- Types of which every nominal part is declared, every other name is not, and every name is an
identifier. -/
inductive Ty.Over (table : List AdtDecl) : Ty → Prop
  /-- A name that is not declared. -/
  | scalar {name : String} (hname : isIdent name.toList = true)
      (hfree : ∀ decl, AdtDecl.Declared table decl → decl.name ≠ name) : Over table (.scalar name)
  /-- A reference. -/
  | ref {lifetime : String} {mutable : Bool} {referent : Ty}
      (hlifetime : isIdent lifetime.toList = true) (hreferent : Over table referent) :
      Over table (.ref lifetime mutable referent)
  /-- An instance of a declared type. -/
  | adt {decl : AdtDecl} {lifetimes : List String} {args : List Ty}
      (hdecl : AdtDecl.Declared table decl)
      (hlifetimes : ∀ lifetime ∈ lifetimes, isIdent lifetime.toList = true)
      (hargs : ∀ arg ∈ args, Over table arg) : Over table (.adt decl lifetimes args)

namespace Grammar

open Grammar.Parser

variable {cursor next : Cursor} {cs : List Char} {context : Context} {table : List AdtDecl}

/-- A context in which just the types of a table can be named, and each by an identifier. -/
structure Context.Knows (context : Context) (table : List AdtDecl) : Prop where
  struct?_eq_some : ∀ name decl, context.struct? name = some decl ↔
    AdtDecl.Declared table decl ∧ decl.name = name
  isIdent_name : ∀ decl, AdtDecl.Declared table decl → isIdent decl.name.toList = true

/-! ### The texts of types -/

/-- The text of an argument of a type, a lifetime or a type. -/
def argText : String ⊕ Ty → String
  | .inl lifetime => "'" ++ lifetime
  | .inr ty => ty.text

/-- The characters of an argument. -/
def argChars (arg : String ⊕ Ty) : List Char :=
  (argText arg).toList

/-- The arguments of a type, lifetimes first. -/
def argsOf (lifetimes : List String) (args : List Ty) : List (String ⊕ Ty) :=
  lifetimes.map .inl ++ args.map .inr

/-- The characters of the mark of a reference. -/
def markChars : Bool → List Char
  | true => "mut".toList ++ " ".toList
  | false => []

/-- The texts of some types are those of each of them. -/
theorem texts_eq_map : ∀ tys : List Ty, Ty.texts tys = tys.map Ty.text
  | [] => rfl
  | ty :: tys => by rw [Ty.texts, texts_eq_map tys, List.map_cons]

/-- The characters of a reference, part by part. -/
theorem toList_text_ref (lifetime : String) (mutable : Bool) (referent : Ty) :
    (Ty.ref lifetime mutable referent).text.toList = "&".toList ++
      (("'" ++ lifetime).toList ++ " ".toList ++ (markChars mutable ++ referent.text.toList)) := by
  cases mutable <;> simp [Ty.text, markChars]

/-- The characters of an instance: its name, and its arguments in brackets. -/
theorem toList_text_adt (decl : AdtDecl) (lifetimes : List String) (args : List Ty) :
    (Ty.adt decl lifetimes args).text.toList =
      decl.name.toList ++ bracketChars argChars (argsOf lifetimes args) := by
  have hitems : lifetimes.map ("'" ++ ·) ++ Ty.texts args =
      (argsOf lifetimes args).map argText := by
    simp [texts_eq_map, argsOf, argText, Function.comp_def]
  rw [Ty.text, hitems]
  cases argsOf lifetimes args with
  | nil => simp [bracketChars]
  | cons first others =>
    have hchars : ((first :: others).map argText).map String.toList =
        (first :: others).map argChars := by
      simp [argChars]
    have hjoined : (", ".intercalate ((first :: others).map argText)).toList =
        argChars first ++ others.flatMap (nextChars argChars) := by
      rw [String.toList_intercalate, hchars, intercalate_cons_eq]
    rw [List.map_cons] at hjoined ⊢
    simp [bracketChars, hjoined]

/-- The text of a type starts with an ampersand, or with a name and its arguments. -/
theorem text_cases (hcontext : context.Knows table) {ty : Ty} (h : ty.Over table) :
    (∃ cs, ty.text.toList = '&' :: cs) ∨
      ∃ (name : Name) (items : List (String ⊕ Ty)),
        ty.text.toList = name.chars ++ bracketChars argChars items := by
  cases h with
  | @scalar name hname hfree =>
    exact .inr ⟨⟨name.toList, hname⟩, [], by simp [Ty.text, bracketChars]⟩
  | @ref lifetime mutable referent hlifetime hreferent => exact .inl ⟨_, toList_text_ref ..⟩
  | @adt decl lifetimes args hdecl hlifetimes hargs =>
    exact .inr ⟨⟨decl.name.toList, hcontext.isIdent_name decl hdecl⟩, argsOf lifetimes args,
      toList_text_adt ..⟩

/-- No blank stands in front of a name. -/
theorem noBlank_name (name : Name) (rest : List Char) : NoBlank (name.chars ++ rest) := by
  obtain ⟨c, cs, hname, hstart⟩ := name.exists_cons
  rw [hname, List.cons_append]
  exact skipBlanks_of_isIdentPart (isIdentPart_of_isIdentStart hstart)

/-- No blank stands in front of a type. -/
theorem noBlank_text (hcontext : context.Knows table) {ty : Ty} (h : ty.Over table)
    (rest : List Char) : NoBlank (ty.text.toList ++ rest) := by
  rcases text_cases hcontext h with ⟨cs, htext⟩ | ⟨name, items, htext⟩
  · rw [htext]
    exact skipBlanks_of_start (by decide) (by decide) (by decide)
  · rw [htext, List.append_assoc]
    exact noBlank_name name _

/-- No type begins with the mark of a lifetime. -/
theorem head?_text_ne (hcontext : context.Knows table) {ty : Ty} (h : ty.Over table)
    {rest : List Char} : (ty.text.toList ++ rest).head? ≠ some '\'' := by
  rcases text_cases hcontext h with ⟨cs, htext⟩ | ⟨name, items, htext⟩
  · simp [htext]
  · rw [htext, List.append_assoc]
    exact name.head?_ne (by decide) _

/-! ### References -/

/-- The word for a mutable reference is read where it stands. -/
theorem outcome_mutable_of_passes (h : cursor.Passes ("mut".toList ++ " ".toList) next)
    (hstart : NoBlank next.rest) :
    mutable.outcome cursor = some ((), next) := by
  obtain ⟨middle, hword, -, -, hspacing⟩ := spaced_of_passes h hstart
  simp [mutable, outcome_literal_eq_some.2 hword, hspacing]

/-- A keyword and a blank are not read from a name, not even from one that is the keyword, where no
blank is behind it. -/
theorem outcome_spaced_of_name {word : String} {name : Name}
    (hword : word.toList.all isIdentPart = true) (hrest : cursor.rest = name.chars ++ cs)
    (hends : EndsIdent cs) (hstart : NoBlank cs) :
    (literal word >>= fun _ => spacing).outcome cursor = none := by
  refine outcome_keyword_of_name hrest hends hword ?_
  intro next more hnext hmore
  apply outcome_spacing_of_start
  rw [hnext]
  cases more with
  | nil => exact hstart
  | cons c more => exact skipBlanks_of_isIdentPart (hmore c List.mem_cons_self)

/-- It is not read from a type, even from one whose name begins with it. -/
theorem outcome_mutable_of_text (hcontext : context.Knows table) {ty : Ty} (h : ty.Over table)
    (hpasses : cursor.Passes ty.text.toList next) (hends : EndsType next.rest) :
    mutable.outcome cursor = none := by
  rcases text_cases hcontext h with ⟨cs, htext⟩ | ⟨name, items, htext⟩
  · have hword : (literal "mut").outcome cursor = none :=
      outcome_literal_of_head 'm' rfl (by simp [hpasses.rest, htext])
    simp [mutable, hword]
  · have hrest : cursor.rest = name.chars ++ (bracketChars argChars items ++ next.rest) := by
      rw [hpasses.rest, htext, List.append_assoc]
    obtain ⟨hident, hstart⟩ := ends_bracketChars items hends
    rw [mutable, outcome_rule]
    exact outcome_spaced_of_name (by decide) hrest hident hstart

/-- The mark of a reference is read just where it is written. -/
theorem outcome_mark (hcontext : context.Knows table) {ty : Ty} (h : ty.Over table)
    {mutable' : Bool} {middle : Cursor} (hmark : cursor.Passes (markChars mutable') middle)
    (htext : middle.Passes ty.text.toList next) (hends : EndsType next.rest) :
    ∃ found, (optional mutable).outcome cursor = some (found, middle) ∧
      found.isSome = mutable' := by
  cases mutable' with
  | true =>
    have hstart : NoBlank middle.rest := by
      rw [htext.rest]
      exact noBlank_text hcontext h next.rest
    have hne : cursor.rest ≠ [] := by simp [hmark.rest, markChars]
    exact ⟨some (), outcome_optional_of_some (outcome_mutable_of_passes hmark hstart) hne, rfl⟩
  | false =>
    obtain rfl : cursor = middle := hmark.skip
    exact ⟨none, outcome_optional_of_none (outcome_mutable_of_text hcontext h htext hends), rfl⟩

/-- A reference. -/
def referenceType (inner : Parser TypeTree) : Parser TypeTree := do
  literal "&"
  let lifetime ← lifetime
  blanks
  let mutable ← optional mutable
  return .ref lifetime mutable.isSome (← inner)

/-- An argument of a type. -/
def typeArg (inner : Parser TypeTree) : Parser TypeArg :=
  rule "type_arg" (oneOf [
    do
      return .lifetime (← lifetime),
    do
      return .type (← inner)])

/-- A name with its arguments. -/
def nominalType (inner : Parser TypeTree) : Parser TypeTree := do
  let start ← position
  let name ← ident
  blanks
  let args ← optional (rule "type_args" (bracketed (typeArg inner)))
  return namedType start name (args.getD [])

/-- The alternatives for a type, with a type inside at one depth less. -/
theorem typeWithin_succ (depth : Nat) : typeWithin (depth + 1) =
    rule "type" (oneOf [
      rule "ref_type" (referenceType (typeWithin depth)),
      rule "adt_type" (nominalType (typeWithin depth))]) := rfl

/-- Where a type is written, it is read, and read as itself. -/
def ReadsType (context : Context) (p : Parser TypeTree) (ty : Ty) : Prop :=
  ReadsAs p ty.text.toList fun tree => context.type tree = .ok ty

/-- A reference is read if its referent is, at one depth less. -/
theorem readsType_ref (hcontext : context.Knows table) {lifetime' : String} {mutable' : Bool}
    {referent : Ty} {depth : Nat} (hlifetime : isIdent lifetime'.toList = true)
    (hreferent : referent.Over table) (hinner : ReadsType context (typeWithin depth) referent) :
    ReadsType context (typeWithin (depth + 1)) (.ref lifetime' mutable' referent) where
  start := noBlank_text hcontext (.ref hlifetime hreferent)
  read := by
    intro cursor next hpasses hends
    rw [toList_text_ref] at hpasses
    obtain ⟨first, hmark, hpasses⟩ := hpasses.split
    obtain ⟨third, hspaced, hpasses⟩ := hpasses.split
    obtain ⟨fourth, hmutable, htext⟩ := hpasses.split
    have hstart : NoBlank third.rest := by
      rw [hmutable.rest, htext.rest]
      cases mutable' with
      | true => exact skipBlanks_of_start (by decide) (by decide) (by decide)
      | false => exact hinner.start next.rest
    obtain ⟨second, hname, hspace, hblanks, -⟩ := spaced_of_passes hspaced hstart
    have hident : EndsIdent second.rest := by
      rw [hspace]
      exact endsIdent_cons.2 (by decide)
    obtain ⟨found, hfound, hsome⟩ := outcome_mark hcontext hreferent hmutable htext hends
    obtain ⟨tree, hread, hmeant⟩ := hinner.read htext hends
    have hmeant' : context.type (.ref lifetime' mutable' tree) =
        .ok (.ref lifetime' mutable' referent) := by
      rw [Context.type, hmeant]
      rfl
    refine ⟨.ref lifetime' mutable' tree, ?_, hmeant'⟩
    simp [typeWithin_succ, referenceType, outcome_literal_eq_some.2 hmark,
      outcome_lifetime_of_passes hlifetime hname hident, hblanks, hfound, hread, hsome]

/-! ### Names with arguments -/

/-- What an argument that is read says. -/
def ArgMeans (context : Context) : String ⊕ Ty → TypeArg → Prop
  | .inl lifetime, .lifetime name => name = lifetime
  | .inr ty, .type tree => context.type tree = .ok ty
  | _, _ => False

/-- A lifetime is read as an argument. -/
theorem readsAs_lifetime_arg {inner : Parser TypeTree} {lifetime' : String}
    (hlifetime : isIdent lifetime'.toList = true) :
    ReadsAs (typeArg inner) (argChars (.inl lifetime')) (ArgMeans context (.inl lifetime')) where
  start := by
    intro rest
    simp only [argChars, argText, String.toList_append, List.append_assoc]
    exact skipBlanks_of_start (by decide) (by decide) (by decide)
  read := by
    intro cursor next hpasses hends
    refine ⟨.lifetime lifetime', ?_, rfl⟩
    simp [typeArg, outcome_lifetime_of_passes hlifetime hpasses hends.endsIdent]

/-- A type is read as an argument if it is read as a type. -/
theorem readsAs_type_arg (hcontext : context.Knows table) {inner : Parser TypeTree} {ty : Ty}
    (hty : ty.Over table) (hinner : ReadsType context inner ty) :
    ReadsAs (typeArg inner) (argChars (.inr ty)) (ArgMeans context (.inr ty)) where
  start := hinner.start
  read := by
    intro cursor next hpasses hends
    obtain ⟨tree, hread, hmeant⟩ := hinner.read hpasses hends
    have hmark : lifetime.outcome cursor = none := by
      apply outcome_lifetime_of_head
      rw [hpasses.rest]
      exact head?_text_ne hcontext hty
    exact ⟨.type tree, by simp [typeArg, hmark, hread], hmeant⟩

/-- The argument as a lifetime. -/
def argLifetime? : TypeArg → Option String
  | .lifetime name => some name
  | .type _ => none

/-- The argument as a type. -/
def argType? : TypeArg → Option TypeTree
  | .lifetime _ => none
  | .type tree => some tree

/-- The arguments of a name are told apart into lifetimes and types. -/
theorem namedType_eq (start : Nat) (name : String) (values : List TypeArg) :
    namedType start name values =
      .named start name (values.filterMap argLifetime?) (values.filterMap argType?) := rfl

section Arguments

variable {items : List (String ⊕ Ty)} {values : List TypeArg}

/-- The lifetimes among what is read are those that were written. -/
theorem filterMap_argLifetime? (h : List.Forall₂ (ArgMeans context) items values) :
    values.filterMap argLifetime? = items.filterMap Sum.getLeft? := by
  induction h with
  | nil => rfl
  | @cons item value items values hmeant _ ih =>
    cases item with
    | inl lifetime =>
      cases value with
      | lifetime name =>
        obtain rfl : name = lifetime := hmeant
        simp [argLifetime?, ih]
      | type tree => exact hmeant.elim
    | inr ty =>
      cases value with
      | lifetime name => exact hmeant.elim
      | type tree => rw [List.filterMap_cons_none rfl, List.filterMap_cons_none rfl, ih]

/-- The types among what is read mean those that were written. -/
theorem types_argType? (h : List.Forall₂ (ArgMeans context) items values) :
    context.types (values.filterMap argType?) = .ok (items.filterMap Sum.getRight?) := by
  induction h with
  | nil => rfl
  | @cons item value items values hmeant _ ih =>
    cases item with
    | inl lifetime =>
      cases value with
      | lifetime name => rw [List.filterMap_cons_none rfl, List.filterMap_cons_none rfl, ih]
      | type tree => exact hmeant.elim
    | inr ty =>
      cases value with
      | lifetime name => exact hmeant.elim
      | type tree =>
        have hty : context.type tree = .ok ty := hmeant
        have hvalues : (TypeArg.type tree :: values).filterMap argType? =
            tree :: values.filterMap argType? := rfl
        rw [hvalues, Context.types, hty, ih]
        rfl

/-- Lifetimes and types are told apart again, and each keeps its place among its own kind. -/
theorem type_namedType (h : List.Forall₂ (ArgMeans context) items values) (start : Nat)
    (name : String) :
    context.type (namedType start name values) =
      context.instantiate start name (items.filterMap Sum.getLeft?)
        (items.filterMap Sum.getRight?) := by
  rw [namedType_eq, Context.type, filterMap_argLifetime? h, types_argType? h]
  rfl

/-- The lifetimes among the arguments. -/
theorem getLeft?_argsOf (lifetimes : List String) (args : List Ty) :
    (argsOf lifetimes args).filterMap Sum.getLeft? = lifetimes := by
  simp [argsOf, List.filterMap_map, Function.comp_def]

/-- The types among the arguments. -/
theorem getRight?_argsOf (lifetimes : List String) (args : List Ty) :
    (argsOf lifetimes args).filterMap Sum.getRight? = args := by
  simp [argsOf, List.filterMap_map, Function.comp_def]

end Arguments

/-- A name with its arguments is read as a type if it is an instance of what the name stands for. -/
theorem readsType_nominal {depth : Nat} {ty : Ty} {name : Name} {items : List (String ⊕ Ty)}
    (htext : ty.text.toList = name.chars ++ bracketChars argChars items)
    (hitems : ∀ item ∈ items,
      ReadsAs (typeArg (typeWithin depth)) (argChars item) (ArgMeans context item))
    (hmeant : ∀ start, context.instantiate start (String.ofList name.chars)
      (items.filterMap Sum.getLeft?) (items.filterMap Sum.getRight?) = .ok ty) :
    ReadsType context (typeWithin (depth + 1)) ty where
  start := by
    intro rest
    rw [htext, List.append_assoc]
    exact noBlank_name name _
  read := by
    intro cursor next hpasses hends
    rw [htext] at hpasses
    have hmark : (literal "&").outcome cursor = none := by
      refine outcome_literal_of_head '&' rfl ?_
      rw [hpasses.rest, List.append_assoc]
      exact name.head?_ne (by decide) _
    obtain ⟨middle, hname, hlist⟩ := hpasses.split
    obtain ⟨hident, hstart⟩ : EndsIdent middle.rest ∧ NoBlank middle.rest := by
      rw [hlist.rest]
      exact ends_bracketChars items hends
    obtain ⟨found, hfound, hargs⟩ :=
      outcome_optional_bracketed "type_args" hitems hlist hends.head?_ne
    refine ⟨namedType cursor.pos (String.ofList name.chars) (found.getD []), ?_,
      (type_namedType hargs ..).trans (hmeant cursor.pos)⟩
    simp [typeWithin_succ, referenceType, hmark, nominalType, outcome_ident_of_passes hname hident,
      outcome_blanks_of_noBlank hstart, hfound]

/-! ### Types -/

/-- A declared name with as many arguments as parameters is an instance. -/
theorem instantiate_of_declared (hcontext : context.Knows table) {decl : AdtDecl}
    (hdecl : AdtDecl.Declared table decl) (start : Nat) {lifetimes : List String} {args : List Ty}
    (hlifetimes : lifetimes.length = decl.lifetimeParams.length)
    (hargs : args.length = decl.typeParams.length) :
    context.instantiate start decl.name lifetimes args = .ok (.adt decl lifetimes args) := by
  have hstruct : context.struct? decl.name = some decl :=
    (hcontext.struct?_eq_some _ _).2 ⟨hdecl, rfl⟩
  simp only [Context.instantiate, hstruct, Ty.instantiate, if_pos (And.intro hlifetimes hargs)]
  rfl

/-- A name that is not declared and has no arguments is a scalar. -/
theorem instantiate_of_free (hcontext : context.Knows table) {name : String}
    (hfree : ∀ decl, AdtDecl.Declared table decl → decl.name ≠ name) (start : Nat) :
    context.instantiate start name [] [] = .ok (.scalar name) := by
  have hstruct : context.struct? name = none := by
    rw [Option.eq_none_iff_forall_ne_some]
    intro decl hsome
    obtain ⟨hdecl, hname⟩ := (hcontext.struct?_eq_some _ _).1 hsome
    exact hfree decl hdecl hname
  simp [Context.instantiate, hstruct]

/-- A type is read as itself at any depth that its text allows for. -/
theorem readsType_typeWithin (hcontext : context.Knows table) {ty : Ty} (h : ty.Over table)
    (hwell : ty.WellFormed) {depth : Nat} (hdepth : ty.text.toList.length ≤ depth) :
    ReadsType context (typeWithin (depth + 1)) ty := by
  induction h generalizing depth with
  | @scalar name hname hfree =>
    have htext : (Ty.scalar name).text.toList =
        (Name.mk name.toList hname).chars ++ bracketChars argChars [] := by
      simp [Ty.text, bracketChars]
    refine readsType_nominal htext (by simp) fun start => ?_
    rw [String.ofList_toList]
    exact instantiate_of_free hcontext hfree start
  | @ref lifetime mutable referent hlifetime hreferent ih =>
    have hlt : referent.text.toList.length < depth := by
      refine lt_of_lt_of_le ?_ hdepth
      simp [toList_text_ref]
      omega
    obtain ⟨inside, rfl⟩ := Nat.exists_eq_add_one.2 (Nat.zero_lt_of_lt hlt)
    exact readsType_ref hcontext hlifetime hreferent (ih hwell (Nat.le_of_lt_succ hlt))
  | @adt decl lifetimes args hdecl hlifetimes hargs ih =>
    obtain ⟨hlifetimeCount, hargCount, hwellArgs⟩ := hwell
    have hname : isIdent decl.name.toList = true := hcontext.isIdent_name decl hdecl
    have htext : (Ty.adt decl lifetimes args).text.toList =
        (Name.mk decl.name.toList hname).chars ++ bracketChars argChars (argsOf lifetimes args) :=
      toList_text_adt decl lifetimes args
    refine readsType_nominal htext (fun item hitem => ?_) fun start => ?_
    · have hlt : (argChars item).length < depth := by
        refine lt_of_lt_of_le (length_lt_bracketChars hitem) (le_trans ?_ hdepth)
        rw [htext, List.length_append]
        omega
      rcases List.mem_append.1 hitem with hmem | hmem
      · obtain ⟨lifetime, hlifetime, rfl⟩ := List.mem_map.1 hmem
        exact readsAs_lifetime_arg (hlifetimes lifetime hlifetime)
      · obtain ⟨arg, harg, rfl⟩ := List.mem_map.1 hmem
        obtain ⟨inside, rfl⟩ := Nat.exists_eq_add_one.2 (Nat.zero_lt_of_lt hlt)
        exact readsAs_type_arg hcontext (hargs arg harg)
          (ih arg harg (Ty.WellFormed.arg hwellArgs harg) (Nat.le_of_lt_succ hlt))
    · rw [getLeft?_argsOf, getRight?_argsOf, String.ofList_toList]
      exact instantiate_of_declared hcontext hdecl start hlifetimeCount hargCount

/-- The depth that a type is read with is greater than its length, so it never runs out. -/
theorem outcome_type :
    type.outcome cursor = (typeWithin (cursor.rest.length + 1)).outcome cursor := by
  simp only [outcome, type]

/-- The text of a type is read as the type. -/
theorem readsType_type (hcontext : context.Knows table) {ty : Ty} (h : ty.Over table)
    (hwell : ty.WellFormed) : ReadsType context type ty where
  start := noBlank_text hcontext h
  read := by
    intro cursor next hpasses hends
    have hdepth : ty.text.toList.length ≤ cursor.rest.length := by
      rw [hpasses.rest, List.length_append]
      omega
    rw [outcome_type]
    exact (readsType_typeWithin hcontext h hwell hdepth).read hpasses hends

end Grammar

end RegionInference
