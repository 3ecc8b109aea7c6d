import Mathlib
import RegionInference.Proofs.TypeGrammar

/-!
# The grammar of structs

A struct is written with its parameters in angle brackets, lifetimes and types in any order, and
each with any keywords in front. `Grammar.StructSpelling` is a declaration as it is written, and
`Grammar.StructSpelling.decl` what it declares: a parameter may dangle if it says so anywhere, and
of its variances the last one counts.

A parameter may be called like a keyword, and a keyword is tried before a name. It is told from the
name by the blank behind it, as the mark of a mutable reference is. Declarations in a row are read
one after the other (`Grammar.reads_struct_item`) and come to the context of the declared types
(`Grammar.bodies_of_structs`), which is a context that knows just these (`Grammar.knows_ofTable`).
-/

namespace RegionInference

open Text Grammar Place

/-- The name of the type and the names of its parameters are identifiers. -/
def AdtDecl.Writable (decl : AdtDecl) : Prop :=
  isIdent decl.name.toList = true ∧
    ∀ param ∈ decl.lifetimeParams ++ decl.typeParams, isIdent param.name.toList = true

namespace Grammar

open Grammar.Parser

/-! ### Ways of writing -/

/-- A keyword in front of a parameter. -/
inductive ParamWord where
  /-- The destructor leaves data of the parameter alone. -/
  | mayDangle
  /-- The variance of the parameter. -/
  | variance (v : Variance)
deriving DecidableEq

namespace ParamWord

/-- The text of a keyword. -/
def text : ParamWord → String
  | .mayDangle => "may_dangle"
  | .variance v => v.keyword

/-- The variance that a keyword names. -/
def variance? : ParamWord → Option Variance
  | .mayDangle => none
  | .variance v => some v

/-- The characters of a keyword and the blank behind it. -/
def chars (word : ParamWord) : List Char :=
  word.text.toList ++ " ".toList

end ParamWord

/-- A parameter as it is written. -/
structure ParamSpelling where
  /-- The keywords in front. -/
  words : List ParamWord
  /-- Whether it is a lifetime. -/
  isLifetime : Bool
  /-- The name. -/
  name : Name

namespace ParamSpelling

/-- The name as it is written, with its mark if it is a lifetime. -/
def nameChars (s : ParamSpelling) : List Char :=
  if s.isLifetime then ("'" ++ String.ofList s.name.chars).toList else s.name.chars

/-- The characters of a parameter. -/
def chars (s : ParamSpelling) : List Char :=
  s.words.flatMap ParamWord.chars ++ s.nameChars

/-- The parameter that is declared. -/
def param (s : ParamSpelling) : AdtParam where
  name := String.ofList s.name.chars
  variance := (s.words.filterMap ParamWord.variance?).getLast?.getD .covariant
  mayDangle := decide (.mayDangle ∈ s.words)

/-- The tree of a parameter. -/
def tree (s : ParamSpelling) : ParamTree :=
  ⟨s.words.map ParamWord.text, s.isLifetime, String.ofList s.name.chars⟩

end ParamSpelling

/-- A struct as it is written. -/
structure StructSpelling where
  /-- The name. -/
  name : Name
  /-- The parameters. -/
  params : List ParamSpelling
  /-- Whether dropping a value runs code. -/
  hasDestructor : Bool

namespace StructSpelling

/-- The text of a declaration. -/
def text (s : StructSpelling) : String :=
  "struct " ++ String.ofList s.name.chars ++
    String.ofList (bracketChars ParamSpelling.chars s.params) ++
    (if s.hasDestructor then " drop" else "") ++ "; "

/-- The type that is declared. -/
def decl (s : StructSpelling) : AdtDecl where
  name := String.ofList s.name.chars
  lifetimeParams := (s.params.filter (·.isLifetime)).map ParamSpelling.param
  typeParams := (s.params.filter (!·.isLifetime)).map ParamSpelling.param
  hasDestructor := s.hasDestructor

end StructSpelling

/-! ### What is declared -/

/-- A variance is read back from its keyword. -/
theorem ofText_keyword (v : Variance) : Variance.ofText v.keyword = .ok v := by
  cases v <;> rfl

/-- What a keyword adds to what is known of a parameter. -/
def ParamWord.apply : ParamWord → AdtParam → AdtParam
  | .mayDangle, param => { param with mayDangle := true }
  | .variance v, param => { param with variance := v }

/-- One more word in front of a parameter says what it says of the parameter without. -/
theorem param_snoc (words : List String) (isLifetime : Bool) (name : String) (word : ParamWord) :
    Context.param ⟨words ++ [word.text], isLifetime, name⟩ =
      word.apply (Context.param ⟨words, isLifetime, name⟩) := by
  cases word with
  | mayDangle => simp [Context.param, ParamWord.text, ParamWord.apply]
  | variance v =>
    have hword : v.keyword ≠ "may_dangle" := by cases v <;> decide
    simp [Context.param, ParamWord.text, ParamWord.apply, hword, ofText_keyword]

/-- The words in front of a parameter make the parameter that they spell. -/
theorem param_words (words : List ParamWord) (isLifetime : Bool) (name : Name) :
    Context.param ⟨words.map ParamWord.text, isLifetime, String.ofList name.chars⟩ =
      ParamSpelling.param ⟨words, isLifetime, name⟩ := by
  induction words using List.reverseRecOn with
  | nil => rfl
  | append_singleton words word ih =>
    rw [List.map_append, List.map_singleton, param_snoc, ih]
    cases word <;> simp [ParamWord.apply, ParamSpelling.param, ParamWord.variance?]

/-- The tree of a spelled parameter means the parameter. -/
theorem param_tree (s : ParamSpelling) : Context.param s.tree = s.param :=
  param_words s.words s.isLifetime s.name

variable {cursor next : Cursor} {cs : List Char}

/-! ### Keywords in front of a parameter -/

/-- What is read by one of several parsers is read by one of them. -/
theorem exists_of_oneOf {α : Type} {a : α} : ∀ {ps : List (Parser α)},
    (oneOf ps).outcome cursor = some (a, next) → ∃ p ∈ ps, p.outcome cursor = some (a, next)
  | [], h => by cases h
  | [p], h => ⟨p, List.mem_singleton_self p, h⟩
  | p :: q :: ps, h => by
    rw [outcome_oneOf_cons, Option.or_eq_some_iff] at h
    rcases h with h | ⟨-, h⟩
    · exact ⟨p, List.mem_cons_self, h⟩
    · obtain ⟨r, hr, hread⟩ := exists_of_oneOf h
      exact ⟨r, List.mem_cons_of_mem p hr, hread⟩

/-- The keywords that may stand in front of a parameter. -/
def paramWords : List String :=
  ["may_dangle", "invariant", "contravariant", "covariant", "bivariant"]

/-- Reads a word. -/
def reading (word : String) : Parser String := do
  literal word
  return word

/-- A word is read where it stands. -/
theorem outcome_reading {word : String} (h : cursor.Passes word.toList next) :
    (reading word).outcome cursor = some (word, next) := by
  simp [reading, outcome_literal_eq_some.2 h]

/-- The keywords of parameters, in the order in which they are tried. -/
theorem paramKeyword_eq : paramKeyword =
    rule "param_keyword" (oneOf (paramWords.map reading)) := rfl

/-- Neither word starts with the other. -/
def Apart (a b : String) : Prop :=
  ¬ a.toList <+: b.toList ∧ ¬ b.toList <+: a.toList

instance (a b : String) : Decidable (Apart a b) :=
  inferInstanceAs (Decidable (_ ∧ _))

/-- A keyword and the blank behind it. -/
def paramAttr : Parser String :=
  rule "param_attr" do
    let word ← paramKeyword
    spacing
    return word

/-- A parameter is its words, and then a lifetime or a name. -/
theorem genericParam_eq : genericParam = rule "generic_param" (do
    let keywords ← many paramAttr
    oneOf [
      do
        return ⟨keywords, true, ← lifetime⟩,
      do
        return ⟨keywords, false, ← ident⟩]) := rfl

/-- One of some words, none of which starts another, is read where it is written. -/
theorem outcome_oneOf_words {word : String} (h : cursor.Passes word.toList next) :
    ∀ {words : List String}, words.Pairwise Apart → word ∈ words →
      (oneOf (words.map reading)).outcome cursor = some (word, next)
  | [other], _, hmem => by
    obtain rfl := List.mem_singleton.1 hmem
    exact outcome_reading h
  | other :: second :: words, hapart, hmem => by
    obtain ⟨hfirst, hothers⟩ := List.pairwise_cons.1 hapart
    rw [List.map_cons, List.map_cons, outcome_oneOf_cons, ← List.map_cons]
    rcases List.mem_cons.1 hmem with rfl | hmem
    · rw [outcome_reading h, Option.some_or]
    · have hnone : (literal other).outcome cursor = none := by
        rw [Option.eq_none_iff_forall_ne_some]
        rintro ⟨_, last⟩ hother
        have hprefix := (outcome_literal_eq_some.1 hother).rest
        rcases List.prefix_or_prefix_of_prefix ⟨_, hprefix.symm⟩ ⟨_, h.rest.symm⟩ with hlt | hlt
        · exact (hfirst word hmem).1 hlt
        · exact (hfirst word hmem).2 hlt
      rw [reading, outcome_bind, hnone, outcome_oneOf_words h hothers hmem]
      rfl

/-- A keyword of a parameter is read as itself. -/
theorem outcome_paramKeyword (word : ParamWord) (h : cursor.Passes word.text.toList next) :
    paramKeyword.outcome cursor = some (word.text, next) := by
  have hmem : word.text ∈ paramWords := by
    cases word with
    | mayDangle => decide
    | variance v => cases v <;> decide
  rw [paramKeyword_eq, outcome_rule]
  exact outcome_oneOf_words h (by decide) hmem

/-- What is read as a keyword of a parameter is a word that stands there. -/
theorem word_of_paramKeyword {word : String} (h : paramKeyword.outcome cursor = some (word, next)) :
    word.toList.all isIdentPart = true ∧ word.toList ≠ [] ∧ cursor.Passes word.toList next := by
  rw [paramKeyword_eq, outcome_rule] at h
  obtain ⟨p, hp, hread⟩ := exists_of_oneOf h
  obtain ⟨text, htext, rfl⟩ := List.mem_map.1 hp
  have hall : ∀ text ∈ paramWords, text.toList.all isIdentPart = true ∧ text.toList ≠ [] := by
    decide
  rw [reading, outcome_bind] at hread
  obtain ⟨⟨_, middle⟩, hliteral, hread⟩ := Option.bind_eq_some_iff.1 hread
  cases hread
  exact ⟨(hall word htext).1, (hall word htext).2, outcome_literal_eq_some.1 hliteral⟩

/-- A name that no blank follows is no word of a parameter. -/
theorem outcome_paramAttr_of_name {name : Name} (hrest : cursor.rest = name.chars ++ cs)
    (hends : EndsIdent cs) (hstart : NoBlank cs) : paramAttr.outcome cursor = none := by
  cases hkeyword : paramKeyword.outcome cursor with
  | none => simp [paramAttr, hkeyword]
  | some found =>
    obtain ⟨word, middle⟩ := found
    obtain ⟨hword, -, hpasses⟩ := word_of_paramKeyword hkeyword
    have hspaced := outcome_spaced_of_name hword hrest hends hstart
    rw [outcome_bind, outcome_literal_eq_some.2 hpasses, Option.bind_some] at hspaced
    simp [paramAttr, hkeyword, hspaced]

/-- The mark of a lifetime is no word of a parameter. -/
theorem outcome_paramAttr_of_mark (h : cursor.rest.head? = some '\'') :
    paramAttr.outcome cursor = none := by
  cases hkeyword : paramKeyword.outcome cursor with
  | none => simp [paramAttr, hkeyword]
  | some found =>
    obtain ⟨word, middle⟩ := found
    obtain ⟨hword, hne, hpasses⟩ := word_of_paramKeyword hkeyword
    obtain ⟨c, tail, htail⟩ := List.exists_cons_of_ne_nil hne
    have hc : isIdentPart c = true := List.all_eq_true.1 hword c (by simp [htail])
    rw [hpasses.rest, htail] at h
    obtain rfl : c = '\'' := by simpa using h
    exact absurd hc (by decide)

/-- No blank stands in front of a word of a parameter. -/
theorem noBlank_word (word : ParamWord) (rest : List Char) : NoBlank (word.chars ++ rest) := by
  cases word with
  | mayDangle => exact skipBlanks_of_start (by decide) (by decide) (by decide)
  | variance v =>
    cases v <;> exact skipBlanks_of_start (by decide) (by decide) (by decide)

/-- A word of a parameter is read as itself. -/
theorem reads_paramAttr (word : ParamWord) :
    Reads NoBlank paramAttr word.chars (· = word.text) := by
  intro cursor next hpasses hstart
  obtain ⟨middle, hword, -, -, hspacing⟩ := spaced_of_passes hpasses hstart
  exact ⟨word.text, by simp [paramAttr, outcome_paramKeyword word hword, hspacing], rfl⟩

/-! ### Parameters -/

/-- Values that are each made from their item are the items, mapped. -/
theorem eq_map_of_forall₂ {α β : Type} {f : β → α} {items : List β} {values : List α}
    (h : List.Forall₂ (fun item value => value = f item) items values) :
    values = items.map f := by
  induction h with
  | nil => rfl
  | cons hvalue _ ih => rw [List.map_cons, hvalue, ih]

/-- No blank stands in front of the name of a parameter. -/
theorem noBlank_nameChars (s : ParamSpelling) (rest : List Char) :
    NoBlank (s.nameChars ++ rest) := by
  rw [ParamSpelling.nameChars]
  split
  · rw [String.toList_append, List.append_assoc]
    exact skipBlanks_of_start (by decide) (by decide) (by decide)
  · exact noBlank_name s.name rest

/-- Behind the keywords of a parameter its name is next, even where it is a keyword itself. -/
theorem outcome_paramAttr_of_nameChars {s : ParamSpelling} (h : cursor.Passes s.nameChars next)
    (hends : EndsType next.rest) : paramAttr.outcome cursor = none := by
  have hrest := h.rest
  rw [ParamSpelling.nameChars] at hrest
  split at hrest
  · apply outcome_paramAttr_of_mark
    rw [hrest]
    simp
  · exact outcome_paramAttr_of_name hrest hends.endsIdent hends.noBlank

/-- A spelled parameter is read as its tree. -/
theorem readsAs_genericParam (s : ParamSpelling) :
    ReadsAs genericParam s.chars (· = s.tree) where
  start := by
    intro rest
    rw [ParamSpelling.chars, List.append_assoc]
    cases s.words with
    | nil => exact noBlank_nameChars s rest
    | cons word words =>
      rw [List.flatMap_cons, List.append_assoc]
      exact noBlank_word word _
  read := by
    intro cursor next hpasses hends
    obtain ⟨middle, hwords, hname⟩ := hpasses.split
    have hstart : NoBlank middle.rest := by
      rw [hname.rest]
      exact noBlank_nameChars s next.rest
    obtain ⟨values, hvalues, hmeant⟩ := outcome_many_of_reads
      (fun word _ => reads_paramAttr word)
      (fun word _ => ⟨by simp [ParamWord.chars], noBlank_word word⟩) hwords hstart
      (outcome_paramAttr_of_nameChars hname hends)
    obtain rfl := eq_map_of_forall₂ hmeant
    refine ⟨s.tree, ?_, rfl⟩
    rw [ParamSpelling.nameChars] at hname
    rw [ParamSpelling.tree]
    split at hname
    · next hlifetime =>
      have hread : lifetime.outcome middle = some (String.ofList s.name.chars, next) :=
        outcome_lifetime_of_passes (by simpa using s.name.valid) hname hends.endsIdent
      simp [genericParam_eq, hvalues, hread, hlifetime]
    · next hlifetime =>
      have hmark : lifetime.outcome middle = none := by
        apply outcome_lifetime_of_head
        rw [hname.rest]
        exact s.name.head?_ne (by decide) _
      simp [genericParam_eq, hvalues, hmark, outcome_ident_of_passes hname hends.endsIdent,
        hlifetime]

/-! ### Structs -/

/-- Parameters stand in brackets. -/
theorem genericParams_eq : genericParams = rule "generic_params" (bracketed genericParam) := rfl

/-- The blank in front of the word that stands for a destructor. -/
def gapChars : Bool → List Char
  | true => " ".toList
  | false => []

/-- The word that stands for a destructor. -/
def dropChars : Bool → List Char
  | true => "drop".toList
  | false => []

/-- The characters of a declaration, part by part. -/
theorem toList_text_struct (s : StructSpelling) : s.text.toList =
    "struct".toList ++ " ".toList ++ (s.name.chars ++
      (bracketChars ParamSpelling.chars s.params ++ gapChars s.hasDestructor ++
        (dropChars s.hasDestructor ++ (";".toList ++ " ".toList)))) := by
  cases h : s.hasDestructor <;> simp [StructSpelling.text, h, gapChars, dropChars]

/-- The gap in front of the note on a destructor is read as blanks. -/
theorem outcome_blanks_of_gap {hasDestructor : Bool}
    (h : cursor.Passes (gapChars hasDestructor) next) (hstart : NoBlank next.rest) :
    blanks.outcome cursor = some ((), next) := by
  cases hasDestructor with
  | true => exact outcome_blanks_of_space h hstart
  | false =>
    obtain rfl : cursor = next := h.skip
    exact outcome_blanks_of_noBlank hstart

/-- The parameters are read with the blanks around them. Without parameters the blank is in front
of them, otherwise behind them. -/
theorem outcome_genericParams {params : List ParamSpelling} {hasDestructor : Bool}
    (h : cursor.Passes (bracketChars ParamSpelling.chars params ++ gapChars hasDestructor) next)
    (hstart : NoBlank next.rest) (hnext : next.rest.head? ≠ some '<') :
    ∃ before after found, blanks.outcome cursor = some ((), before) ∧
      (optional genericParams).outcome before = some (found, after) ∧
      blanks.outcome after = some ((), next) ∧
      found.getD [] = params.map ParamSpelling.tree := by
  have hreads : ∀ s ∈ params, ReadsAs genericParam s.chars (· = s.tree) :=
    fun s _ => readsAs_genericParam s
  obtain ⟨middle, hlist, hgap⟩ := h.split
  have hblanks : blanks.outcome middle = some ((), next) := outcome_blanks_of_gap hgap hstart
  rw [genericParams_eq]
  cases params with
  | nil =>
    obtain rfl : cursor = middle := hlist.skip
    obtain ⟨found, hfound, hmeant⟩ := outcome_optional_bracketed "generic_params" hreads
      (Cursor.Passes.refl next) hnext
    exact ⟨next, next, found, hblanks, hfound, outcome_blanks_of_noBlank hstart,
      eq_map_of_forall₂ hmeant⟩
  | cons first others =>
    have hhead : middle.rest.head? ≠ some '<' := by
      rw [hgap.rest]
      cases hasDestructor with
      | true => simp [gapChars]
      | false => exact hnext
    obtain ⟨found, hfound, hmeant⟩ := outcome_optional_bracketed "generic_params" hreads hlist hhead
    have hopen : NoBlank cursor.rest :=
      noBlank_of_passes hlist (by decide) (by decide) (by decide)
    exact ⟨cursor, middle, found, outcome_blanks_of_noBlank hopen, hfound, hblanks,
      eq_map_of_forall₂ hmeant⟩

/-- The word for a destructor. -/
def dropFlag : Parser Unit :=
  rule "drop_flag" do
    literal "drop"
    blanks

/-- The note on a destructor is read iff there is one. -/
theorem outcome_dropFlag {hasDestructor : Bool}
    (h : cursor.Passes (dropChars hasDestructor) next) (hnext : next.rest.head? = some ';') :
    ∃ found, (optional dropFlag).outcome cursor = some (found, next) ∧
      found.isSome = hasDestructor := by
  have hends : EndsType next.rest := endsType_of_head hnext (by decide)
  cases hasDestructor with
  | true =>
    have hread : dropFlag.outcome cursor = some ((), next) := by
      simp [dropFlag, outcome_literal_eq_some.2 h, outcome_blanks_of_noBlank hends.noBlank]
    exact ⟨some (), outcome_optional_of_some hread (by simp [h.rest, dropChars]), rfl⟩
  | false =>
    obtain rfl : cursor = next := h.skip
    have hword : (literal "drop").outcome cursor = none :=
      outcome_literal_of_head 'd' rfl (by rw [hnext]; decide)
    exact ⟨none, outcome_optional_of_none (by simp [dropFlag, hword]), rfl⟩

/-- The parts of a declaration, in the order in which they are read. -/
theorem structDecl_eq : structDecl = rule "struct_decl" (do
    let start ← position
    literal "struct"
    spacing
    let name ← ident
    blanks
    let params ← optional genericParams
    blanks
    let drop ← optional dropFlag
    literal ";"
    return .struct start name (params.getD []) drop.isSome) := rfl

/-- What a tree says that is read from the text of a struct. -/
def StructSpelling.IsTree (s : StructSpelling) (tree : ItemTree) : Prop :=
  ∃ start, tree = .struct start (String.ofList s.name.chars) (s.params.map ParamSpelling.tree)
    s.hasDestructor

/-- What stands behind the name of a declaration ends it. -/
theorem endsIdent_behind_name (s : StructSpelling) {rest : List Char}
    (h : rest.head? = some ';') :
    EndsIdent (bracketChars ParamSpelling.chars s.params ++ gapChars s.hasDestructor ++
      (dropChars s.hasDestructor ++ rest)) := by
  cases s.params with
  | nil =>
    cases s.hasDestructor with
    | true => exact endsIdent_cons.2 (by decide)
    | false => exact (endsType_of_head h (by decide)).endsIdent
  | cons first others => exact endsIdent_cons.2 (by decide)

/-- A struct is read from its text. -/
theorem reads_struct_item (s : StructSpelling) : Reads NoBlank item s.text.toList s.IsTree := by
  intro cursor next hpasses hstart
  rw [toList_text_struct] at hpasses
  obtain ⟨second, hspaced, hpasses⟩ := hpasses.split
  obtain ⟨third, hname, hpasses⟩ := hpasses.split
  obtain ⟨fourth, hparams, hpasses⟩ := hpasses.split
  obtain ⟨fifth, hdrop, hlast⟩ := hpasses.split
  obtain ⟨sixth, hended, -, hblanks, -⟩ := spaced_of_passes hlast hstart
  have hhead : fifth.rest.head? = some ';' := by
    rw [hended.rest]
    rfl
  have hident : EndsIdent third.rest := by
    rw [hparams.rest, hdrop.rest]
    exact endsIdent_behind_name s hhead
  have hnameStart : NoBlank second.rest := by
    rw [hname.rest]
    exact noBlank_name s.name third.rest
  obtain ⟨first, hword, -, -, hspacing⟩ := spaced_of_passes hspaced hnameStart
  have hdropRest : NoBlank fourth.rest ∧ fourth.rest.head? ≠ some '<' := by
    rw [hdrop.rest]
    cases s.hasDestructor with
    | true => exact ⟨skipBlanks_of_start (by decide) (by decide) (by decide), by simp [dropChars]⟩
    | false =>
      have hends : EndsType fifth.rest := endsType_of_head hhead (by decide)
      exact ⟨hends.noBlank, hends.head?_ne⟩
  obtain ⟨before, after, params, hbefore, hread, hafter, hmeant⟩ :=
    outcome_genericParams hparams hdropRest.1 hdropRest.2
  obtain ⟨found, hfound, hsome⟩ := outcome_dropFlag hdrop hhead
  have hstruct : structDecl.outcome cursor = some (.struct cursor.pos (String.ofList s.name.chars)
      (s.params.map ParamSpelling.tree) s.hasDestructor, sixth) := by
    simp [structDecl_eq, outcome_literal_eq_some.2 hword, hspacing,
      outcome_ident_of_passes hname hident, hbefore, hread, hafter, hfound,
      outcome_literal_eq_some.2 hended, hmeant, hsome]
  exact ⟨_, by simp [item, hstruct, hblanks], cursor.pos, rfl⟩

/-- No blank stands in front of a declaration. -/
theorem noBlank_struct (s : StructSpelling) (rest : List Char) :
    NoBlank (s.text.toList ++ rest) := by
  rw [toList_text_struct]
  exact skipBlanks_of_start (by decide) (by decide) (by decide)

/-! ### The context of a table -/

/-- The context with one more declared type. -/
def Context.declare (context : Context) (decl : AdtDecl) : Context :=
  { context with structs := context.structs.set decl.name decl }

/-- The context behind the declarations of a table. -/
def Context.ofTable (text : List Char) (table : List AdtDecl) : Context :=
  table.foldl Context.declare { text }

/-- A declaration is found under its name, and leaves those under other names. -/
theorem get?_declare (context : Context) (decl : AdtDecl) (name : String) :
    (context.declare decl).structs.get? name =
      if name = decl.name then some decl else context.structs.get? name :=
  NameMap.get?_set context.structs decl.name name decl

section Tables

variable {table : List AdtDecl} {context : Context}

/-- No type of the table has the name of another, or one that is taken in the context. -/
def Context.Accepts (context : Context) (table : List AdtDecl) : Prop :=
  (table.map AdtDecl.name).Nodup ∧ ∀ decl ∈ table, context.structs.get? decl.name = none

/-- Declarations that can be made one after the other can be made behind the first one. -/
theorem Context.Accepts.tail {decl : AdtDecl} (h : context.Accepts (decl :: table)) :
    (context.declare decl).Accepts table := by
  obtain ⟨hnodup, hfresh⟩ := h
  rw [List.map_cons, List.nodup_cons] at hnodup
  refine ⟨hnodup.2, fun other hother => ?_⟩
  have hne : other.name ≠ decl.name := by
    intro heq
    exact hnodup.1 (heq ▸ List.mem_map_of_mem hother)
  rw [get?_declare, if_neg hne]
  exact hfresh other (List.mem_cons_of_mem decl hother)

/-- After some declarations, a name is found as before, or as one of them. -/
theorem get?_foldl_declare (h : context.Accepts table) (name : String) (decl : AdtDecl) :
    (table.foldl Context.declare context).structs.get? name = some decl ↔
      context.structs.get? name = some decl ∨ decl ∈ table ∧ decl.name = name := by
  induction table generalizing context with
  | nil => simp
  | cons first table ih =>
    rw [List.foldl_cons, ih h.tail, get?_declare, List.mem_cons]
    by_cases hname : name = first.name
    · have hfresh : context.structs.get? name = none := by
        rw [hname]
        exact h.2 first List.mem_cons_self
      grind
    · grind

/-- A declared name is found as declared. -/
theorem struct?_of_some {name : String} {decl : AdtDecl}
    (h : context.structs.get? name = some decl) : context.struct? name = some decl := by
  rw [Context.struct?, h]

/-- Of the names that are not declared, only that of the built-in wrapper is found. -/
theorem struct?_of_none {name : String} (h : context.structs.get? name = none) :
    context.struct? name = if name = AdtDecl.cell.name then some .cell else none := by
  rw [Context.struct?, h]

/-- Behind a table just its types can be named, and the cell if the table has no type of that
name. -/
theorem knows_ofTable (text : List Char) (hnodup : (table.map AdtDecl.name).Nodup)
    (hnames : ∀ decl ∈ table, isIdent decl.name.toList = true) :
    (Context.ofTable text table).Knows table where
  struct?_eq_some := by
    intro name decl
    have haccepts : ({ text } : Context).Accepts table := ⟨hnodup, fun _ _ => rfl⟩
    have hget (other : AdtDecl) : (Context.ofTable text table).structs.get? name = some other ↔
        other ∈ table ∧ other.name = name := by
      rw [Context.ofTable, get?_foldl_declare haccepts]
      simp [NameMap.get?, NameMap.findPair?]
    rw [AdtDecl.Declared]
    cases hfound : (Context.ofTable text table).structs.get? name with
    | some found =>
      obtain ⟨hmem, hname⟩ := (hget found).1 hfound
      rw [struct?_of_some hfound]
      constructor
      · rintro ⟨⟩
        exact ⟨.inl hmem, hname⟩
      · rintro ⟨hdecl | ⟨-, hfree⟩, hdeclName⟩
        · rw [← hfound]
          exact (hget decl).2 ⟨hdecl, hdeclName⟩
        · exact absurd (hname.trans hdeclName.symm) (hfree found hmem)
    | none =>
      have hfree (other : AdtDecl) (hother : other ∈ table) : other.name ≠ name := by
        intro heq
        rw [(hget other).2 ⟨hother, heq⟩] at hfound
        cases hfound
      rw [struct?_of_none hfound, Option.ite_none_right_eq_some]
      constructor
      · rintro ⟨rfl, ⟨⟩⟩
        exact ⟨.inr ⟨rfl, hfree⟩, rfl⟩
      · rintro ⟨hdecl | ⟨rfl, -⟩, rfl⟩
        · exact absurd rfl (hfree decl hdecl)
        · exact ⟨rfl, rfl⟩
  isIdent_name := by
    rintro decl (hdecl | ⟨rfl, -⟩)
    · exact hnames decl hdecl
    · decide

/-- A new declaration is accepted, and then known. -/
theorem struct_eq (s : StructSpelling) (start : Nat)
    (hfresh : context.structs.get? s.decl.name = none) :
    context.struct start (String.ofList s.name.chars) (s.params.map ParamSpelling.tree)
      s.hasDestructor = .ok (context.declare s.decl) := by
  have hparams (p : ParamSpelling → Bool) :
      (s.params.filter p).map (Context.param ∘ ParamSpelling.tree) =
        (s.params.filter p).map ParamSpelling.param := by
    exact List.map_congr_left fun param _ => param_tree param
  have hcontains : context.structs.contains (String.ofList s.name.chars) = false := by
    have hget : context.structs.get? (String.ofList s.name.chars) = none := hfresh
    rw [NameMap.contains, hget]
    rfl
  rw [Context.struct, if_neg (by simp [hcontains]), List.filter_map, List.filter_map,
    List.map_map, List.map_map, hparams, hparams]
  rfl

/-- Declarations in a row come to the context of what they declare. -/
theorem bodies_of_structs {written : List StructSpelling} {trees : List ItemTree}
    (h : List.Forall₂ StructSpelling.IsTree written trees)
    (haccepts : context.Accepts (written.map StructSpelling.decl)) (rest : List ItemTree) :
    context.bodies (trees ++ rest) =
      ((written.map StructSpelling.decl).foldl Context.declare context).bodies rest := by
  induction h generalizing context with
  | nil => rfl
  | @cons s tree written trees htree _ ih =>
    obtain ⟨start, rfl⟩ := htree
    have hfresh : context.structs.get? s.decl.name = none :=
      haccepts.2 s.decl List.mem_cons_self
    rw [List.cons_append, Context.bodies, struct_eq s start hfresh]
    exact ih haccepts.tail

end Tables

/-! ### Every table can be written -/

/-- The parameters of a type can be written, all as lifetimes or all as types. -/
theorem exists_params (isLifetime : Bool) {params : List AdtParam}
    (h : ∀ param ∈ params, isIdent param.name.toList = true) :
    ∃ written : List ParamSpelling, (∀ s ∈ written, s.isLifetime = isLifetime) ∧
      written.map ParamSpelling.param = params := by
  induction params with
  | nil => exact ⟨[], by simp, rfl⟩
  | cons param params ih =>
    obtain ⟨written, hkind, hwritten⟩ := ih fun other hother => h other (.tail _ hother)
    have hname := h param List.mem_cons_self
    let words : List ParamWord :=
      .variance param.variance :: if param.mayDangle then [.mayDangle] else []
    refine ⟨⟨words, isLifetime, ⟨param.name.toList, hname⟩⟩ :: written, ?_, ?_⟩
    · simpa using hkind
    · rw [List.map_cons, hwritten]
      congr 1
      obtain ⟨name, variance, mayDangle⟩ := param
      cases mayDangle <;>
        simp [words, ParamSpelling.param, ParamWord.variance?, List.filterMap_cons]

/-- A type can be declared if its name and the names of its parameters are identifiers. -/
theorem exists_spelling {decl : AdtDecl} (h : decl.Writable) :
    ∃ s : StructSpelling, s.decl = decl := by
  obtain ⟨hname, hparams⟩ := h
  obtain ⟨lifetimes, hkind, hwritten⟩ :=
    exists_params true fun param hparam => hparams param (List.mem_append_left _ hparam)
  obtain ⟨types, hkind', hwritten'⟩ :=
    exists_params false fun param hparam => hparams param (List.mem_append_right _ hparam)
  refine ⟨⟨⟨decl.name.toList, hname⟩, lifetimes ++ types, decl.hasDestructor⟩, ?_⟩
  have hleft : (lifetimes ++ types).filter (·.isLifetime) = lifetimes := by
    rw [List.filter_append, List.filter_eq_self.2 hkind, List.filter_eq_nil_iff.2, List.append_nil]
    intro s hs
    simp [hkind' s hs]
  have hright : (lifetimes ++ types).filter (!·.isLifetime) = types := by
    rw [List.filter_append, List.filter_eq_nil_iff.2, List.nil_append, List.filter_eq_self.2]
    · intro s hs
      simp [hkind' s hs]
    · intro s hs
      simp [hkind s hs]
  rw [StructSpelling.decl, hleft, hright, hwritten, hwritten', String.ofList_toList]

/-- A table can be declared if each of its types can be. -/
theorem exists_spellings {table : List AdtDecl} (h : ∀ decl ∈ table, decl.Writable) :
    ∃ written : List StructSpelling, written.map StructSpelling.decl = table := by
  have hrange : table ∈ Set.range (List.map StructSpelling.decl) := by
    rw [Set.range_list_map]
    exact fun decl hdecl => exists_spelling (h decl hdecl)
  exact hrange

end Grammar

end RegionInference
