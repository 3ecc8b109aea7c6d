import Mathlib
import RegionInference.Proofs.PlaceGrammar

/-!
# Operands that take a place

A copy or a move of a place is written with a keyword in front of the place. On the right of an
assignment a call is tried before an operand, and the keyword is a name like any other: in front of
a parenthesis it is read as the function of a call, and the choice is not taken back when what
follows the closing parenthesis makes no sense any more.

The keyword is the keyword of an operand where the place is no argument of a call
(`Grammar.rvalue_of_no_argument`), and the function of a call where it is one
(`Grammar.rvalue_of_argument`).
-/

namespace RegionInference

open Text Grammar Place

namespace Text

variable {c : Char}

/-- What can be in an identifier can be in a word. -/
theorem isWord_of_isIdentPart (h : isIdentPart c = true) : isWord c = true := by
  have hn := toNat_of_isIdentPart h
  rw [isWord, if_pos (by omega)]
  exact h

/-- No identifier begins with a digit. -/
theorem isDigit_of_isIdentStart (h : isIdentStart c = true) : c.isDigit = false := by
  simp only [isIdentStart, Char.isAlpha, Char.isUpper, Char.isLower, ge_iff_le, Char.reduceVal,
    UInt32.le_iff_toNat_le, UInt32.reduceToNat, Char.toNat_val, Bool.or_eq_true, Bool.and_eq_true,
    decide_eq_true_eq, beq_iff_eq] at h
  rcases h with h | rfl
  · simp only [Char.isDigit, ge_iff_le, Char.reduceVal, UInt32.le_iff_toNat_le,
      UInt32.reduceToNat, Char.toNat_val, Bool.and_eq_false_iff, decide_eq_false_iff_not]
    omega
  · decide

/-- Blanks beyond ASCII, as intervals. -/
def wideBlanks : List (Nat × Nat) :=
  [(0x85, 0x85), (0xA0, 0xA0), (0x1680, 0x1680), (0x2000, 0x200A), (0x2028, 0x2029),
    (0x202F, 0x202F), (0x205F, 0x205F), (0x3000, 0x3000)]

/-- The intervals of word characters and of wide blanks are apart. -/
theorem word_avoids_wideBlanks : word.all (fun part => part.toList.all fun interval =>
    wideBlanks.all fun blanks =>
      decide (interval.2 < blanks.1) || decide (blanks.2 < interval.1)) = true := by
  decide +kernel

/-- So no blank is in a word. -/
theorem isWord_of_isBlank (h : isBlank c = true) : isWord c = false := by
  simp only [isBlank, Bool.or_eq_true, Bool.and_eq_true, decide_eq_true_eq, beq_iff_eq] at h
  rw [isWord]
  split
  · next hascii =>
    have hall : ∀ n ∈ [9, 10, 11, 12, 13, 32],
        ((Char.ofNat n).isAlphanum || Char.ofNat n == '_') = false := by
      decide
    have hc := hall c.toNat (by simp; omega)
    rwa [Char.ofNat_toNat] at hc
  · next hascii =>
    obtain ⟨blanks, hblanks, hlow, hhigh⟩ :
        ∃ blanks ∈ wideBlanks, blanks.1 ≤ c.toNat ∧ c.toNat ≤ blanks.2 := by
      simp only [wideBlanks, List.mem_cons, List.not_mem_nil, or_false, exists_eq_or_imp,
        exists_eq_left]
      omega
    rw [List.any_eq_false]
    intro part hpart hany
    obtain ⟨interval, hinterval, hin⟩ := Array.any_eq_true'.1 hany
    have havoids := List.all_eq_true.1 (List.all_eq_true.1 (List.all_eq_true.1
      word_avoids_wideBlanks part hpart) interval (Array.mem_toList_iff.2 hinterval)) blanks hblanks
    simp only [Bool.or_eq_true, Bool.and_eq_true, decide_eq_true_eq] at havoids hin
    omega

end Text

namespace Place

/-! ### Plain spellings -/

/-- The suffix has no parenthesis in its text. -/
def Suffix.isPlain : Suffix → Bool
  | .field _ => true
  | .index text _ => text.all fun c => c != '(' && c != ')'

/-- The spelling has no comments in it, and no parentheses in the texts of its indices. -/
def Spelling.isPlain : Spelling → Bool
  | .star gap inner => gap.all Filler.isPlain && inner.isPlain
  | .group before inner after suffixes =>
    before.all Filler.isPlain && after.all Filler.isPlain && inner.isPlain &&
      suffixes.all Suffix.isPlain
  | .name _ suffixes => suffixes.all Suffix.isPlain

/-- A plain field or index has no parenthesis in it. -/
theorem Suffix.free_of_isPlain {suffix : Suffix} (h : suffix.isPlain = true) :
    ∀ c ∈ suffix.chars, c ≠ '(' ∧ c ≠ ')' := by
  cases suffix with
  | field name =>
    intro c hc
    rcases List.mem_cons.1 hc with rfl | hc
    · decide
    · exact free_of_isIdent name.valid c hc
  | index text valid =>
    intro c hc
    simp only [Suffix.isPlain, List.all_eq_true, Bool.and_eq_true, bne_iff_ne] at h
    simp only [Suffix.chars, List.cons_append, List.mem_cons, List.mem_append, List.not_mem_nil,
      or_false] at hc
    rcases hc with rfl | hc | rfl
    · decide
    · exact h c hc
    · decide

/-- So plain fields and indices are balanced. -/
theorem balanced_suffixes {suffixes : List Suffix} (h : suffixes.all Suffix.isPlain = true) :
    Balanced (suffixes.flatMap Suffix.chars) := by
  refine balanced_of_free fun c hc => ?_
  obtain ⟨suffix, hsuffix, hc⟩ := List.mem_flatMap.1 hc
  exact Suffix.free_of_isPlain (List.all_eq_true.1 h suffix hsuffix) c hc

/-- Plain spellings can be read. -/
theorem Spelling.readable_of_isPlain {s : Spelling} (h : s.isPlain = true) :
    s.Readable ∧ Balanced s.chars := by
  induction s with
  | star gap inner ih =>
    simp only [isPlain, Bool.and_eq_true] at h
    obtain ⟨hreadable, hbalanced⟩ := ih h.2
    refine ⟨⟨h.1, hreadable⟩, (closesAll_other (by decide) (by decide)).2 ?_⟩
    exact (balanced_of_free (free_of_plain h.1)).append.2 hbalanced
  | group before inner after suffixes ih =>
    simp only [isPlain, Bool.and_eq_true] at h
    obtain ⟨⟨⟨hbefore, hafter⟩, hinner⟩, hsuffixes⟩ := h
    obtain ⟨hreadable, hbalanced⟩ := ih hinner
    refine ⟨⟨hbefore, hafter, hbalanced, hreadable⟩, ?_⟩
    have hclose : ClosesAll (0 + 1) (before.flatMap Filler.chars ++
        (inner.chars ++ after.flatMap Filler.chars) ++ ')' :: suffixes.flatMap Suffix.chars) :=
      (closesAll_append ((balanced_gaps hbefore hafter).2 hbalanced)).2
        (closesAll_close.2 (balanced_suffixes hsuffixes))
    exact closesAll_open.2 hclose
  | name base suffixes =>
    have hbase : Balanced base.chars := balanced_of_free (free_of_isIdent base.valid)
    exact ⟨trivial, hbase.append.2 (balanced_suffixes h)⟩

/-! ### Places as arguments -/

/-- The name is one of the words that are literals. -/
def Name.IsLiteral (name : Name) : Prop :=
  name.chars = "const".toList ∨ name.chars = "true".toList ∨ name.chars = "false".toList

instance (name : Name) : Decidable name.IsLiteral :=
  inferInstanceAs (Decidable (_ ∨ _ ∨ _))

namespace Spelling

/-- What a place in parentheses is as the argument of a call: a literal where it is one of the
literal words, and nothing that can be an argument where something is projected from such a word. -/
def argument? : Spelling → Option Operand
  | .name base suffixes =>
    if base.IsLiteral then
      if suffixes.isEmpty then some (.const (String.ofList base.chars)) else none
    else some (.copy (name base suffixes).place)
  | s => some (.copy s.place)

/-- What the place is as the argument of a call that has the parentheses of the place for its
own. -/
def callArgument? : Spelling → Option Operand
  | .group _ inner _ _ => inner.argument?
  | .star _ _ | .name _ _ => none

/-- What is projected from the parentheses or the local in front. -/
def suffixes : Spelling → List Suffix
  | .star _ _ => []
  | .group _ _ _ suffixes => suffixes
  | .name _ suffixes => suffixes

end Spelling

end Place

namespace Grammar

open Grammar.Parser

variable {cs rest tail : List Char} {cursor next : Cursor} {pos : Nat} {base : Name} {α : Type}

/-! ### Keywords and literals in front of a name -/

/-- The text does not go on with the word in front of it. -/
def EndsWord (cs : List Char) : Prop :=
  ∀ c ∈ cs.head?, isWord c = false

/-- Whether a word ends is decided by the first character behind it. -/
theorem endsWord_cons {c : Char} : EndsWord (c :: cs) ↔ isWord c = false := by
  simp [EndsWord]

/-- Where a word ends, an identifier ends. -/
theorem EndsWord.endsIdent (h : EndsWord cs) : EndsIdent cs := by
  intro c hc
  by_contra hpart
  have hword := h c hc
  rw [isWord_of_isIdentPart (by simpa using hpart)] at hword
  cases hword

/-- A gap ends a word, or lets what follows end it. -/
theorem endsWord_gap (gap : List Filler) (h : EndsWord rest) :
    EndsWord (gap.flatMap Filler.chars ++ rest) := by
  cases gap with
  | nil => exact h
  | cons filler gap =>
    cases filler with
    | blank c valid => exact endsWord_cons.2 (isWord_of_isBlank valid)
    | comment slashes text valid =>
      cases slashes with
      | false => exact endsWord_cons.2 (by decide)
      | true => exact endsWord_cons.2 (by decide)

/-- Fields and indices end a word, or let what follows end it. -/
theorem endsWord_suffixes (suffixes : List Suffix) (h : EndsWord rest) :
    EndsWord (suffixes.flatMap Suffix.chars ++ rest) := by
  cases suffixes with
  | nil => exact h
  | cons suffix suffixes =>
    cases suffix with
    | field name => exact endsWord_cons.2 (by decide)
    | index text valid => exact endsWord_cons.2 (by decide)

/-- Letters in front of a name and what ends it are letters of the name. -/
theorem exists_append_of_prefix {word : List Char} (hword : word.all isIdentPart = true)
    (h : word <+: base.chars ++ tail) (hends : EndsIdent tail) :
    ∃ more, base.chars = word ++ more := by
  obtain ⟨after, hafter⟩ := h
  rcases List.append_eq_append_iff.1 hafter with ⟨more, hbase, -⟩ | ⟨more, hword', htail⟩
  · exact ⟨more, hbase⟩
  · cases more with
    | nil => exact ⟨[], by simpa using hword'.symm⟩
    | cons c more =>
      have hpart := List.all_eq_true.1 hword c (by simp [hword'])
      rw [htail] at hends
      rw [endsIdent_cons.1 hends] at hpart
      cases hpart

/-- A keyword in front of a name takes letters of the name only. -/
theorem outcome_keyword_of_name {word : String} {p : Parser α}
    (hrest : cursor.rest = base.chars ++ tail) (hends : EndsIdent tail)
    (hword : word.toList.all isIdentPart = true)
    (hp : ∀ next more, next.rest = more ++ tail → (∀ c ∈ more, isIdentPart c = true) →
      p.outcome next = none) :
    (literal word >>= fun _ => p).outcome cursor = none := by
  rw [outcome_bind]
  cases hliteral : (literal word).outcome cursor with
  | none => rfl
  | some found =>
    obtain ⟨_, next⟩ := found
    have hpasses := outcome_literal_eq_some.1 hliteral
    obtain ⟨more, hmore⟩ := exists_append_of_prefix hword
      ⟨next.rest, by rw [← hpasses.rest, hrest]⟩ hends
    refine hp next more ?_ fun c hc => ?_
    · have heq := hpasses.rest
      rw [hrest, hmore, List.append_assoc] at heq
      exact (List.append_cancel_left heq).symm
    · exact isIdentPart_of_isIdent base.valid c (by simp [hmore, hc])

/-- A word that ends there is in front of a name just if it is the name. -/
theorem wordLength_of_name {word : String} (hword : word.toList.all isIdentPart = true)
    (hends : EndsWord tail) :
    wordLength word (base.chars ++ tail) =
      if base.chars = word.toList then some base.chars.length else none := by
  rw [wordLength, ← String.length_toList]
  by_cases hbase : base.chars = word.toList
  · have hany : tail.head?.any isWord = false := by
      cases htail : tail.head? with
      | none => rfl
      | some c => exact hends c htail
    simp [hbase, hany]
  · rw [if_neg hbase, if_neg]
    intro h
    simp only [Bool.and_eq_true, List.isPrefixOf_iff_prefix] at h
    obtain ⟨more, hmore⟩ := exists_append_of_prefix hword h.1 hends.endsIdent
    cases more with
    | nil => exact hbase (by simpa using hmore)
    | cons c more =>
      have hpart : isIdentPart c = true := isIdentPart_of_isIdent base.valid c (by simp [hmore])
      simp [hmore, isWord_of_isIdentPart hpart] at h

/-- A word is not there if its first character is not. -/
theorem wordLength_of_head {word : String} {c d : Char} (hword : word.toList.head? = some d)
    (h : c ≠ d) : wordLength word (c :: cs) = none := by
  obtain ⟨ds, hds⟩ := List.head?_eq_some_iff.1 hword
  simp [wordLength, hds, h.symm]

/-- Where no number starts, a literal is one of three words. -/
theorem constLength_cons {c : Char} (hminus : c ≠ '-') (hdigit : c.isDigit = false) :
    constLength (c :: cs) = (wordLength "const" (c :: cs)).or
      ((wordLength "true" (c :: cs)).or (wordLength "false" (c :: cs))) := by
  have hdigits : digitsLength (c :: cs) = none := by simp [digitsLength, hdigit]
  rw [constLength, hdigits]
  · cases wordLength "const" (c :: cs) <;> cases wordLength "true" (c :: cs) <;> rfl
  · intro rest heq
    exact hminus (List.cons.inj heq).1

/-- A literal begins with a minus, a digit or a letter. -/
theorem constLength_of_head {c : Char} (hminus : c ≠ '-') (hdigit : c.isDigit = false)
    (hpart : isIdentPart c = false) : constLength (c :: cs) = none := by
  have hne (d : Char) (hd : isIdentPart d = true) : c ≠ d := by
    rintro rfl
    rw [hpart] at hd
    cases hd
  rw [constLength_cons hminus hdigit, wordLength_of_head rfl (hne 'c' (by decide)),
    wordLength_of_head rfl (hne 't' (by decide)), wordLength_of_head rfl (hne 'f' (by decide))]
  rfl

/-- Two alternatives with one outcome are one with either condition. -/
theorem ite_or_ite {p q : Prop} [Decidable p] [Decidable q] (n : Nat) :
    (if p then some n else none).or (if q then some n else none) =
      if p ∨ q then some n else none := by
  by_cases hp : p <;> by_cases hq : q <;> simp [hp, hq]

/-- A name is a literal iff it is one of the literal words. -/
theorem constLength_of_name (hends : EndsWord tail) :
    constLength (base.chars ++ tail) =
      if base.IsLiteral then some base.chars.length else none := by
  obtain ⟨c, cs, hbase, hstart⟩ := base.exists_cons
  have hminus : c ≠ '-' := by
    rintro rfl
    exact absurd hstart (by decide)
  have hcons : constLength (base.chars ++ tail) = (wordLength "const" (base.chars ++ tail)).or
      ((wordLength "true" (base.chars ++ tail)).or (wordLength "false" (base.chars ++ tail))) := by
    rw [hbase]
    exact constLength_cons hminus (isDigit_of_isIdentStart hstart)
  rw [hcons, wordLength_of_name (by decide) hends, wordLength_of_name (by decide) hends,
    wordLength_of_name (by decide) hends, ite_or_ite, ite_or_ite]
  rfl

/-- No blank stands in front of a field or an index. -/
theorem skipBlanks_suffixes (suffix : Suffix) (suffixes : List Suffix) (rest : List Char) :
    skipBlanks false ((suffix :: suffixes).flatMap Suffix.chars ++ rest) =
      (suffix :: suffixes).flatMap Suffix.chars ++ rest := by
  cases suffix with
  | field name => exact skipBlanks_of_start (by decide) (by decide) (by decide)
  | index text valid => exact skipBlanks_of_start (by decide) (by decide) (by decide)

/-- Fields and indices begin with a dot or a bracket. -/
theorem head?_suffixes_ne {d : Char} (hdot : d ≠ '.') (hopen : d ≠ '[') (suffix : Suffix)
    (suffixes : List Suffix) (rest : List Char) :
    ((suffix :: suffixes).flatMap Suffix.chars ++ rest).head? ≠ some d := by
  cases suffix with
  | field name => simp [Suffix.chars, hdot.symm]
  | index text valid => simp [Suffix.chars, hopen.symm]

/-! ### Operands in parentheses -/

/-- The keyword of an operand that takes a place. -/
def takeWord : Bool → String
  | true => "move"
  | false => "copy"

/-- The tree of an operand that takes a place. -/
def takeTree : Bool → PlaceTree → OperandTree
  | true => .move
  | false => .copy

/-- A keyword and then a place. -/
def taking (moved : Bool) : Parser OperandTree := do
  literal (takeWord moved)
  spacing
  return takeTree moved (← place)

/-- The alternatives for an operand, in the order in which they are tried. -/
theorem operand_eq : operand = rule "operand" (oneOf [
    rule "move_op" (taking true),
    rule "copy_op" (taking false),
    do
      return .const (← const),
    do
      return .copy (← place)]) := rfl

/-- Where no identifier can begin, no keyword is read. -/
theorem outcome_taking_of_head (moved : Bool) {c : Char} (hc : isIdentPart c = false)
    (hrest : cursor.rest = c :: cs) : (taking moved).outcome cursor = none := by
  have hne (d : Char) (hd : isIdentPart d = true) : cursor.rest.head? ≠ some d := by
    rw [hrest]
    rintro ⟨⟩
    rw [hc] at hd
    cases hd
  have hword : (literal (takeWord moved)).outcome cursor = none := by
    cases moved with
    | false => exact outcome_literal_of_head 'c' rfl (hne 'c' (by decide))
    | true => exact outcome_literal_of_head 'm' rfl (hne 'm' (by decide))
  simp [taking, hword]

/-- Up to the end of parentheses, neither letters of a name nor what is projected from it are
followed by one more place. -/
theorem outcome_spaced_place {more : List Char} {suffixes : List Suffix} {after : List Filler}
    (f : PlaceTree → Parser α) (hmore : ∀ c ∈ more, isIdentPart c = true)
    (hrest : cursor.rest = more ++ (suffixes.flatMap Suffix.chars ++
      (after.flatMap Filler.chars ++ ')' :: cs))) :
    (spacing >>= fun _ => place >>= f).outcome cursor = none := by
  cases more with
  | cons c more =>
    have hstart : skipBlanks false cursor.rest = cursor.rest := by
      rw [hrest]
      exact skipBlanks_of_isIdentPart (hmore c List.mem_cons_self)
    simp [outcome_spacing_of_start hstart]
  | nil =>
    cases suffixes with
    | cons suffix suffixes =>
      have hstart : skipBlanks false cursor.rest = cursor.rest := by
        rw [hrest]
        exact skipBlanks_suffixes suffix suffixes _
      simp [outcome_spacing_of_start hstart]
    | nil =>
      rw [outcome_bind]
      cases hspacing : spacing.outcome cursor with
      | none => rfl
      | some found =>
        have hskip : found.2.rest = ')' :: cs := by
          rw [rest_of_spacing hspacing, hrest, List.nil_append, List.flatMap_nil, List.nil_append,
            skipBlanks_gap]
          exact skipBlanks_of_start (by decide) (by decide) (by decide)
        simp [outcome_place_of_head hskip (by decide) (by decide) (by decide)]

/-- Nothing is taken inside parentheses: after the name of a local comes no place. -/
theorem outcome_taking_of_inner (moved : Bool) {inner : Spelling} {after : List Filler}
    (h : cursor.Passes inner.chars next)
    (hrest : next.rest = after.flatMap Filler.chars ++ ')' :: cs) :
    (taking moved).outcome cursor = none := by
  cases inner with
  | star gap inner => exact outcome_taking_of_head moved (by decide) h.rest
  | group before inner after suffixes => exact outcome_taking_of_head moved (by decide) h.rest
  | name base suffixes =>
    have hcut : cursor.rest = base.chars ++ (suffixes.flatMap Suffix.chars ++
        (after.flatMap Filler.chars ++ ')' :: cs)) := by
      rw [h.rest, hrest, Spelling.chars, List.append_assoc]
    have hends : EndsWord (suffixes.flatMap Suffix.chars ++
        (after.flatMap Filler.chars ++ ')' :: cs)) :=
      endsWord_suffixes suffixes (endsWord_gap after (endsWord_cons.2 (by decide)))
    refine outcome_keyword_of_name hcut hends.endsIdent (by cases moved <;> decide) ?_
    intro next more hnext hmore
    exact outcome_spaced_place _ hmore hnext

/-- A name is read as a literal iff it is one of the literal words. -/
theorem outcome_const_of_name (h : cursor.Passes base.chars next) (hends : EndsWord next.rest) :
    const.outcome cursor =
      if base.IsLiteral then some (String.ofList base.chars, next) else none := by
  rw [const, outcome_rule, outcome_token, h.rest, constLength_of_name hends]
  split
  · simp [h.skip]
  · rfl

/-- Where no literal can begin, none is read. -/
theorem outcome_const_of_head {c : Char} (hrest : cursor.rest = c :: cs) (hminus : c ≠ '-')
    (hdigit : c.isDigit = false) (hpart : isIdentPart c = false) : const.outcome cursor = none := by
  rw [const, outcome_rule, outcome_token, hrest, constLength_of_head hminus hdigit hpart]
  rfl

/-- A place in front of a closing parenthesis is read as a literal where it begins with one, and
else as a copy of the place. -/
theorem outcome_operand_of_inner {inner : Spelling} {after : List Filler}
    (h : cursor.Passes inner.chars next)
    (hrest : next.rest = after.flatMap Filler.chars ++ ')' :: cs) :
    operand.outcome cursor = (const.outcome cursor).elim
      (some (.copy (inner.tree cursor.pos), next)) fun found => some (.const found.1, found.2) := by
  have hstops : Stops next.rest := by
    rw [hrest]
    exact stops_gap after (stops_cons.2 (by decide))
  rw [operand_eq, outcome_rule]
  simp only [outcome_oneOf_cons, outcome_oneOf_single, outcome_rule,
    outcome_taking_of_inner _ h hrest, Option.none_or, outcome_bind,
    outcome_place_of_passes h hstops]
  cases const.outcome cursor <;> rfl

/-- Of a name in parentheses, a literal word is read as a literal. -/
theorem outcome_const_of_inner {suffixes : List Suffix} {after : List Filler}
    (h : cursor.Passes (Spelling.name base suffixes).chars next)
    (hrest : next.rest = after.flatMap Filler.chars ++ ')' :: cs) :
    ∃ middle, middle.Passes (suffixes.flatMap Suffix.chars) next ∧
      const.outcome cursor =
        if base.IsLiteral then some (String.ofList base.chars, middle) else none := by
  obtain ⟨middle, hbase, hsuffixes⟩ := Cursor.Passes.split h
  refine ⟨middle, hsuffixes, outcome_const_of_name hbase ?_⟩
  rw [hsuffixes.rest, hrest]
  exact endsWord_suffixes suffixes (endsWord_gap after (endsWord_cons.2 (by decide)))

/-- An argument is read up to the end of the parentheses. -/
theorem operand_of_argument {inner : Spelling} {after : List Filler} {a : Operand}
    (ha : inner.argument? = some a) (hreadable : inner.Readable)
    (h : cursor.Passes inner.chars next)
    (hrest : next.rest = after.flatMap Filler.chars ++ ')' :: cs) :
    ∃ tree, operand.outcome cursor = some (tree, next) ∧
      ∀ context : Context, context.operand tree = .ok a := by
  have hcopy : const.outcome cursor = none → a = .copy inner.place →
      ∃ tree, operand.outcome cursor = some (tree, next) ∧
        ∀ context : Context, context.operand tree = .ok a := by
    rintro hconst rfl
    refine ⟨.copy (inner.tree cursor.pos), ?_, fun context => ?_⟩
    · rw [outcome_operand_of_inner h hrest, hconst]
      rfl
    · rw [Context.operand, (place_tree_eq_ok context).2 ⟨hreadable, rfl⟩]
      rfl
  cases inner with
  | star gap inner =>
    refine hcopy ?_ (Option.some.inj ha).symm
    exact outcome_const_of_head h.rest (by decide) (by decide) (by decide)
  | group before inner after suffixes =>
    refine hcopy ?_ (Option.some.inj ha).symm
    exact outcome_const_of_head h.rest (by decide) (by decide) (by decide)
  | name base suffixes =>
    obtain ⟨middle, hsuffixes, hconst⟩ := outcome_const_of_inner h hrest
    by_cases hliteral : base.IsLiteral
    · rw [if_pos hliteral] at hconst
      rw [Spelling.argument?, if_pos hliteral] at ha
      cases suffixes with
      | nil =>
        obtain rfl := hsuffixes.skip
        refine ⟨.const (String.ofList base.chars), ?_, fun context => ?_⟩
        · rw [outcome_operand_of_inner h hrest, hconst]
          rfl
        · exact congrArg Except.ok (Option.some.inj ha)
      | cons suffix suffixes => cases ha
    · rw [if_neg hliteral] at hconst
      rw [Spelling.argument?, if_neg hliteral] at ha
      exact hcopy hconst (Option.some.inj ha).symm

/-- Where there is no argument, what is read ends in front of a field or an index. -/
theorem operand_of_no_argument {inner : Spelling} {after : List Filler}
    (ha : inner.argument? = none) (h : cursor.Passes inner.chars next)
    (hrest : next.rest = after.flatMap Filler.chars ++ ')' :: cs) :
    ∃ tree last suffix, ∃ suffixes : List Suffix, operand.outcome cursor = some (tree, last) ∧
      last.rest = (suffix :: suffixes).flatMap Suffix.chars ++ next.rest := by
  cases inner with
  | star gap inner => cases ha
  | group before inner after suffixes => cases ha
  | name base suffixes =>
    obtain ⟨middle, hsuffixes, hconst⟩ := outcome_const_of_inner h hrest
    rw [Spelling.argument?] at ha
    split at ha
    · next hliteral =>
      rw [if_pos hliteral] at hconst
      cases suffixes with
      | nil => cases ha
      | cons suffix suffixes =>
        refine ⟨.const (String.ofList base.chars), middle, suffix, suffixes, ?_, hsuffixes.rest⟩
        rw [outcome_operand_of_inner h hrest, hconst]
        rfl
    · cases ha

/-- An operand that no comma follows is a list of one. -/
theorem outcome_operandList {tree : OperandTree} (h : operand.outcome cursor = some (tree, next))
    (hcomma : (skipBlanks false next.rest).head? ≠ some ',') :
    operandList.outcome cursor = some ([tree], next) := by
  have hnone : (literal ",").outcome (next.skip (blankLength next.rest)) = none :=
    outcome_literal_of_head ',' rfl (by rwa [rest_skip_blankLength])
  have hmany : (many do
      blanks
      literal ","
      blanks
      operand).outcome next = some ([], next) :=
    outcome_many_of_none (by simp [outcome_blanks, hnone])
  simp [operandList, separated, h, hmany]

/-! ### Calls -/

section Parentheses

variable {before after : List Filler} {inner : Spelling}

/-- A place in parentheses that can be an argument is read as that argument. -/
theorem parenthesized_of_argument {a : Operand} (ha : inner.argument? = some a)
    (hreadable : inner.Readable)
    (h : cursor.Passes ("(".toList ++ (before.flatMap Filler.chars ++
      (inner.chars ++ (after.flatMap Filler.chars ++ ")".toList)))) next) :
    ∃ tree, (parenthesized operandList).outcome cursor = some ([tree], next) ∧
      ∀ context : Context, context.operand tree = .ok a := by
  obtain ⟨first, second, third, fourth, hopen, ⟨-, hblanks⟩, hinner, ⟨hthird, hblanks'⟩, hclose⟩ :=
    parts_of_parentheses h
  obtain ⟨tree, hoperand, hmeaning⟩ := operand_of_argument ha hreadable hinner hthird
  have hcomma : (skipBlanks false third.rest).head? ≠ some ',' := by
    rw [hthird, skipBlanks_gap, skipBlanks_of_start (by decide) (by decide) (by decide)]
    simp
  have hne : second.rest ≠ [] := by
    obtain ⟨c, cs, hchars, -⟩ := inner.exists_cons
    simp [hinner.rest, hchars]
  have hlist := outcome_optional_of_some (outcome_operandList hoperand hcomma) hne
  refine ⟨tree, ?_, hmeaning⟩
  simp [parenthesized, outcome_literal_eq_some.2 hopen, hblanks, hlist, hblanks',
    outcome_literal_eq_some.2 hclose]

/-- A place in parentheses that cannot be an argument is not read as a list of operands. -/
theorem parenthesized_of_no_argument (ha : inner.argument? = none)
    (h : cursor.Passes ("(".toList ++ (before.flatMap Filler.chars ++
      (inner.chars ++ (after.flatMap Filler.chars ++ ")".toList)))) next) :
    (parenthesized operandList).outcome cursor = none := by
  obtain ⟨first, second, third, fourth, hopen, ⟨-, hblanks⟩, hinner, ⟨hthird, -⟩, -⟩ :=
    parts_of_parentheses h
  obtain ⟨tree, last, suffix, suffixes, hoperand, hlast⟩ := operand_of_no_argument ha hinner hthird
  have hstart : skipBlanks false last.rest = last.rest := by
    rw [hlast]
    exact skipBlanks_suffixes suffix suffixes _
  have hhead (d : Char) (hdot : d ≠ '.') (hopen : d ≠ '[') : last.rest.head? ≠ some d := by
    rw [hlast]
    exact head?_suffixes_ne hdot hopen suffix suffixes _
  have hne : second.rest ≠ [] := by
    obtain ⟨c, cs, hchars, -⟩ := inner.exists_cons
    simp [hinner.rest, hchars]
  have hcomma : (skipBlanks false last.rest).head? ≠ some ',' := by
    rw [hstart]
    exact hhead ',' (by decide) (by decide)
  have hlist := outcome_optional_of_some (outcome_operandList hoperand hcomma) hne
  have hblanks' : blanks.outcome last = some ((), last) :=
    outcome_blanks_of_passes (Cursor.Passes.refl last) hstart
  have hclosed : (literal ")").outcome last = none :=
    outcome_literal_of_head ')' rfl (hhead ')' (by decide) (by decide))
  simp [parenthesized, outcome_literal_eq_some.2 hopen, hblanks, hlist, hblanks', hclosed]

end Parentheses

/-- A new reference. -/
def borrowing : Parser RvalueTree := do
  literal "&"
  let lifetime ← lifetime
  blanks
  let mutable ← optional mutable
  return .borrow lifetime mutable.isSome (← place)

/-- A call. -/
def calling : Parser RvalueTree := do
  let func ← ident
  blanks
  let args ← parenthesized operandList
  blanks
  return .call func args (← optional signature)

/-- The alternatives for a right side, in the order in which they are tried. -/
theorem rvalue_eq : rvalue = rule "rvalue" (oneOf [
    rule "borrow" borrowing,
    rule "call" calling,
    do
      return .use (← operand)]) := rfl

/-- The keyword of an operand that takes a place is a name. -/
def takeName (moved : Bool) : Name :=
  ⟨(takeWord moved).toList, by cases moved <;> decide⟩

section Calling

variable {moved : Bool} {s : Spelling} {start : Cursor}

/-- The keyword of an operand that takes a place is read as an identifier, too. -/
theorem outcome_ident_takeName (h : cursor.Passes (takeName moved).chars next)
    (hrest : next.rest = ' ' :: cs) : ident.outcome cursor = some (takeWord moved, next) := by
  have hends : EndsIdent next.rest := by
    rw [hrest]
    exact endsIdent_cons.2 (by decide)
  rw [outcome_ident_of_passes h hends, takeName, String.ofList_toList]

/-- A space in front of a text that does not begin with a blank is all that is skipped. -/
theorem skipBlanks_space (hstart : skipBlanks false cs = cs) :
    skipBlanks false (' ' :: cs) = cs := by
  simp [skipBlanks, hstart, show isBlank ' ' = true by decide]

/-- The same for the parser of blanks. -/
theorem outcome_blanks_of_space (h : cursor.Passes " ".toList next)
    (hstart : skipBlanks false next.rest = next.rest) :
    blanks.outcome cursor = some ((), next) := by
  refine outcome_blanks_of_passes h ?_
  rw [h.rest]
  exact skipBlanks_space hstart

/-- A place that is no argument of a call is no part of one. -/
theorem calling_of_no_argument (ha : s.callArgument? = none)
    (hname : cursor.Passes ((takeName moved).chars ++ " ".toList) start)
    (hplace : start.Passes s.chars next) : calling.outcome cursor = none := by
  obtain ⟨middle, hname, hblank⟩ := hname.split
  have hblanks : blanks.outcome middle = some ((), start) :=
    outcome_blanks_of_space hblank (by rw [hplace.rest, skipBlanks_spelling])
  have hargs : (parenthesized operandList).outcome start = none := by
    cases s with
    | star gap inner =>
      have hopen : (literal "(").outcome start = none :=
        outcome_literal_of_head '(' rfl (by simp [hplace.rest, Spelling.chars])
      simp [parenthesized, hopen]
    | group before inner after suffixes =>
      obtain ⟨closed, hgroup, -⟩ := passes_group hplace
      exact parenthesized_of_no_argument ha hgroup
    | name base suffixes =>
      have hopen : (literal "(").outcome start = none := by
        refine outcome_literal_of_head '(' rfl ?_
        rw [hplace.rest, Spelling.chars, List.append_assoc]
        exact base.head?_ne (by decide) _
      simp [parenthesized, hopen]
  simp [calling, outcome_ident_takeName hname hblank.rest, hblanks, hargs]

/-- Parentheses that could be those of a call are those of a call. -/
theorem calling_of_argument {a : Operand} (ha : s.callArgument? = some a) (hreadable : s.Readable)
    (hname : cursor.Passes ((takeName moved).chars ++ " ".toList) start)
    (hplace : start.Passes s.chars next) (hnext : next.rest = ';' :: cs) :
    ∃ tree closed, calling.outcome cursor = some (.call (takeWord moved) [tree] none, closed) ∧
      closed.Passes (s.suffixes.flatMap Suffix.chars) next ∧
      ∀ context : Context, context.operand tree = .ok a := by
  obtain ⟨middle, hname, hblank⟩ := hname.split
  have hblanks : blanks.outcome middle = some ((), start) :=
    outcome_blanks_of_space hblank (by rw [hplace.rest, skipBlanks_spelling])
  cases s with
  | star gap inner => cases ha
  | name base suffixes => cases ha
  | group before inner after suffixes =>
    obtain ⟨closed, hgroup, hsuffixes⟩ := passes_group hplace
    obtain ⟨tree, hargs, hmeaning⟩ := parenthesized_of_argument ha hreadable.2.2.2 hgroup
    refine ⟨tree, closed, ?_, hsuffixes, hmeaning⟩
    have hrest : closed.rest = suffixes.flatMap Suffix.chars ++ ';' :: cs := by
      rw [hsuffixes.rest, hnext]
    have hstart : skipBlanks false closed.rest = closed.rest ∧ closed.rest.head? ≠ some 'a' := by
      rw [hrest]
      cases suffixes with
      | nil => exact ⟨skipBlanks_of_start (by decide) (by decide) (by decide), by simp⟩
      | cons suffix suffixes =>
        exact ⟨skipBlanks_suffixes suffix suffixes _,
          head?_suffixes_ne (by decide) (by decide) suffix suffixes _⟩
    have hblanks' : blanks.outcome closed = some ((), closed) :=
      outcome_blanks_of_passes (Cursor.Passes.refl closed) hstart.1
    have has : (literal "as").outcome closed = none := outcome_literal_of_head 'a' rfl hstart.2
    have hsignature : signature.outcome closed = none := by
      simp [signature, has]
    simp [calling, outcome_ident_takeName hname hblank.rest, hblanks, hargs, hblanks',
      outcome_optional_of_none hsignature]

/-- Behind its keyword a place is read whole. -/
theorem operand_of_taking (hname : cursor.Passes ((takeName moved).chars ++ " ".toList) start)
    (hplace : start.Passes s.chars next) (hstops : Stops next.rest) :
    operand.outcome cursor = some (takeTree moved (s.tree start.pos), next) := by
  obtain ⟨middle, hname, hblank⟩ := hname.split
  have hword : (literal (takeWord moved)).outcome cursor = some ((), middle) :=
    outcome_literal_eq_some.2 hname
  have hspacing : spacing.outcome middle = some ((), start) := by
    have hstart : skipBlanks false start.rest = start.rest := by
      rw [hplace.rest, skipBlanks_spelling]
    refine outcome_spacing_of_passes hblank (by decide) ?_
    rw [hblank.rest]
    exact skipBlanks_space hstart
  have htaking :
      (taking moved).outcome cursor = some (takeTree moved (s.tree start.pos), next) := by
    simp [taking, hword, hspacing, outcome_place_of_passes hplace hstops]
  rw [operand_eq, outcome_rule]
  cases moved with
  | true =>
    rw [outcome_oneOf_cons, outcome_rule, htaking]
    rfl
  | false =>
    have hmove : (literal "move").outcome cursor = none :=
      outcome_literal_of_head 'm' rfl (by rw [hname.rest]; simp [takeName, takeWord])
    have hother : (taking true).outcome cursor = none := by
      simp [taking, takeWord, hmove]
    rw [outcome_oneOf_cons, outcome_rule, hother, outcome_oneOf_cons, outcome_rule, htaking]
    rfl

/-- No borrow begins with such a keyword. -/
theorem outcome_borrowing_takeName (h : cursor.Passes (takeName moved).chars next) :
    borrowing.outcome cursor = none := by
  have hnone : (literal "&").outcome cursor = none := by
    refine outcome_literal_of_head '&' rfl ?_
    rw [h.rest]
    exact (takeName moved).head?_ne (by decide) _
  simp [borrowing, hnone]

/-- A keyword and a place that is no argument list are read as the operand that takes the place. -/
theorem rvalue_of_no_argument (ha : s.callArgument? = none)
    (hname : cursor.Passes ((takeName moved).chars ++ " ".toList) start)
    (hplace : start.Passes s.chars next) (hstops : Stops next.rest) :
    rvalue.outcome cursor = some (.use (takeTree moved (s.tree start.pos)), next) := by
  obtain ⟨middle, hword, -⟩ := hname.split
  rw [rvalue_eq, outcome_rule]
  simp [outcome_borrowing_takeName hword, calling_of_no_argument ha hname hplace,
    operand_of_taking hname hplace hstops]

/-- A keyword and a place that begins with an argument list are read as a call, up to the closing
parenthesis. -/
theorem rvalue_of_argument {a : Operand} (ha : s.callArgument? = some a) (hreadable : s.Readable)
    (hname : cursor.Passes ((takeName moved).chars ++ " ".toList) start)
    (hplace : start.Passes s.chars next) (hnext : next.rest = ';' :: cs) :
    ∃ tree closed, rvalue.outcome cursor = some (.call (takeWord moved) [tree] none, closed) ∧
      closed.Passes (s.suffixes.flatMap Suffix.chars) next ∧
      ∀ context : Context, context.operand tree = .ok a := by
  obtain ⟨middle, hword, -⟩ := hname.split
  obtain ⟨tree, closed, hcalling, hsuffixes, hmeaning⟩ :=
    calling_of_argument ha hreadable hname hplace hnext
  refine ⟨tree, closed, ?_, hsuffixes, hmeaning⟩
  rw [rvalue_eq, outcome_rule]
  simp [outcome_borrowing_takeName hword, hcalling]

end Calling

end Grammar

end RegionInference
