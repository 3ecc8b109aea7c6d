import Mathlib
import RegionInference.Grammar.Token
import RegionInference.Proofs.PlaceSpelling

/-!
# What parsers read

What a parser reads does not depend on the failures on the way. `Grammar.Parser.outcome` leaves them
out, and each way of building parsers has an equation for it, so that a rule of the grammar can be
gone through step by step.

`Grammar.gap_of_blanks` and `Grammar.blanks_of_gap` say what the blanks between two tokens are: a
list of blanks and comments, unless a comment is the last of the text.
-/

namespace RegionInference

open Text

/-- From one cursor to the other, just these characters are passed. -/
structure Text.Cursor.Passes (cursor : Cursor) (cs : List Char) (next : Cursor) : Prop where
  rest : cursor.rest = cs ++ next.rest
  pos : next.pos = cursor.pos + cs.length

namespace Text.Cursor

variable {a b c : Cursor} {cs ds : List Char}

/-- A cursor passes nothing to stay where it is. -/
theorem Passes.refl (cursor : Cursor) : cursor.Passes [] cursor :=
  ⟨rfl, rfl⟩

/-- What is passed in two steps is passed in one. -/
theorem Passes.trans (h : a.Passes cs b) (h' : b.Passes ds c) : a.Passes (cs ++ ds) c := by
  constructor
  · rw [h.rest, h'.rest, List.append_assoc]
  · rw [h'.pos, h.pos, List.length_append, Nat.add_assoc]

/-- What was passed is found again from the positions. -/
theorem Passes.take (h : a.Passes cs b) : a.rest.take (b.pos - a.pos) = cs := by
  rw [h.rest, h.pos, Nat.add_sub_cancel_left, List.take_left]

/-- Skipping as many characters as were passed leads to the same place. -/
theorem Passes.skip (h : a.Passes cs b) : a.skip cs.length = b := by
  obtain ⟨pos, rest⟩ := b
  have hpos : pos = a.pos + cs.length := h.pos
  rw [Cursor.skip, h.rest, List.drop_left, hpos]

/-- A stretch can be passed in two parts. -/
theorem Passes.split (h : a.Passes (cs ++ ds) c) : ∃ b, a.Passes cs b ∧ b.Passes ds c := by
  refine ⟨⟨a.pos + cs.length, ds ++ c.rest⟩, ⟨?_, rfl⟩, ⟨rfl, ?_⟩⟩
  · rw [h.rest, List.append_assoc]
  · rw [h.pos, List.length_append, Nat.add_assoc]

/-- Skipping characters passes them. -/
theorem passes_skip (cursor : Cursor) (n : Nat) (h : n ≤ cursor.rest.length) :
    cursor.Passes (cursor.rest.take n) (cursor.skip n) := by
  constructor
  · exact (List.take_append_drop n cursor.rest).symm
  · simp [skip, h]

end Text.Cursor

namespace Grammar

namespace Parser

variable {α β : Type} {p q : Parser α} {cursor next : Cursor} {a : α} {pos : Nat}
  {rest : List Char}

/-- What is read and what is then ahead, without the failures on the way. -/
def outcome (p : Parser α) (cursor : Cursor) : Option (α × Cursor) :=
  (p cursor).1

/-- A parser that only returns reads nothing. -/
@[simp] theorem outcome_pure : outcome (Pure.pure a) cursor = some (a, cursor) := rfl

/-- Two parsers in a row: the second one goes on where the first one ends. -/
@[simp] theorem outcome_bind (p : Parser α) (f : α → Parser β) :
    (p >>= f).outcome cursor =
      (p.outcome cursor).bind fun found => (f found.1).outcome found.2 := by
  simp only [outcome, Bind.bind, Parser.bind]
  rcases p cursor with ⟨_ | ⟨a, next⟩, trace⟩ <;> rfl

/-- Asking for the position reads nothing. -/
@[simp] theorem outcome_position : position.outcome cursor = some (cursor.pos, cursor) := rfl

/-- The name of a rule matters for errors only. -/
@[simp] theorem outcome_rule (name : String) (p : Parser α) :
    (rule name p).outcome cursor = p.outcome cursor := by
  simp only [outcome, rule]
  rcases p cursor with ⟨_ | ⟨a, next⟩, trace⟩ <;> rfl

/-- One alternative alone. -/
@[simp] theorem outcome_oneOf_single (p : Parser α) :
    (oneOf [p]).outcome cursor = p.outcome cursor :=
  rfl

/-- The next alternatives are tried where the first one fails. -/
@[simp] theorem outcome_oneOf_cons (p q : Parser α) (ps : List (Parser α)) :
    (oneOf (p :: q :: ps)).outcome cursor =
      (p.outcome cursor).or ((oneOf (q :: ps)).outcome cursor) := by
  have honeOf : oneOf (p :: q :: ps) = p.orElse (oneOf (q :: ps)) := rfl
  simp only [outcome, honeOf, orElse]
  rcases p cursor with ⟨_ | ⟨a, next⟩, trace⟩ <;> rfl

/-- What is optional and not there is passed over. -/
theorem outcome_optional_of_none (h : p.outcome cursor = none) :
    p.optional.outcome cursor = some (none, cursor) := by
  simp only [outcome, optional] at h ⊢
  split
  · rfl
  · rcases hp : p cursor with ⟨_ | ⟨a, next⟩, trace⟩
    · rfl
    · simp [hp] at h

/-- What is optional and there is read. -/
theorem outcome_optional_of_some (h : p.outcome cursor = some (a, next))
    (hrest : cursor.rest ≠ []) :
    p.optional.outcome cursor = some (some a, next) := by
  simp only [outcome, optional] at h ⊢
  rw [if_neg (by simpa [Cursor.atEnd] using hrest)]
  rcases hp : p cursor with ⟨_ | ⟨a, next⟩, trace⟩
  · simp [hp] at h
  · simpa [hp] using h

/-- A parser that keeps the text reads what it reads without. -/
@[simp] theorem outcome_withText (p : Parser α) : p.withText.outcome cursor =
    (p.outcome cursor).map fun found =>
      ((String.ofList (cursor.rest.take (found.2.pos - cursor.pos)), found.1), found.2) := by
  simp only [outcome, withText]
  rcases p cursor with ⟨_ | ⟨a, next⟩, trace⟩ <;> rfl

/-- Repetition never fails. -/
theorem outcome_many (p : Parser α) (cursor : Cursor) :
    p.many.outcome cursor = some ((p.readMany cursor).1, (p.readMany cursor).2.1) := rfl

/-- Repetition ends where nothing more can be read. -/
theorem outcome_many_of_none (h : p.outcome cursor = none) :
    p.many.outcome cursor = some ([], cursor) := by
  rw [outcome_many, readMany.eq_1]
  split
  · rfl
  · rcases hp : p cursor with ⟨_ | ⟨a, next⟩, trace⟩
    · rfl
    · simp [outcome, hp] at h

/-- Repetition goes on behind what was read, if anything was. -/
theorem outcome_many_of_some (h : p.outcome cursor = some (a, next))
    (hlt : next.rest.length < cursor.rest.length) :
    p.many.outcome cursor = (p.many.outcome next).map fun found => (a :: found.1, found.2) := by
  have hne : cursor.rest ≠ [] := by
    rintro heq
    simp [heq] at hlt
  rw [outcome_many, outcome_many, readMany.eq_1, if_neg (by simpa [Cursor.atEnd] using hne)]
  rcases hp : p cursor with ⟨_ | ⟨a', next'⟩, trace⟩
  · simp [outcome, hp] at h
  · simp only [outcome, hp, Option.some.injEq, Prod.mk.injEq] at h
    obtain ⟨rfl, rfl⟩ := h
    simp [hlt]

/-- Values read in a row: none, or a first one and then the others. -/
theorem many_cases {items : List α} (h : p.many.outcome cursor = some (items, next))
    (hlt : ∀ a last, p.outcome cursor = some (a, last) → last.rest.length < cursor.rest.length) :
    (items = [] ∧ next = cursor) ∨ ∃ a last others, p.outcome cursor = some (a, last) ∧
      p.many.outcome last = some (others, next) ∧ items = a :: others := by
  cases hp : p.outcome cursor with
  | none =>
    rw [outcome_many_of_none hp] at h
    cases h
    exact .inl ⟨rfl, rfl⟩
  | some found =>
    obtain ⟨a, last⟩ := found
    rw [outcome_many_of_some hp (hlt a last hp)] at h
    obtain ⟨⟨others, last'⟩, hothers, heq⟩ := Option.map_eq_some_iff.1 h
    cases heq
    exact .inr ⟨a, last, others, rfl, hothers, rfl⟩

/-! ### Characters -/

/-- A literal text is read iff it comes next. -/
theorem outcome_literal (text : String) : (literal text).outcome cursor =
    if text.toList.isPrefixOf cursor.rest then some ((), cursor.skip text.length) else none := by
  simp only [outcome, literal]
  split <;> rfl

/-- What is read as a literal text is that text. -/
theorem outcome_literal_eq_some {text : String} :
    (literal text).outcome cursor = some ((), next) ↔ cursor.Passes text.toList next := by
  rw [outcome_literal, ← String.length_toList]
  constructor
  · intro h
    split at h
    · next hfront =>
      obtain ⟨rest, hrest⟩ := List.isPrefixOf_iff_prefix.1 hfront
      cases h
      refine ⟨?_, rfl⟩
      rw [Cursor.skip, ← hrest, List.drop_left]
    · cases h
  · intro h
    rw [if_pos (by simp [h.rest]), h.skip]

/-- A literal text is not there if its first character is not. -/
theorem outcome_literal_of_head {text : String} (d : Char) (htext : text.toList.head? = some d)
    (h : cursor.rest.head? ≠ some d) : (literal text).outcome cursor = none := by
  obtain ⟨ds, hds⟩ := List.head?_eq_some_iff.1 htext
  rw [outcome_literal, hds, if_neg]
  cases hrest : cursor.rest with
  | nil => simp
  | cons c cs =>
    rw [hrest, List.head?_cons, ne_eq, Option.some.injEq] at h
    simp [Ne.symm h]

/-- A token is as long as its scanner says. -/
theorem outcome_token (scan : List Char → Option Nat) : (token scan).outcome cursor =
    (scan cursor.rest).map fun n => (String.ofList (cursor.rest.take n), cursor.skip n) := by
  simp only [outcome, token]
  cases scan cursor.rest <;> rfl

end Parser

open Grammar.Parser Place

variable {cs rest : List Char} {cursor next : Cursor} {pos : Nat} {gap : List Filler}

/-! ### Blanks -/

/-- What is left behind blanks is the end of the text. -/
theorem skipBlanks_suffix (inside : Bool) (cs : List Char) : skipBlanks inside cs <:+ cs := by
  induction cs generalizing inside with
  | nil => exact List.suffix_rfl
  | cons c cs ih =>
    have htail (b : Bool) : skipBlanks b cs <:+ c :: cs := (ih b).trans (List.suffix_cons c cs)
    rw [skipBlanks]
    split
    · exact htail _
    split
    · exact htail _
    split
    · exact htail _
    split
    · exact htail _
    · exact List.suffix_rfl

/-- The length of what is skipped, from where it leads. -/
theorem blankLength_of_passes (h : cursor.Passes cs next)
    (hskip : skipBlanks false cursor.rest = next.rest) : blankLength cursor.rest = cs.length := by
  rw [blankLength, hskip, h.rest, List.length_append, Nat.add_sub_cancel_right]

/-- Blanks are skipped, if there are any. -/
theorem outcome_blanks : blanks.outcome cursor =
    some ((), cursor.skip (blankLength cursor.rest)) := rfl

/-- Where skipping leads, the parser of blanks leads. -/
theorem outcome_blanks_of_passes (h : cursor.Passes cs next)
    (hskip : skipBlanks false cursor.rest = next.rest) :
    blanks.outcome cursor = some ((), next) := by
  rw [outcome, blanks, blankLength_of_passes h hskip, h.skip]

/-- Spacing is blanks, of which there has to be one. -/
theorem outcome_spacing : spacing.outcome cursor =
    if blankLength cursor.rest = 0 then none
    else some ((), cursor.skip (blankLength cursor.rest)) := by
  refine (outcome_rule "ws" _).trans ?_
  simp only [outcome]
  split
  · next hzero => rw [if_pos hzero]
  · next hpos => rw [if_neg hpos]

/-- Where skipping leads, spacing leads, if it gets anywhere. -/
theorem outcome_spacing_of_passes (h : cursor.Passes cs next) (hne : cs ≠ [])
    (hskip : skipBlanks false cursor.rest = next.rest) :
    spacing.outcome cursor = some ((), next) := by
  rw [outcome_spacing, blankLength_of_passes h hskip, h.skip, if_neg (by simpa using hne)]

/-- There is no spacing where nothing is to be skipped. -/
theorem outcome_spacing_of_start (h : skipBlanks false cursor.rest = cursor.rest) :
    spacing.outcome cursor = none := by
  rw [outcome_spacing, if_pos (by rw [blankLength, h, Nat.sub_self])]

/-- Blanks that were read are what was to be skipped. -/
theorem passes_of_blanks (h : blanks.outcome cursor = some ((), next)) :
    ∃ cs, cursor.Passes cs next ∧ next.rest = skipBlanks false cursor.rest := by
  obtain ⟨cs, hcs⟩ := skipBlanks_suffix false cursor.rest
  have hpasses : cursor.Passes cs ⟨cursor.pos + cs.length, skipBlanks false cursor.rest⟩ :=
    ⟨hcs.symm, rfl⟩
  rw [outcome_blanks_of_passes hpasses rfl] at h
  cases h
  exact ⟨cs, hpasses, rfl⟩

/-- What is left behind the length of the blanks is what skipping leaves. -/
theorem rest_skip_blankLength (cursor : Cursor) :
    (cursor.skip (blankLength cursor.rest)).rest = skipBlanks false cursor.rest := by
  obtain ⟨cs, -, hrest⟩ := passes_of_blanks outcome_blanks
  exact hrest

/-- What is left behind spacing is what skipping leaves. -/
theorem rest_of_spacing (h : spacing.outcome cursor = some ((), next)) :
    next.rest = skipBlanks false cursor.rest := by
  rw [outcome_spacing] at h
  split at h
  · cases h
  · cases h
    exact rest_skip_blankLength cursor

/-- A character that no gap begins with. -/
theorem skipBlanks_of_start {c : Char} (hhash : c ≠ '#') (hslash : c ≠ '/')
    (hblank : isBlank c = false) : skipBlanks false (c :: cs) = c :: cs := by
  simp [skipBlanks, hhash, hslash, hblank]

/-- A comment ends at the end of its line. -/
theorem skipBlanks_comment {text : List Char} (h : '\n' ∉ text) :
    skipBlanks true (text ++ '\n' :: cs) = skipBlanks false cs := by
  induction text with
  | nil => simp [skipBlanks]
  | cons c text ih =>
    have hc : (c != '\n') = true := bne_iff_ne.2 fun heq => h (heq ▸ List.mem_cons_self)
    have htext : '\n' ∉ text := fun hmem => h (List.mem_cons_of_mem _ hmem)
    simp [skipBlanks, hc, ih htext]

/-- Blanks and comments are skipped. -/
theorem skipBlanks_gap (gap : List Filler) (cs : List Char) :
    skipBlanks false (gap.flatMap Filler.chars ++ cs) = skipBlanks false cs := by
  induction gap with
  | nil => rfl
  | cons filler gap ih =>
    rw [List.flatMap_cons, List.append_assoc]
    generalize gap.flatMap Filler.chars ++ cs = tail at ih ⊢
    rw [← ih]
    cases filler with
    | blank c valid =>
      have hhash : c ≠ '#' := by
        rintro rfl
        exact absurd valid (by decide)
      have hslash : c ≠ '/' := by
        rintro rfl
        exact absurd valid (by decide)
      simp [Filler.chars, skipBlanks, hhash, hslash, valid]
    | comment slashes text valid =>
      cases slashes with
      | false => simp [Filler.chars, skipBlanks, skipBlanks_comment valid]
      | true => simp [Filler.chars, skipBlanks, skipBlanks_comment valid]

/-- A hash opens a comment. -/
theorem skipBlanks_hash : skipBlanks false ('#' :: cs) = skipBlanks true cs := by
  simp [skipBlanks]

/-- Two slashes open a comment. -/
theorem skipBlanks_slashes (h : cs.head? = some '/') :
    skipBlanks false ('/' :: cs) = skipBlanks true cs := by
  simp [skipBlanks, h]

/-- The text is blanks and comments, and then the rest. -/
def OpensGap (cs rest : List Char) : Prop :=
  ∃ gap : List Filler, cs = gap.flatMap Filler.chars ++ rest

/-- The text is the end of a comment, then blanks and comments, and then the rest. -/
def EndsComment (cs rest : List Char) : Prop :=
  ∃ text tail, '\n' ∉ text ∧ cs = text ++ '\n' :: tail ∧ OpensGap tail rest

/-- A blank in front of a gap belongs to it. -/
theorem OpensGap.blank {c : Char} (h : OpensGap cs rest) (hblank : isBlank c = true) :
    OpensGap (c :: cs) rest := by
  obtain ⟨gap, rfl⟩ := h
  exact ⟨.blank c hblank :: gap, by simp [Filler.chars]⟩

/-- A hash in front of the end of a comment makes it a whole one. -/
theorem EndsComment.hash (h : EndsComment cs rest) : OpensGap ('#' :: cs) rest := by
  obtain ⟨text, _, htext, rfl, gap, rfl⟩ := h
  exact ⟨.comment false text htext :: gap, by simp [Filler.chars]⟩

/-- So do two slashes. -/
theorem EndsComment.slashes (h : EndsComment cs rest) (hhead : cs.head? = some '/') :
    OpensGap ('/' :: cs) rest := by
  obtain ⟨text, _, htext, rfl, gap, rfl⟩ := h
  cases text with
  | nil => simp at hhead
  | cons d text =>
    obtain rfl : d = '/' := by simpa using hhead
    have htail : '\n' ∉ text := fun hmem => htext (List.mem_cons_of_mem _ hmem)
    exact ⟨.comment true text htail :: gap, by simp [Filler.chars]⟩

/-- A character in front of the end of a comment belongs to it, unless it ends the line. -/
theorem EndsComment.cons {c : Char} (h : EndsComment cs rest) (hc : c ≠ '\n') :
    EndsComment (c :: cs) rest := by
  obtain ⟨text, tail, htext, rfl, hgap⟩ := h
  refine ⟨c :: text, tail, ?_, rfl, hgap⟩
  intro hmem
  rcases List.mem_cons.1 hmem with rfl | hmem
  · exact hc rfl
  · exact htext hmem

/-- What is skipped in front of something are blanks and comments, and inside a comment the end of
it as well. -/
theorem opensGap_skipBlanks (cs : List Char) :
    (skipBlanks false cs ≠ [] → OpensGap cs (skipBlanks false cs)) ∧
    (skipBlanks true cs ≠ [] → EndsComment cs (skipBlanks true cs)) := by
  induction cs with
  | nil => simp [skipBlanks]
  | cons c cs ih =>
    constructor
    · intro hne
      by_cases hhash : c = '#'
      · subst hhash
        rw [skipBlanks_hash] at hne ⊢
        exact (ih.2 hne).hash
      by_cases hslash : c = '/' ∧ cs.head? = some '/'
      · obtain ⟨rfl, hhead⟩ := hslash
        rw [skipBlanks_slashes hhead] at hne ⊢
        exact (ih.2 hne).slashes hhead
      have hskip : skipBlanks false (c :: cs) =
          if isBlank c then skipBlanks false cs else c :: cs := by
        rw [skipBlanks, if_neg (by decide), if_neg hhash, if_neg (by simpa using hslash)]
      rw [hskip] at hne ⊢
      split at hne
      · next hblank =>
        rw [if_pos hblank]
        exact (ih.1 hne).blank hblank
      · next hblank =>
        rw [if_neg hblank]
        exact ⟨[], rfl⟩
    · intro hne
      have hskip : skipBlanks true (c :: cs) = skipBlanks (c != '\n') cs := by simp [skipBlanks]
      rw [hskip] at hne ⊢
      by_cases hline : c = '\n'
      · subst hline
        exact ⟨[], cs, by simp, rfl, ih.1 hne⟩
      · rw [bne_iff_ne.2 hline] at hne ⊢
        exact (ih.2 hne).cons hline

/-- Blanks that were read are a gap, unless they reach to the end of the text. -/
theorem gap_of_blanks (h : blanks.outcome cursor = some ((), next)) (hne : next.rest ≠ []) :
    ∃ gap : List Filler, cursor.Passes (gap.flatMap Filler.chars) next := by
  obtain ⟨cs, hpasses, hrest⟩ := passes_of_blanks h
  rw [hrest] at hne
  obtain ⟨gap, hgap⟩ := (opensGap_skipBlanks cursor.rest).1 hne
  rw [← hrest, hpasses.rest] at hgap
  obtain rfl := List.append_cancel_right hgap
  exact ⟨gap, hpasses⟩

/-- A gap is read as blanks. -/
theorem blanks_of_gap (h : cursor.Passes (gap.flatMap Filler.chars) next)
    (hstart : skipBlanks false next.rest = next.rest) : blanks.outcome cursor = some ((), next) :=
  outcome_blanks_of_passes h (by rw [h.rest, skipBlanks_gap, hstart])

/-! ### Names -/

/-- An identifier is read where one stands. -/
theorem outcome_ident : ident.outcome cursor = (ident? cursor.rest).map fun found =>
    (String.ofList found.1, ⟨cursor.pos + found.1.length, found.2⟩) := by
  rw [ident, outcome_rule, outcome_token, identLength]
  cases hident : ident? cursor.rest with
  | none => rfl
  | some found =>
    have happend : cursor.rest = found.1 ++ found.2 := ident?_append hident
    simp [happend, Cursor.skip]

/-- A name is read as an identifier if the text does not go on with it. -/
theorem outcome_ident_of_passes {name : Name} (h : cursor.Passes name.chars next)
    (hends : EndsIdent next.rest) :
    ident.outcome cursor = some (String.ofList name.chars, next) := by
  obtain ⟨pos, rest⟩ := next
  cases h.pos
  simp [outcome_ident, h.rest, ident?_append_of_ends name.valid hends]

/-- What is read as an identifier is a name. -/
theorem name_of_ident {text : String} (h : ident.outcome cursor = some (text, next)) :
    ∃ name : Name, text = String.ofList name.chars ∧ cursor.Passes name.chars next := by
  rw [outcome_ident] at h
  obtain ⟨⟨name, rest⟩, hident, heq⟩ := Option.map_eq_some_iff.1 h
  cases heq
  exact ⟨⟨name, isIdent_of_ident? hident⟩, rfl, ident?_append hident, rfl⟩

end Grammar

end RegionInference
