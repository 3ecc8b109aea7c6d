import Mathlib
import RegionInference.Proofs.PlaceReading

/-!
# The spellings of a place

A place can be written with blanks and comments behind stars and inside parentheses, with
parentheses that are not needed, and with any text for an index. A `Place.Spelling` is one such way
of writing; `Place.Spelling.place` is the place that it stands for.

The reader of places counts parentheses without looking where they stand and knows no comments, so
it does not accept every spelling. `Place.Spelling.read_eq_ok` says which ones it accepts, those
that are `Place.Spelling.Readable`, and that it never reads a wrong place.

The hard direction is that a wrong partner for a parenthesis is never accepted. The text in front of
a closing parenthesis that stands in an index or in a comment is no place, and neither is a place
with a closing parenthesis or a comment behind it. `Place.Guarded` is these two facts about a text,
and every part of a spelling keeps them.
-/

namespace RegionInference.Place

open Text

/-! ### Ways of writing -/

/-- An identifier. -/
structure Name where
  /-- Its characters. -/
  chars : List Char
  /-- They are an identifier. -/
  valid : isIdent chars = true

/-- A name has a first character, which can begin an identifier. -/
theorem Name.exists_cons (name : Name) :
    ∃ c cs, name.chars = c :: cs ∧ isIdentStart c = true := by
  obtain ⟨chars, valid⟩ := name
  cases chars with
  | nil => cases valid
  | cons c cs =>
    simp only [isIdent, Bool.and_eq_true] at valid
    exact ⟨c, cs, rfl, valid.1⟩

/-- A name does not begin with a character that no identifier has. -/
theorem Name.head?_ne (name : Name) {d : Char} (hd : isIdentPart d = false) (rest : List Char) :
    (name.chars ++ rest).head? ≠ some d := by
  obtain ⟨c, cs, hname, hstart⟩ := name.exists_cons
  rw [hname, List.cons_append, List.head?_cons]
  rintro ⟨⟩
  rw [isIdentPart_of_isIdentStart hstart] at hd
  cases hd

/-- What may stand between two parts of a place. -/
inductive Filler where
  /-- A blank. -/
  | blank (c : Char) (valid : isBlank c = true)
  /-- A comment, begun by two slashes or by a hash, and the end of its line. -/
  | comment (slashes : Bool) (text : List Char) (valid : '\n' ∉ text)

/-- The text of a filler. -/
def Filler.chars : Filler → List Char
  | .blank c _ => [c]
  | .comment true text _ => '/' :: '/' :: text ++ ['\n']
  | .comment false text _ => '#' :: text ++ ['\n']

/-- The filler is not a comment. -/
def Filler.isPlain : Filler → Bool
  | .blank _ _ => true
  | .comment _ _ _ => false

/-- What may be projected from a name or from parentheses. -/
inductive Suffix where
  /-- A field. -/
  | field (name : Name)
  /-- An index with any text in it. -/
  | index (text : List Char) (valid : ']' ∉ text)

/-- The text of a suffix. -/
def Suffix.chars : Suffix → List Char
  | .field name => '.' :: name.chars
  | .index text _ => '[' :: text ++ [']']

/-- A field or an index has characters. -/
theorem Suffix.chars_ne_nil (suffix : Suffix) : suffix.chars ≠ [] := by
  cases suffix <;> simp [Suffix.chars]

/-- The projection that a suffix stands for. -/
def Suffix.step : Suffix → Projection
  | .field name => .field (String.ofList name.chars)
  | .index _ _ => .index

/-- A way of writing a place. -/
inductive Spelling where
  /-- A star in front of a place. -/
  | star (gap : List Filler) (inner : Spelling)
  /-- A place in parentheses, and what is projected from it. -/
  | group (before : List Filler) (inner : Spelling) (after : List Filler) (suffixes : List Suffix)
  /-- A local, and what is projected from it. -/
  | name (base : Name) (suffixes : List Suffix)

namespace Spelling

/-- The text itself. -/
def chars : Spelling → List Char
  | .star gap inner => '*' :: (gap.flatMap Filler.chars ++ inner.chars)
  | .group before inner after suffixes =>
    '(' :: (before.flatMap Filler.chars ++ (inner.chars ++ after.flatMap Filler.chars)) ++
      ')' :: suffixes.flatMap Suffix.chars
  | .name base suffixes => base.chars ++ suffixes.flatMap Suffix.chars

/-- A spelling begins with a star, a parenthesis or a letter. -/
theorem exists_cons (s : Spelling) :
    ∃ c cs, s.chars = c :: cs ∧ (c = '*' ∨ c = '(' ∨ isIdentStart c = true) := by
  cases s with
  | star gap inner => exact ⟨_, _, rfl, .inl rfl⟩
  | group before inner after suffixes => exact ⟨_, _, rfl, .inr (.inl rfl)⟩
  | name base suffixes =>
    obtain ⟨c, cs, hbase, hstart⟩ := base.exists_cons
    exact ⟨c, cs ++ suffixes.flatMap Suffix.chars, by rw [chars, hbase, List.cons_append],
      .inr (.inr hstart)⟩

/-- The place that is written: a star dereferences all that follows it. -/
def place : Spelling → Place
  | .star _ inner => inner.place.deref
  | .group _ inner _ suffixes => inner.place.extend (suffixes.map Suffix.step)
  | .name base suffixes => ⟨String.ofList base.chars, suffixes.map Suffix.step⟩

/-- No comment stands behind a star or inside parentheses, and whatever stands in parentheses is
balanced. -/
def Readable : Spelling → Prop
  | .star gap inner => gap.all Filler.isPlain = true ∧ inner.Readable
  | .group before inner after _ =>
    before.all Filler.isPlain = true ∧ after.all Filler.isPlain = true ∧ Balanced inner.chars ∧
      inner.Readable
  | .name _ _ => True

instance decidableReadable : DecidablePred Readable
  | .star _ inner =>
    have := decidableReadable inner
    inferInstanceAs (Decidable (_ ∧ _))
  | .group _ inner _ _ =>
    have := decidableReadable inner
    inferInstanceAs (Decidable (_ ∧ _ ∧ _ ∧ _))
  | .name _ _ => inferInstanceAs (Decidable True)

end Spelling

variable {c : Char} {cs junk rest : List Char} {p : Place} {steps : List Projection}
  {gap : List Filler} {suffixes : List Suffix}

/-! ### Texts that stop the reader -/

/-- The first character that is not a space is a closing parenthesis or could begin a comment. -/
def Blocked (cs : List Char) : Prop :=
  ∃ c rest, trimStart cs = c :: rest ∧ (c = ')' ∨ c = '#' ∨ c = '/')

/-- A closing parenthesis, a hash or a slash stops the reader. -/
theorem blocked_cons (h : c = ')' ∨ c = '#' ∨ c = '/') : Blocked (c :: cs) := by
  refine ⟨c, cs, ?_, h⟩
  have hspace : isSpace c = false := by
    rcases h with rfl | rfl | rfl <;> decide
  simp [trimStart, hspace]

/-- Spaces in front do not matter for that. -/
theorem blocked_cons_space (h : isSpace c = true) : Blocked (c :: cs) ↔ Blocked cs := by
  simp [Blocked, trimStart, h]

/-- Where the reader is stopped, no place is read. -/
theorem Blocked.not_read (h : Blocked cs) : read cs ≠ .ok p := by
  obtain ⟨c, rest, hcs, hc⟩ := h
  induction cs with
  | nil => simp [trimStart] at hcs
  | cons d cs ih =>
    by_cases hspace : isSpace d = true
    · rw [read_cons_space hspace]
      exact ih (by simpa [trimStart, hspace] using hcs)
    · have hd : d = c := by
        simp [trimStart, hspace] at hcs
        exact hcs.1
      subst hd
      rcases hc with rfl | rfl | rfl
      all_goals exact not_read_of_other (by decide) (by decide) (by decide) (by decide)

/-- Where the reader is stopped, there are no projections. -/
theorem Blocked.not_ends (h : Blocked cs) : ¬ Ends cs steps := by
  obtain ⟨c, rest, hcs, hc⟩ := h
  apply not_ends_of_other hcs
  · rcases hc with rfl | rfl | rfl <;> decide
  · rcases hc with rfl | rfl | rfl <;> decide

/-- What stops the reader ends an identifier. -/
theorem Blocked.endsIdent (h : Blocked cs) : EndsIdent cs := by
  obtain ⟨c, rest, hcs, hc⟩ := h
  cases cs with
  | nil => simp [trimStart] at hcs
  | cons d cs =>
    rw [endsIdent_cons]
    by_cases hspace : isSpace d = true
    · by_contra hpart
      rw [isSpace_of_isIdentPart (by simpa using hpart)] at hspace
      cases hspace
    · have hd : d = c := by
        simp [trimStart, hspace] at hcs
        exact hcs.1
      subst hd
      rcases hc with rfl | rfl | rfl <;> decide

/-! ### Gaps -/

/-- A comment stops the reader. -/
theorem blocked_comment (slashes : Bool) (text : List Char) (valid : '\n' ∉ text) :
    Blocked ((Filler.comment slashes text valid).chars ++ cs) := by
  cases slashes
  · exact blocked_cons (.inr (.inl rfl))
  · exact blocked_cons (.inr (.inr rfl))

/-- A comment in a gap stops the reader. -/
theorem blocked_of_not_plain (h : gap.all Filler.isPlain = false) :
    Blocked (gap.flatMap Filler.chars ++ cs) := by
  induction gap with
  | nil => cases h
  | cons filler gap ih =>
    rw [List.flatMap_cons, List.append_assoc]
    cases filler with
    | blank c valid =>
      have hgap := ih (by simpa [Filler.isPlain] using h)
      exact (blocked_cons_space (isSpace_of_isBlank valid)).2 hgap
    | comment slashes text valid => exact blocked_comment slashes text valid

/-- A gap without comments consists of spaces. -/
theorem isSpace_of_plain (h : gap.all Filler.isPlain = true) :
    ∀ c ∈ gap.flatMap Filler.chars, isSpace c = true := by
  intro c hc
  obtain ⟨filler, hfiller, hc⟩ := List.mem_flatMap.1 hc
  cases filler with
  | blank d valid =>
    rw [Filler.chars, List.mem_singleton] at hc
    exact hc ▸ isSpace_of_isBlank valid
  | comment slashes text valid => simpa [Filler.isPlain] using List.all_eq_true.1 h _ hfiller

/-- What stops the reader does so behind a gap as well. -/
theorem Blocked.gap_append (h : Blocked cs) : Blocked (gap.flatMap Filler.chars ++ cs) := by
  induction gap with
  | nil => exact h
  | cons filler gap ih =>
    rw [List.flatMap_cons, List.append_assoc]
    cases filler with
    | blank c valid => exact (blocked_cons_space (isSpace_of_isBlank valid)).2 ih
    | comment slashes text valid => exact blocked_comment slashes text valid

/-- A closing parenthesis in a gap stands in a comment. -/
theorem blocked_of_gap_eq (h : gap.flatMap Filler.chars = cs ++ ')' :: rest) : Blocked cs := by
  induction gap generalizing cs with
  | nil => simp at h
  | cons filler gap ih =>
    rw [List.flatMap_cons] at h
    cases filler with
    | blank c valid =>
      cases cs with
      | nil =>
        obtain ⟨rfl, -⟩ := List.cons.inj h
        exact absurd valid (by decide)
      | cons d cs =>
        obtain ⟨rfl, htail⟩ := List.cons.inj h
        exact (blocked_cons_space (isSpace_of_isBlank valid)).2 (ih htail)
    | comment slashes text valid =>
      cases cs with
      | nil => cases slashes <;> cases (List.cons.inj h).1
      | cons d cs =>
        apply blocked_cons
        cases slashes
        · exact .inr (.inl (List.cons.inj h).1.symm)
        · exact .inr (.inr (List.cons.inj h).1.symm)

/-- So it does not matter in front of a place. -/
theorem read_gap_append (h : gap.all Filler.isPlain = true) :
    read (gap.flatMap Filler.chars ++ cs) = read cs := by
  have hspaces := isSpace_of_plain h
  generalize gap.flatMap Filler.chars = spaces at hspaces
  induction spaces with
  | nil => rfl
  | cons c spaces ih =>
    obtain ⟨hc, hspaces⟩ := List.forall_mem_cons.1 hspaces
    rw [List.cons_append, read_cons_space hc, ih hspaces]

/-! ### Fields and indices -/

/-- The start of a row of projections ends an identifier. -/
theorem endsIdent_of_suffixes_eq (h : suffixes.flatMap Suffix.chars = cs ++ rest) :
    EndsIdent cs := by
  cases cs with
  | nil => simp [EndsIdent]
  | cons c cs =>
    rw [endsIdent_cons]
    cases suffixes with
    | nil => cases h
    | cons suffix suffixes =>
      cases suffix with
      | field name =>
        rw [← (List.cons.inj h).1]
        decide
      | index text valid =>
        rw [← (List.cons.inj h).1]
        decide

/-- Projections end an identifier, or let what follows end it. -/
theorem endsIdent_suffixes (suffixes : List Suffix) (h : EndsIdent cs) :
    EndsIdent (suffixes.flatMap Suffix.chars ++ cs) := by
  cases suffixes with
  | nil => exact h
  | cons suffix suffixes =>
    cases suffix with
    | field name => exact endsIdent_cons.2 (by decide)
    | index text valid => exact endsIdent_cons.2 (by decide)

/-- The text of a field or an index is read as that projection. -/
theorem suffix?_chars (suffix : Suffix) (h : EndsIdent cs) :
    suffix? (suffix.chars ++ cs) = some (suffix.step, cs) := by
  cases suffix with
  | field name => exact suffix?_of_field name.valid h
  | index text valid =>
    rw [Suffix.chars, List.cons_append, List.cons_append, List.append_assoc]
    exact suffix?_of_index valid

/-- Fields and indices are read in their order. -/
theorem ends_suffixes (h : EndsIdent cs) :
    Ends (suffixes.flatMap Suffix.chars ++ cs) steps ↔
      ∃ others, Ends cs others ∧ steps = suffixes.map Suffix.step ++ others := by
  induction suffixes generalizing steps with
  | nil => simp
  | cons suffix suffixes ih =>
    have hnext := suffix?_chars suffix (endsIdent_suffixes suffixes h)
    rw [List.flatMap_cons, List.append_assoc, ends_of_some hnext]
    constructor
    · rintro ⟨others, hends, rfl⟩
      obtain ⟨last, hlast, rfl⟩ := ih.1 hends
      exact ⟨last, hlast, rfl⟩
    · rintro ⟨others, hothers, rfl⟩
      exact ⟨_, ih.2 ⟨others, hothers, rfl⟩, rfl⟩

/-- Two ways to cut one text: the character of one cut stands in the first part of the other or in
the second. -/
theorem append_eq_append_cons {a b x y : List Char} (h : a ++ b = x ++ c :: y) :
    (∃ t, a = x ++ c :: t ∧ y = t ++ b) ∨ ∃ t, x = a ++ t ∧ b = t ++ c :: y := by
  rcases List.append_eq_append_iff.1 h with ⟨t, hx, hb⟩ | ⟨t, ha, hy⟩
  · exact .inr ⟨t, hx, hb⟩
  · cases t with
    | nil => exact .inr ⟨[], by simpa using ha.symm, hy.symm⟩
    | cons d t =>
      obtain ⟨rfl, htail⟩ := List.cons.inj hy
      exact .inl ⟨t, ha, htail⟩

/-- A suffix with a closing parenthesis in it is not complete in front of that. -/
theorem not_ends_of_suffix_eq {suffix : Suffix} (h : suffix.chars = cs ++ ')' :: rest) :
    ¬ Ends cs steps := by
  cases suffix with
  | field name =>
    have hmem : ')' ∈ '.' :: name.chars := by
      rw [Suffix.chars] at h
      simp [h]
    rcases List.mem_cons.1 hmem with hdot | hname
    · exact absurd hdot (by decide)
    · exact absurd (isIdentPart_of_isIdent name.valid _ hname) (by decide)
  | index text valid =>
    cases cs with
    | nil => cases (List.cons.inj h).1
    | cons c cs =>
      obtain ⟨rfl, htext⟩ := List.cons.inj h
      rcases append_eq_append_cons htext with ⟨t, rfl, -⟩ | ⟨t, -, hclose⟩
      · exact not_ends_of_unclosed fun hmem => valid (List.mem_append_left _ hmem)
      · cases t <;> simp at hclose

/-- Up to a closing parenthesis in an index, there is no row of projections. -/
theorem not_ends_of_suffixes_eq (h : suffixes.flatMap Suffix.chars = cs ++ ')' :: rest) :
    ¬ Ends cs steps := by
  induction suffixes generalizing cs steps with
  | nil => simp at h
  | cons suffix suffixes ih =>
    rcases append_eq_append_cons h with ⟨t, hsuffix, -⟩ | ⟨t, rfl, htail⟩
    · exact not_ends_of_suffix_eq hsuffix
    · rw [ends_of_some (suffix?_chars suffix (endsIdent_of_suffixes_eq htail))]
      rintro ⟨others, hothers, -⟩
      exact ih htail hothers

/-! ### Guarded texts -/

/-- The text is no place with something behind it that stops the reader, and what stands in front
of a closing parenthesis in it is no place either. -/
structure Guarded (cs : List Char) : Prop where
  behind : ∀ {junk p}, Blocked junk → read (cs ++ junk) ≠ .ok p
  inside : ∀ {front rest p}, cs = front ++ ')' :: rest → read front ≠ .ok p

/-- So a parenthesis has no other partner than the one behind the text. -/
theorem Guarded.eq_of_read (h : Guarded cs) {front tail : List Char}
    (heq : cs ++ ')' :: rest = front ++ ')' :: tail) (hread : read front = .ok p) : front = cs := by
  rcases append_eq_append_cons heq with ⟨t, hcs, -⟩ | ⟨t, rfl, htail⟩
  · exact absurd hread (h.inside hcs)
  · cases t with
    | nil => simp
    | cons c t =>
      obtain ⟨rfl, -⟩ := List.cons.inj htail
      exact absurd hread (h.behind (blocked_cons (.inl rfl)))

/-- A gap in front of a guarded text keeps it guarded. -/
theorem Guarded.gap_append (h : Guarded cs) : Guarded (gap.flatMap Filler.chars ++ cs) := by
  constructor
  · intro junk p hjunk
    rw [List.append_assoc]
    cases hplain : gap.all Filler.isPlain with
    | false => exact (blocked_of_not_plain hplain).not_read
    | true =>
      rw [read_gap_append hplain]
      exact h.behind hjunk
  · intro front rest p heq
    rcases append_eq_append_cons heq with ⟨t, hgap, -⟩ | ⟨t, rfl, htail⟩
    · exact (blocked_of_gap_eq hgap).not_read
    · cases hplain : gap.all Filler.isPlain with
      | false => exact (blocked_of_not_plain hplain).not_read
      | true =>
        rw [read_gap_append hplain]
        exact h.inside htail

/-- So does a gap behind it. -/
theorem Guarded.append_gap (h : Guarded cs) : Guarded (cs ++ gap.flatMap Filler.chars) := by
  constructor
  · intro junk p hjunk
    rw [List.append_assoc]
    exact h.behind hjunk.gap_append
  · intro front rest p heq
    rcases append_eq_append_cons heq with ⟨t, hcs, -⟩ | ⟨t, rfl, hgap⟩
    · exact h.inside hcs
    · exact h.behind (blocked_of_gap_eq hgap)

/-- A dereferenced place comes from a place. -/
theorem map_deref_eq_ok {result : Except PlaceError Place} :
    result.map deref = .ok p ↔ ∃ q, result = .ok q ∧ p = q.deref := by
  cases result with
  | error error => simp [Except.map]
  | ok q => simp [Except.map, eq_comm]

/-- Without a place there is no dereferenced one. -/
theorem map_deref_ne_ok {result : Except PlaceError Place} (h : ∀ p, result ≠ .ok p) :
    result.map deref ≠ .ok p := by
  intro heq
  obtain ⟨q, hq, -⟩ := map_deref_eq_ok.1 heq
  exact h q hq

/-- A star in front of a guarded text keeps it guarded. -/
theorem Guarded.star (h : Guarded cs) : Guarded ('*' :: cs) := by
  constructor
  · intro junk p hjunk
    rw [List.cons_append, read_star]
    exact map_deref_ne_ok fun q => h.behind hjunk
  · intro front rest p heq
    cases front with
    | nil => cases (List.cons.inj heq).1
    | cons c front =>
      obtain ⟨rfl, htail⟩ := List.cons.inj heq
      rw [read_star]
      exact map_deref_ne_ok fun q => h.inside htail

/-- Parentheses around a guarded text, with projections behind them, keep it guarded. -/
theorem Guarded.group (h : Guarded cs) :
    Guarded ('(' :: cs ++ ')' :: suffixes.flatMap Suffix.chars) := by
  constructor
  · intro junk p hjunk hread
    rw [List.append_assoc, List.cons_append, List.cons_append] at hread
    obtain ⟨inner, after, q, steps, heq, -, hinner, hafter, -⟩ := read_group_eq_ok.1 hread
    obtain rfl := h.eq_of_read heq hinner
    obtain ⟨-, rfl⟩ := List.cons.inj (List.append_cancel_left heq)
    obtain ⟨others, hothers, -⟩ := (ends_suffixes hjunk.endsIdent).1 hafter
    exact hjunk.not_ends hothers
  · intro front rest p heq hread
    cases front with
    | nil => cases (List.cons.inj heq).1
    | cons c front =>
      obtain ⟨rfl, -⟩ := List.cons.inj heq
      obtain ⟨inner, after, q, steps, rfl, -, hinner, hafter, -⟩ := read_group_eq_ok.1 hread
      have hcut : cs ++ ')' :: suffixes.flatMap Suffix.chars =
          inner ++ ')' :: (after ++ ')' :: rest) := by
        simpa using heq
      obtain rfl := h.eq_of_read hcut hinner
      obtain ⟨-, hsuffixes⟩ := List.cons.inj (List.append_cancel_left hcut)
      exact not_ends_of_suffixes_eq hsuffixes hafter

/-- A name with projections is guarded. -/
theorem guarded_name (base : Name) : Guarded (base.chars ++ suffixes.flatMap Suffix.chars) := by
  constructor
  · intro junk p hjunk hread
    have hident := ident?_append_of_ends base.valid (endsIdent_suffixes suffixes hjunk.endsIdent)
    rw [List.append_assoc] at hread
    obtain ⟨steps, hafter, -⟩ := (read_name_eq_ok hident).1 hread
    obtain ⟨others, hothers, -⟩ := (ends_suffixes hjunk.endsIdent).1 hafter
    exact hjunk.not_ends hothers
  · intro front rest p heq hread
    rcases append_eq_append_cons heq with ⟨t, hbase, -⟩ | ⟨t, rfl, htail⟩
    · have hmem : ')' ∈ base.chars := by simp [hbase]
      exact absurd (isIdentPart_of_isIdent base.valid _ hmem) (by decide)
    · have hident := ident?_append_of_ends base.valid (endsIdent_of_suffixes_eq htail)
      obtain ⟨steps, hafter, -⟩ := (read_name_eq_ok hident).1 hread
      exact not_ends_of_suffixes_eq htail hafter

/-- Every spelling is guarded. -/
theorem Spelling.guarded (s : Spelling) : Guarded s.chars := by
  induction s with
  | star gap inner ih => exact ih.gap_append.star
  | group before inner after suffixes ih => exact ih.append_gap.gap_append.group
  | name base suffixes => exact guarded_name base

/-! ### Reading a spelling -/

/-- A gap without comments has no parentheses. -/
theorem free_of_plain (h : gap.all Filler.isPlain = true) :
    ∀ c ∈ gap.flatMap Filler.chars, c ≠ '(' ∧ c ≠ ')' := by
  intro c hc
  have hspace := isSpace_of_plain h c hc
  constructor <;> rintro rfl <;> exact absurd hspace (by decide)

/-- Gaps without comments do not matter for the balance. -/
theorem balanced_gaps {before after : List Filler} (hbefore : before.all Filler.isPlain = true)
    (hafter : after.all Filler.isPlain = true) :
    Balanced (before.flatMap Filler.chars ++ (cs ++ after.flatMap Filler.chars)) ↔ Balanced cs :=
  (balanced_of_free (free_of_plain hbefore)).append.trans
    (balanced_append_free (free_of_plain hafter))

/-- A guarded text between gaps is read iff the gaps have no comments and it is read alone. -/
theorem read_gaps_eq_ok {before after : List Filler} (h : Guarded cs) :
    read (before.flatMap Filler.chars ++ (cs ++ after.flatMap Filler.chars)) = .ok p ↔
      before.all Filler.isPlain = true ∧ after.all Filler.isPlain = true ∧ read cs = .ok p := by
  cases hbefore : before.all Filler.isPlain with
  | false => simp [(blocked_of_not_plain hbefore).not_read]
  | true =>
    rw [read_gap_append hbefore]
    cases hafter : after.all Filler.isPlain with
    | false =>
      have hblocked : Blocked (after.flatMap Filler.chars ++ []) := blocked_of_not_plain hafter
      rw [List.append_nil] at hblocked
      simp [h.behind hblocked]
    | true => simp [read_append_spaces (isSpace_of_plain hafter)]

/-- The text of fields and indices is the row of these projections, and no other. -/
theorem ends_suffixes_nil :
    Ends (suffixes.flatMap Suffix.chars) steps ↔ steps = suffixes.map Suffix.step := by
  have hends : EndsIdent [] := by simp [EndsIdent]
  rw [← List.append_nil (suffixes.flatMap Suffix.chars), ends_suffixes hends]
  simp [ends_nil]

namespace Spelling

/-- The reader accepts the readable spellings, each as the place that it stands for. -/
theorem read_eq_ok (s : Spelling) : read s.chars = .ok p ↔ s.Readable ∧ p = s.place := by
  induction s generalizing p with
  | star gap inner ih =>
    have hgap {q : Place} : read (gap.flatMap Filler.chars ++ inner.chars) = .ok q ↔
        gap.all Filler.isPlain = true ∧ inner.Readable ∧ q = inner.place := by
      rw [← ih]
      cases hplain : gap.all Filler.isPlain with
      | false => simp [(blocked_of_not_plain hplain).not_read]
      | true => simp [read_gap_append hplain]
    rw [chars, read_star, map_deref_eq_ok]
    simp only [hgap, Readable, place]
    constructor
    · rintro ⟨_, ⟨hplain, hinner, rfl⟩, rfl⟩
      exact ⟨⟨hplain, hinner⟩, rfl⟩
    · rintro ⟨⟨hplain, hinner⟩, rfl⟩
      exact ⟨_, ⟨hplain, hinner, rfl⟩, rfl⟩
  | group before inner after suffixes ih =>
    have hguarded :
        Guarded (before.flatMap Filler.chars ++ (inner.chars ++ after.flatMap Filler.chars)) :=
      inner.guarded.append_gap.gap_append
    rw [chars, List.cons_append, read_group_eq_ok]
    constructor
    · rintro ⟨text, rest, q, steps, heq, hbalanced, hread, hrest, rfl⟩
      obtain rfl := hguarded.eq_of_read heq hread
      obtain ⟨-, rfl⟩ := List.cons.inj (List.append_cancel_left heq)
      obtain ⟨hbefore, hafter, hread⟩ := (read_gaps_eq_ok inner.guarded).1 hread
      obtain ⟨hinner, rfl⟩ := ih.1 hread
      rw [ends_suffixes_nil.1 hrest]
      exact ⟨⟨hbefore, hafter, (balanced_gaps hbefore hafter).1 hbalanced, hinner⟩, rfl⟩
    · rintro ⟨⟨hbefore, hafter, hbalanced, hinner⟩, rfl⟩
      exact ⟨_, _, _, _, rfl, (balanced_gaps hbefore hafter).2 hbalanced,
        (read_gaps_eq_ok inner.guarded).2 ⟨hbefore, hafter, ih.2 ⟨hinner, rfl⟩⟩,
        ends_suffixes_nil.2 rfl, rfl⟩
  | name base suffixes =>
    have hends : EndsIdent (suffixes.flatMap Suffix.chars) :=
      endsIdent_of_suffixes_eq (List.append_nil _).symm
    rw [chars, read_name_eq_ok (ident?_append_of_ends base.valid hends)]
    simp [ends_suffixes_nil, Readable, place, extend]

end Spelling

end RegionInference.Place
