import Mathlib
import RegionInference.Place.Text

/-!
# What the reader of places accepts

The reader trims its text, looks at the first character and, behind a parenthesis or a name, goes
through fields and indices until only spaces are left. Each of these is brought into a form that no
later proof has to open:

* spaces around a text never matter (`Place.read_append_spaces`, `Place.read_cons_space`);
* the partner of a parenthesis is found by counting, so that what lies between the two is
  `Place.Balanced` (`Place.splitClose_eq_some`);
* a text is accepted behind a star (`Place.read_star`), behind a parenthesis
  (`Place.read_group_eq_ok`), or because it begins with a name (`Place.read_name_eq_ok`), and
  nothing else is (`Place.not_read_of_other`).

A text that is accepted stands for a place all of whose names are identifiers
(`Place.named_of_read`).
-/

namespace RegionInference

namespace Text

/-! ### Spaces around a text -/

variable {c : Char} {cs a b : List Char}

/-- The characters of identifiers are digits, letters and the underscore. -/
theorem toNat_of_isIdentPart (h : isIdentPart c = true) :
    (0x30 ≤ c.toNat ∧ c.toNat ≤ 0x39) ∨ (0x41 ≤ c.toNat ∧ c.toNat ≤ 0x5A) ∨ c.toNat = 0x5F ∨
      (0x61 ≤ c.toNat ∧ c.toNat ≤ 0x7A) := by
  simp only [isIdentPart, Char.isAlphanum, Char.isAlpha, Char.isUpper, Char.isLower, Char.isDigit,
    ge_iff_le, Char.reduceVal, UInt32.le_iff_toNat_le, UInt32.reduceToNat, Char.toNat_val,
    Bool.or_eq_true, Bool.and_eq_true, decide_eq_true_eq, beq_iff_eq] at h
  rcases h with h | rfl
  · omega
  · decide

/-- None of them is a space. -/
theorem isSpace_of_isIdentPart (h : isIdentPart c = true) : isSpace c = false := by
  have hn := toNat_of_isIdentPart h
  simp [isSpace, isBlank]
  omega

/-- What can begin an identifier can be in one. -/
theorem isIdentPart_of_isIdentStart (h : isIdentStart c = true) : isIdentPart c = true := by
  simp only [isIdentStart, isIdentPart, Char.isAlphanum, Bool.or_eq_true] at h ⊢
  tauto

/-- A space at the start is trimmed. -/
theorem trim_cons_space (h : isSpace c = true) : trim (c :: cs) = trim cs := by
  simp [trim, trimStart, h]

/-- Spaces at the end are trimmed. -/
theorem trimEnd_append_spaces (h : ∀ c ∈ b, isSpace c = true) : trimEnd (a ++ b) = trimEnd a := by
  have hnone : b.reverse.dropWhile isSpace = [] :=
    List.dropWhile_eq_nil_iff.2 fun c hc => h c (List.mem_reverse.1 hc)
  simp [trimEnd, List.dropWhile_append, hnone]

/-- If a text does not consist of spaces, its start is trimmed alone. -/
theorem trimStart_append (h : trimStart a ≠ []) : trimStart (a ++ b) = trimStart a ++ b := by
  simp only [trimStart] at h ⊢
  simp [List.dropWhile_append, h]

/-- Of a text of spaces nothing is left. -/
theorem trimStart_append_spaces (ha : trimStart a = []) (hb : ∀ c ∈ b, isSpace c = true) :
    trimStart (a ++ b) = [] := by
  have hnone : b.dropWhile isSpace = [] := List.dropWhile_eq_nil_iff.2 hb
  simp only [trimStart] at ha ⊢
  simp [List.dropWhile_append, ha, hnone]

/-- Spaces at the end do not matter for trimming. -/
theorem trim_append_spaces (h : ∀ c ∈ b, isSpace c = true) : trim (a ++ b) = trim a := by
  by_cases hempty : trimStart a = []
  · rw [trim, trimStart_append_spaces hempty h, trim, hempty]
  · rw [trim, trimStart_append hempty, trimEnd_append_spaces h, trim]

/-- What is trimmed at the end are spaces. -/
theorem exists_trimEnd (cs : List Char) :
    ∃ spaces, (∀ c ∈ spaces, isSpace c = true) ∧ cs = trimEnd cs ++ spaces := by
  refine ⟨(cs.reverse.takeWhile isSpace).reverse, fun c hc => ?_, ?_⟩
  · exact List.mem_takeWhile_imp (List.mem_reverse.1 hc)
  · rw [trimEnd, ← List.reverse_append, List.takeWhile_append_dropWhile, List.reverse_reverse]

/-- Trimming at the end first changes nothing. -/
theorem trim_trimEnd (cs : List Char) : trim (trimEnd cs) = trim cs := by
  obtain ⟨spaces, hspaces, heq⟩ := exists_trimEnd cs
  conv_rhs => rw [heq]
  rw [trim_append_spaces hspaces]

/-- A text that does not begin with a space is trimmed at its end only. -/
theorem trim_cons (h : isSpace c = false) : trim (c :: cs) = c :: trimEnd cs := by
  have hstart : trimStart (c :: cs) = c :: cs := by simp [trimStart, h]
  rw [trim, hstart]
  simp only [trimEnd, List.reverse_cons, List.dropWhile_append]
  by_cases hempty : cs.reverse.dropWhile isSpace = []
  · simp [hempty, h]
  · simp [hempty]

/-- Trimming at the end stops at a character that is no space. -/
theorem trimEnd_append_cons (h : isSpace c = false) :
    trimEnd (a ++ c :: b) = a ++ c :: trimEnd b := by
  cases hb : b.reverse.dropWhile isSpace with
  | nil => simp [trimEnd, List.dropWhile_append, hb, h]
  | cons d rest => simp [trimEnd, List.dropWhile_append, hb]

/-- Nothing is left of a text iff it consists of spaces. -/
theorem isEmpty_trim : (trim cs).isEmpty = true ↔ ∀ c ∈ cs, isSpace c = true := by
  rw [List.isEmpty_iff]
  constructor
  · intro h
    induction cs with
    | nil => simp
    | cons c cs ih =>
      cases hc : isSpace c with
      | false => simp [trim_cons hc] at h
      | true =>
        rw [trim_cons_space hc] at h
        simpa [hc] using ih h
  · intro h
    rw [← List.nil_append cs, trim_append_spaces h]
    rfl

/-! ### Identifiers in front -/

/-- No identifier is read where none can begin. -/
theorem ident?_eq_none (h : isIdentStart c = false) : ident? (c :: cs) = none := by
  simp [ident?, h]

/-- What is read as an identifier is one. -/
theorem isIdent_of_ident? {name rest : List Char} (h : ident? cs = some (name, rest)) :
    isIdent name = true := by
  cases cs with
  | nil => simp [ident?] at h
  | cons c cs =>
    simp only [ident?] at h
    split at h
    · next hstart =>
      simp only [Option.some.injEq, Prod.mk.injEq] at h
      obtain ⟨rfl, -⟩ := h
      simp [isIdent, hstart]
    · simp at h

/-- All characters of an identifier can be in one. -/
theorem isIdentPart_of_isIdent (h : isIdent cs = true) : ∀ c ∈ cs, isIdentPart c = true := by
  cases cs with
  | nil => simp
  | cons c cs =>
    simp only [isIdent, Bool.and_eq_true, List.all_eq_true] at h
    exact List.forall_mem_cons.2 ⟨isIdentPart_of_isIdentStart h.1, h.2⟩

/-- No identifier has a parenthesis in it. -/
theorem free_of_isIdent (h : isIdent cs = true) : ∀ c ∈ cs, c ≠ '(' ∧ c ≠ ')' := by
  intro c hc
  have hpart := isIdentPart_of_isIdent h c hc
  constructor <;> rintro rfl <;> exact absurd hpart (by decide)

/-- A text does not go on with the identifier in front of it. -/
def EndsIdent (cs : List Char) : Prop :=
  ∀ c ∈ cs.head?, isIdentPart c = false

/-- Whether an identifier ends is decided by the first character behind it. -/
theorem endsIdent_cons : EndsIdent (c :: cs) ↔ isIdentPart c = false := by
  simp [EndsIdent]

/-- What ends an identifier stays behind it, whatever the text in front begins with. -/
theorem ident?_append_ends (hends : EndsIdent b) :
    ident? (a ++ b) = (ident? a).map fun found => (found.1, found.2 ++ b) := by
  cases a with
  | nil =>
    cases b with
    | nil => rfl
    | cons c b =>
      have hpart := endsIdent_cons.1 hends
      have hstart : isIdentStart c = false := by
        by_contra h
        rw [isIdentPart_of_isIdentStart (by simpa using h)] at hpart
        cases hpart
      simp [ident?, hstart]
  | cons c a =>
    have htake : b.takeWhile isIdentPart = [] := by
      cases b with
      | nil => rfl
      | cons c b => simp [endsIdent_cons.1 hends]
    have hdrop : b.dropWhile isIdentPart = b := by
      cases b with
      | nil => rfl
      | cons c b => simp [endsIdent_cons.1 hends]
    simp only [ident?, List.cons_append]
    split
    · simp [List.takeWhile_append, List.dropWhile_append, htake, hdrop]
      intro h
      exact (List.IsPrefix.eq_of_length (List.takeWhile_prefix _) h).symm
    · rfl

/-- An identifier is read as a whole. -/
theorem ident?_of_isIdent (h : isIdent cs = true) : ident? cs = some (cs, []) := by
  cases cs with
  | nil => simp [isIdent] at h
  | cons c cs =>
    simp only [isIdent, Bool.and_eq_true, List.all_eq_true] at h
    simp [ident?, h.1, List.takeWhile_eq_self_iff.2 h.2, List.dropWhile_eq_nil_iff.2 h.2]

/-- An identifier is read up to where it ends. -/
theorem ident?_append_of_ends (ha : isIdent a = true) (hends : EndsIdent b) :
    ident? (a ++ b) = some (a, b) := by
  simp [ident?_append_ends hends, ident?_of_isIdent ha]

end Text

open Text

namespace Place

variable {c : Char} {cs spaces rest : List Char} {place p : Place} {steps : List Projection}

/-! ### Fields and indices -/

/-- The place with some more projections. -/
def extend (place : Place) (steps : List Projection) : Place :=
  { place with projections := place.projections ++ steps }

/-- A dot and an identifier are read as a field. -/
theorem suffix?_of_field (hname : isIdent cs = true) (hends : EndsIdent rest) :
    suffix? ('.' :: cs ++ rest) = some (.field (String.ofList cs), rest) := by
  have hdot : trimStart ('.' :: (cs ++ rest)) = '.' :: (cs ++ rest) := by
    simp [trimStart, show isSpace '.' = false by decide]
  simp [suffix?, hdot, ident?_append_of_ends hname hends]

/-- A bracket is read as an index, up to the first one that closes it. -/
theorem suffix?_of_index (hclosed : ']' ∉ cs) :
    suffix? ('[' :: cs ++ ']' :: rest) = some (.index, rest) := by
  have hopen : trimStart ('[' :: (cs ++ ']' :: rest)) = '[' :: (cs ++ ']' :: rest) := by
    simp [trimStart, show isSpace '[' = false by decide]
  have hall : ∀ c ∈ cs, (c != ']') = true := by
    intro c hc
    rw [bne_iff_ne]
    rintro rfl
    exact hclosed hc
  simp [suffix?, hopen, List.dropWhile_append_of_pos hall]

/-- A bracket that is never closed is not read. -/
theorem suffix?_of_unclosed (hclosed : ']' ∉ cs) : suffix? ('[' :: cs) = none := by
  have hopen : trimStart ('[' :: cs) = '[' :: cs := by
    simp [trimStart, show isSpace '[' = false by decide]
  have hnone : cs.dropWhile (· != ']') = [] := by
    rw [List.dropWhile_eq_nil_iff]
    intro c hc
    rw [bne_iff_ne]
    rintro rfl
    exact hclosed hc
  simp [suffix?, hopen, hnone]

/-- Spaces alone are no projection. -/
theorem suffix?_of_spaces (h : trimStart cs = []) : suffix? cs = none := by
  simp [suffix?, h]

/-- A projection begins with a dot or a bracket. -/
theorem suffix?_of_other (hcs : trimStart cs = c :: rest) (hdot : c ≠ '.') (hopen : c ≠ '[') :
    suffix? cs = none := by
  rw [suffix?, hcs]
  split
  · next heq => exact absurd (List.cons.inj heq).1 hdot
  · next heq => exact absurd (List.cons.inj heq).1 hopen
  · rfl

/-- Projections end where none is read. -/
theorem suffixes_of_none (h : suffix? cs = none) : suffixes cs = ([], cs) := by
  rw [suffixes]
  split
  · rfl
  · next heq =>
    rw [h] at heq
    cases heq

/-- Projections go on behind one that is read. -/
theorem suffixes_of_some {step : Projection} (h : suffix? cs = some (step, rest)) :
    suffixes cs = (step :: (suffixes rest).1, (suffixes rest).2) := by
  rw [suffixes]
  split
  · next heq =>
    rw [h] at heq
    cases heq
  · next heq =>
    rw [h] at heq
    cases heq
    rfl

/-- Spaces end an identifier. -/
theorem endsIdent_of_spaces (h : ∀ c ∈ spaces, isSpace c = true) : EndsIdent spaces := by
  intro c hc
  by_contra hpart
  have hspace := h c (List.mem_of_mem_head? hc)
  rw [isSpace_of_isIdentPart (by simpa using hpart)] at hspace
  cases hspace

/-- Spaces behind a text do not change what it begins with. -/
theorem suffix?_append_spaces (h : ∀ c ∈ spaces, isSpace c = true) :
    suffix? (cs ++ spaces) = (suffix? cs).map fun found => (found.1, found.2 ++ spaces) := by
  have hends := endsIdent_of_spaces h
  have hbracket : spaces.dropWhile (· != ']') = [] := by
    rw [List.dropWhile_eq_nil_iff]
    intro c hc
    rw [bne_iff_ne]
    rintro rfl
    exact absurd (h _ hc) (by decide)
  cases hcs : trimStart cs with
  | nil =>
    rw [suffix?_of_spaces hcs, suffix?_of_spaces (trimStart_append_spaces hcs h)]
    rfl
  | cons c tail =>
    have happend : trimStart (cs ++ spaces) = c :: (tail ++ spaces) := by
      rw [trimStart_append (by simp [hcs]), hcs, List.cons_append]
    by_cases hdot : c = '.'
    · subst hdot
      simp [suffix?, hcs, happend, ident?_append_ends hends, Function.comp_def]
    · by_cases hopen : c = '['
      · subst hopen
        simp only [suffix?, hcs, happend, List.dropWhile_append, hbracket]
        cases htail : tail.dropWhile (· != ']') with
        | nil => simp
        | cons d tail => simp
      · rw [suffix?_of_other hcs hdot hopen, suffix?_of_other happend hdot hopen]
        rfl

/-- Spaces at the end are left over. -/
theorem suffixes_append_spaces (h : ∀ c ∈ spaces, isSpace c = true) (cs : List Char) :
    suffixes (cs ++ spaces) = ((suffixes cs).1, (suffixes cs).2 ++ spaces) := by
  have hcs : suffix? (cs ++ spaces) =
      (suffix? cs).map fun found => (found.1, found.2 ++ spaces) := suffix?_append_spaces h
  induction cs using suffixes.induct with
  | case1 cs hnone =>
    rw [hnone] at hcs
    rw [suffixes_of_none hnone, suffixes_of_none hcs]
  | case2 cs step rest hsome _ _ _ ih =>
    rw [hsome] at hcs
    rw [suffixes_of_some hsome, suffixes_of_some hcs]
    simp [ih (suffix?_append_spaces h)]

/-- The text is made of these fields and indices, with spaces in front of them and behind. -/
def Ends (cs : List Char) (steps : List Projection) : Prop :=
  (suffixes cs).1 = steps ∧ ∀ c ∈ (suffixes cs).2, isSpace c = true

/-- Spaces at the end do not matter for the projections of a text. -/
theorem ends_append_spaces (h : ∀ c ∈ spaces, isSpace c = true) :
    Ends (cs ++ spaces) steps ↔ Ends cs steps := by
  simp only [Ends, suffixes_append_spaces h, List.mem_append]
  refine and_congr_right fun _ => ⟨fun hall c hc => hall c (.inl hc), fun hall c hc => ?_⟩
  exact hc.elim (hall c) (h c)

/-- The empty text has no projections. -/
theorem ends_nil : Ends [] steps ↔ steps = [] := by
  have hnone : suffixes [] = ([], []) := suffixes_of_none rfl
  rw [Ends, hnone]
  exact ⟨fun h => h.1.symm, fun h => ⟨h.symm, by simp⟩⟩

/-- The projections of a text are the first one and those of what follows. -/
theorem ends_of_some {step : Projection} (h : suffix? cs = some (step, rest)) :
    Ends cs steps ↔ ∃ others, Ends rest others ∧ steps = step :: others := by
  simp only [Ends, suffixes_of_some h]
  constructor
  · rintro ⟨rfl, hspaces⟩
    exact ⟨_, ⟨rfl, hspaces⟩, rfl⟩
  · rintro ⟨_, ⟨rfl, hspaces⟩, rfl⟩
    exact ⟨rfl, hspaces⟩

/-- A text with a bracket that is never closed is no row of projections. -/
theorem not_ends_of_unclosed (h : ']' ∉ cs) : ¬ Ends ('[' :: cs) steps := by
  have hnone : suffixes ('[' :: cs) = ([], '[' :: cs) := suffixes_of_none (suffix?_of_unclosed h)
  rintro ⟨-, hspaces⟩
  rw [hnone] at hspaces
  exact absurd (hspaces '[' List.mem_cons_self) (by decide)

/-- Something else than a field, an index or a space may not follow. -/
theorem not_ends_of_other (hcs : trimStart cs = c :: rest) (hdot : c ≠ '.') (hopen : c ≠ '[') :
    ¬ Ends cs steps := by
  have hnone : suffixes cs = ([], cs) :=
    suffixes_of_none (suffix?_of_other hcs hdot hopen)
  rintro ⟨-, hspaces⟩
  rw [hnone] at hspaces
  rw [trimStart, List.dropWhile_eq_nil_iff.2 hspaces] at hcs
  cases hcs

/-- A place is read on if the text consists of projections, which it is extended with. -/
theorem readSuffixes_eq_ok {whole : List Char} :
    readSuffixes whole place cs = .ok p ↔ ∃ steps, Ends cs steps ∧ p = place.extend steps := by
  simp only [readSuffixes, Ends]
  by_cases h : ∀ c ∈ (suffixes cs).2, isSpace c = true
  · rw [if_pos (isEmpty_trim.2 h)]
    constructor
    · rintro ⟨⟩
      exact ⟨_, ⟨rfl, h⟩, rfl⟩
    · rintro ⟨_, ⟨rfl, -⟩, rfl⟩
      rfl
  · rw [if_neg (mt isEmpty_trim.1 h)]
    constructor
    · rintro ⟨⟩
    · rintro ⟨_, ⟨-, hspaces⟩, -⟩
      exact absurd hspaces h

/-! ### Parentheses -/

/-- With `depth` parentheses open in front of it, the text closes them and all of its own, and never
one that is not open. -/
def ClosesAll (depth : Nat) (cs : List Char) : Prop :=
  (∀ front ∈ cs.inits, front.count ')' ≤ front.count '(' + depth) ∧
    cs.count ')' = cs.count '(' + depth

instance (depth : Nat) (cs : List Char) : Decidable (ClosesAll depth cs) :=
  inferInstanceAs (Decidable (_ ∧ _))

/-- The parentheses of the text come in pairs. -/
abbrev Balanced (cs : List Char) : Prop :=
  ClosesAll 0 cs

/-- The empty text closes nothing. -/
theorem closesAll_nil {depth : Nat} : ClosesAll depth [] ↔ depth = 0 := by
  simp [ClosesAll, eq_comm]

/-- A parenthesis that opens is one more to close. -/
theorem closesAll_open {depth : Nat} : ClosesAll depth ('(' :: cs) ↔ ClosesAll (depth + 1) cs := by
  simp [ClosesAll, Nat.add_right_comm, Nat.add_assoc]

/-- A parenthesis cannot be closed that is not open. -/
theorem not_closesAll_close : ¬ Balanced (')' :: cs) := by
  intro h
  have := h.1 [')'] (by simp)
  simp at this

/-- A parenthesis that closes is one fewer to close. -/
theorem closesAll_close {depth : Nat} :
    ClosesAll (depth + 1) (')' :: cs) ↔ ClosesAll depth cs := by
  simp [ClosesAll, ← Nat.add_assoc]

/-- Other characters open and close nothing. -/
theorem closesAll_other {depth : Nat} (hopen : c ≠ '(') (hclose : c ≠ ')') :
    ClosesAll depth (c :: cs) ↔ ClosesAll depth cs := by
  simp [ClosesAll, hopen, hclose]

/-- What closes the innermost parentheses leaves the outer ones to the rest. -/
theorem closesAll_append {k depth : Nat} (h : ClosesAll k cs) :
    ClosesAll (k + depth) (cs ++ rest) ↔ ClosesAll depth rest := by
  induction cs generalizing k with
  | nil =>
    obtain rfl := closesAll_nil.1 h
    rw [Nat.zero_add, List.nil_append]
  | cons c cs ih =>
    rw [List.cons_append]
    by_cases hopen : c = '('
    · subst hopen
      rw [closesAll_open, Nat.add_right_comm]
      exact ih (closesAll_open.1 h)
    by_cases hclose : c = ')'
    · subst hclose
      cases k with
      | zero => exact absurd h not_closesAll_close
      | succ k =>
        rw [Nat.add_right_comm, closesAll_close]
        exact ih (closesAll_close.1 h)
    · rw [closesAll_other hopen hclose]
      exact ih ((closesAll_other hopen hclose).1 h)

/-- Behind a balanced text, what follows has to be balanced alone. -/
theorem Balanced.append (h : Balanced cs) : Balanced (cs ++ rest) ↔ Balanced rest := by
  have happend : ClosesAll (0 + 0) (cs ++ rest) ↔ ClosesAll 0 rest := closesAll_append h
  exact happend

/-- A text without parentheses is balanced. -/
theorem balanced_of_free (h : ∀ c ∈ cs, c ≠ '(' ∧ c ≠ ')') : Balanced cs := by
  induction cs with
  | nil => exact closesAll_nil.2 rfl
  | cons c cs ih =>
    obtain ⟨hc, hcs⟩ := List.forall_mem_cons.1 h
    exact (closesAll_other hc.1 hc.2).2 (ih hcs)

/-- A text without parentheses behind another one does not matter for the balance. -/
theorem balanced_append_free (h : ∀ c ∈ rest, c ≠ '(' ∧ c ≠ ')') :
    Balanced (cs ++ rest) ↔ Balanced cs := by
  constructor
  · rintro ⟨hfronts, hcount⟩
    refine ⟨fun front hfront => hfronts front ?_, ?_⟩
    · rw [List.mem_inits] at hfront ⊢
      exact hfront.trans (List.prefix_append cs rest)
    · have hopen : rest.count '(' = 0 := List.count_eq_zero.2 fun hmem => (h _ hmem).1 rfl
      have hclose : rest.count ')' = 0 := List.count_eq_zero.2 fun hmem => (h _ hmem).2 rfl
      simpa [List.count_append, hopen, hclose] using hcount
  · intro hcs
    exact hcs.append.2 (balanced_of_free h)

/-- A character that is kept in front of the split. -/
theorem map_cons_splitClose {depth : Nat} {inner : List Char} :
    ((splitClose depth cs).map fun found => (c :: found.1, found.2)) = some (inner, rest) ↔
      ∃ tail, inner = c :: tail ∧ splitClose depth cs = some (tail, rest) := by
  constructor
  · intro h
    obtain ⟨⟨tail, rest'⟩, hsplit, heq⟩ := Option.map_eq_some_iff.1 h
    simp only [Prod.mk.injEq] at heq
    obtain ⟨rfl, rfl⟩ := heq
    exact ⟨tail, rfl, hsplit⟩
  · rintro ⟨tail, rfl, hsplit⟩
    rw [hsplit]
    rfl

/-- A character that is kept inside the parentheses, with the depth behind it. -/
theorem splitClose_kept {c : Char} {depth d : Nat} {inner : List Char}
    (hsplit : ∀ tail, splitClose d cs = some (tail, rest) ↔
      cs = tail ++ ')' :: rest ∧ ClosesAll d tail)
    (hnil : c = ')' → ¬ ClosesAll depth [])
    (hcount : ∀ tail, ClosesAll depth (c :: tail) ↔ ClosesAll d tail) :
    (∃ tail, inner = c :: tail ∧ splitClose d cs = some (tail, rest)) ↔
      c :: cs = inner ++ ')' :: rest ∧ ClosesAll depth inner := by
  constructor
  · rintro ⟨tail, rfl, htail⟩
    obtain ⟨rfl, hinner⟩ := (hsplit tail).1 htail
    exact ⟨rfl, (hcount tail).2 hinner⟩
  · rintro ⟨heq, hinner⟩
    cases inner with
    | nil => exact absurd hinner (hnil (List.cons.inj heq).1)
    | cons d tail =>
      obtain ⟨rfl, htail⟩ := List.cons.inj heq
      exact ⟨tail, rfl, (hsplit tail).2 ⟨htail, (hcount tail).1 hinner⟩⟩

/-- The partner of a parenthesis is the first closing one that leaves the text between the two
balanced. -/
theorem splitClose_eq_some {depth : Nat} {inner : List Char} :
    splitClose depth cs = some (inner, rest) ↔
      cs = inner ++ ')' :: rest ∧ ClosesAll depth inner := by
  induction cs generalizing depth inner with
  | nil => simp [splitClose]
  | cons c cs ih =>
    rw [splitClose.eq_def]
    dsimp only
    by_cases hopen : c = '('
    · subst hopen
      rw [if_pos rfl]
      exact map_cons_splitClose.trans (splitClose_kept (fun tail => ih)
        (fun heq => absurd heq (by decide)) fun tail => closesAll_open)
    rw [if_neg hopen]
    by_cases hclose : c = ')'
    · subst hclose
      rw [if_pos rfl]
      cases depth with
      | zero =>
        cases inner with
        | nil => simp [closesAll_nil]
        | cons d tail =>
          constructor
          · rintro ⟨⟩
          · rintro ⟨heq, hinner⟩
            obtain ⟨rfl, -⟩ := List.cons.inj heq
            exact absurd hinner not_closesAll_close
      | succ depth =>
        have hnil : ¬ ClosesAll (depth + 1) [] := by simp [closesAll_nil]
        exact map_cons_splitClose.trans
          (splitClose_kept (fun tail => ih) (fun _ => hnil) fun tail => closesAll_close)
    rw [if_neg hclose]
    exact map_cons_splitClose.trans (splitClose_kept (fun tail => ih)
      (fun heq => absurd heq hclose) fun tail => closesAll_other hopen hclose)

/-! ### The whole text -/

/-- A star is read as a dereference of the rest. -/
theorem read_of_star (h : trim cs = '*' :: rest) : read cs = (read rest).map deref := by
  rw [read.eq_1]
  split
  · next heq =>
    rw [h] at heq
    cases heq
    rfl
  · next heq =>
    rw [h] at heq
    cases heq
  · next hno _ => exact absurd h (hno _)

/-- A parenthesis is read up to the one that closes it, with projections behind. -/
theorem read_of_group (h : trim cs = '(' :: rest) :
    read cs = match splitClose 0 rest with
      | none => .error (.unbalanced (String.ofList (trim cs)))
      | some (inner, rest) => read inner >>= fun p => readSuffixes (trim cs) p rest := by
  rw [read.eq_1]
  split
  · next heq =>
    rw [h] at heq
    cases heq
  · next heq =>
    rw [h] at heq
    cases heq
    cases splitClose 0 rest <;> rfl
  · next hno => exact absurd h (hno _)

/-- Anything else has to be a name, with projections behind. -/
theorem read_of_name (hstar : ∀ rest, trim cs ≠ '*' :: rest)
    (hopen : ∀ rest, trim cs ≠ '(' :: rest) :
    read cs = match ident? (trim cs) with
      | none => .error (.notAPlace (String.ofList (trim cs)))
      | some (base, rest) => readSuffixes (trim cs) { base := String.ofList base } rest := by
  rw [read.eq_1]
  split
  · next heq => exact absurd heq (hstar _)
  · next heq => exact absurd heq (hopen _)
  · cases ident? (trim cs) <;> rfl

/-- Only the text without the spaces around it is read. -/
theorem read_congr {a b : List Char} (h : trim a = trim b) : read a = read b := by
  by_cases hstar : ∃ rest, trim b = '*' :: rest
  · obtain ⟨rest, hb⟩ := hstar
    rw [read_of_star hb, read_of_star (h.trans hb)]
  by_cases hopen : ∃ rest, trim b = '(' :: rest
  · obtain ⟨rest, hb⟩ := hopen
    rw [read_of_group hb, read_of_group (h.trans hb), h]
  push Not at hstar hopen
  rw [read_of_name hstar hopen, read_of_name (h ▸ hstar) (h ▸ hopen), h]

/-- Spaces at the end do not matter for reading. -/
theorem read_append_spaces (h : ∀ c ∈ spaces, isSpace c = true) : read (cs ++ spaces) = read cs :=
  read_congr (trim_append_spaces h)

/-- Spaces at the start do not matter for reading. -/
theorem read_cons_space (h : isSpace c = true) : read (c :: cs) = read cs :=
  read_congr (trim_cons_space h)

/-- The place behind a star is read on its own. -/
theorem read_star (rest : List Char) : read ('*' :: rest) = (read rest).map deref := by
  rw [read_of_star (trim_cons (by decide)), read_congr (trim_trimEnd rest)]

/-- A text behind a parenthesis is accepted if its partner leaves a place in front of it and fields
and indices behind. -/
theorem read_group_eq_ok : read ('(' :: rest) = .ok p ↔
    ∃ inner after q steps, rest = inner ++ ')' :: after ∧ Balanced inner ∧ read inner = .ok q ∧
      Ends after steps ∧ p = q.extend steps := by
  obtain ⟨spaces, hspaces, heq⟩ := exists_trimEnd rest
  rw [read_of_group (trim_cons (by decide))]
  constructor
  · intro h
    cases hsplit : splitClose 0 (trimEnd rest) with
    | none => simp [hsplit] at h
    | some found =>
      obtain ⟨inner, after⟩ := found
      rw [hsplit] at h
      obtain ⟨hrest, hinner⟩ := splitClose_eq_some.1 hsplit
      cases hread : read inner with
      | error error => simp [hread, bind, Except.bind] at h
      | ok q =>
        simp only [hread, bind, Except.bind] at h
        obtain ⟨steps, hafter, rfl⟩ := readSuffixes_eq_ok.1 h
        refine ⟨inner, after ++ spaces, q, steps, ?_, hinner, hread,
          (ends_append_spaces hspaces).2 hafter, rfl⟩
        rw [heq, hrest, List.append_assoc, List.cons_append]
  · rintro ⟨inner, after, q, steps, hrest, hinner, hread, hafter, rfl⟩
    obtain ⟨spaces, hspaces, heq⟩ := exists_trimEnd after
    have hsplit : splitClose 0 (trimEnd rest) = some (inner, trimEnd after) :=
      splitClose_eq_some.2 ⟨by rw [hrest, trimEnd_append_cons (by decide)], hinner⟩
    simp only [hsplit, hread, bind, Except.bind]
    rw [heq, ends_append_spaces hspaces] at hafter
    exact readSuffixes_eq_ok.2 ⟨steps, hafter, rfl⟩

/-- A text that begins with a name is read iff projections follow. -/
theorem read_name_eq_ok {base : List Char} (h : ident? cs = some (base, rest)) :
    read cs = .ok p ↔ ∃ steps, Ends rest steps ∧ p = extend ⟨String.ofList base, []⟩ steps := by
  cases cs with
  | nil => simp [ident?] at h
  | cons c cs =>
    have hstart : isIdentStart c = true := by
      by_contra hno
      rw [ident?_eq_none (by simpa using hno)] at h
      cases h
    have hspace := isSpace_of_isIdentPart (isIdentPart_of_isIdentStart hstart)
    obtain ⟨spaces, hspaces, heq⟩ := exists_trimEnd cs
    have htrim : trim (c :: cs) = c :: trimEnd cs := trim_cons hspace
    -- the trimmed text begins with the same name, since spaces end a name
    have hsplit : ident? (c :: cs) =
        (ident? (c :: trimEnd cs)).map fun found => (found.1, found.2 ++ spaces) := by
      rw [← ident?_append_ends (endsIdent_of_spaces hspaces), List.cons_append, ← heq]
    rw [h] at hsplit
    obtain ⟨⟨base', rest'⟩, hident, heq⟩ := Option.map_eq_some_iff.1 hsplit.symm
    simp only [Prod.mk.injEq] at heq
    obtain ⟨rfl, rfl⟩ := heq
    have hne : c ≠ '*' ∧ c ≠ '(' := by
      constructor <;> rintro rfl <;> exact absurd hstart (by decide)
    rw [read_of_name (by simp [htrim, hne.1]) (by simp [htrim, hne.2]), htrim, hident]
    simp only [ends_append_spaces hspaces]
    exact readSuffixes_eq_ok

/-- The empty text is no place. -/
theorem not_read_nil : read [] ≠ .ok p := by
  rw [read_of_name (by simp [trim, trimStart, trimEnd]) (by simp [trim, trimStart, trimEnd])]
  rintro ⟨⟩

/-- A place begins with a star, a parenthesis or a letter. -/
theorem not_read_of_other (hspace : isSpace c = false) (hstar : c ≠ '*') (hopen : c ≠ '(')
    (hstart : isIdentStart c = false) : read (c :: cs) ≠ .ok p := by
  have htrim : trim (c :: cs) = c :: trimEnd cs := trim_cons hspace
  rw [read_of_name (by simp [htrim, hstar]) (by simp [htrim, hopen]), htrim,
    ident?_eq_none hstart]
  rintro ⟨⟩

end Place

/-! ### The names of a place that is read -/

/-- A step with the name of a field has an identifier there. -/
def Projection.Named : Projection → Prop
  | .field name => isIdent name.toList = true
  | .deref | .index => True

/-- The names in a place are identifiers. -/
structure Place.Named (place : Place) : Prop where
  base : isIdent place.base.toList = true
  steps : ∀ step ∈ place.projections, step.Named

namespace Place

variable {c : Char} {cs rest : List Char} {place p : Place} {steps : List Projection}

/-- A place made of identifiers stays so with projections that are. -/
theorem Named.extend (h : place.Named) (hsteps : ∀ step ∈ steps, step.Named) :
    (place.extend steps).Named := by
  refine ⟨h.base, fun step hstep => ?_⟩
  exact (List.mem_append.1 hstep).elim (h.steps step) (hsteps step)

/-- A place made of identifiers stays so when it is dereferenced. -/
theorem Named.deref (h : place.Named) : place.deref.Named := by
  have hstep : ∀ step ∈ [Projection.deref], step.Named := by simp [Projection.Named]
  exact h.extend hstep

/-- A projection that is read is made of an identifier. -/
theorem named_of_suffix? {step : Projection} (h : suffix? cs = some (step, rest)) : step.Named := by
  unfold suffix? at h
  split at h
  · obtain ⟨⟨name, rest'⟩, hident, heq⟩ := Option.map_eq_some_iff.1 h
    simp only [Prod.mk.injEq] at heq
    rw [← heq.1]
    simpa [Projection.Named] using isIdent_of_ident? hident
  · split at h
    · cases h
      trivial
    · cases h
  · cases h

/-- So are all projections that are read. -/
theorem named_of_suffixes (cs : List Char) : ∀ step ∈ (suffixes cs).1, step.Named := by
  induction cs using suffixes.induct with
  | case1 cs hnone => simp [suffixes_of_none hnone]
  | case2 cs step rest hsome _ _ _ ih =>
    rw [suffixes_of_some hsome]
    exact List.forall_mem_cons.2 ⟨named_of_suffix? hsome, ih⟩

/-- The projections of a text are made of identifiers. -/
theorem Ends.named (h : Ends cs steps) : ∀ step ∈ steps, step.Named :=
  h.1 ▸ named_of_suffixes cs

/-- Only places with identifiers for names are read. -/
theorem named_of_read (cs : List Char) (h : read cs = .ok p) : p.Named := by
  -- each way of reading goes on with a shorter text
  induction hlen : cs.length using Nat.strongRecOn generalizing cs p with
  | _ n ih =>
    cases cs with
    | nil => exact absurd h not_read_nil
    | cons c cs =>
      rw [List.length_cons] at hlen
      by_cases hspace : isSpace c = true
      · rw [read_cons_space hspace] at h
        exact ih _ (by omega) cs h rfl
      by_cases hstar : c = '*'
      · subst hstar
        rw [read_star] at h
        cases hread : read cs with
        | error error => simp [hread, Except.map] at h
        | ok q =>
          rw [hread] at h
          cases h
          exact (ih _ (by omega) cs hread rfl).deref
      by_cases hopen : c = '('
      · subst hopen
        obtain ⟨inner, after, q, steps, rfl, -, hread, hafter, rfl⟩ := read_group_eq_ok.1 h
        rw [List.length_append, List.length_cons] at hlen
        exact (ih _ (by omega) inner hread rfl).extend hafter.named
      cases hident : ident? (c :: cs) with
      | none =>
        have hstart : isIdentStart c = false := by
          by_contra hyes
          simp [ident?, hyes] at hident
        exact absurd h (not_read_of_other (by simpa using hspace) hstar hopen hstart)
      | some found =>
        obtain ⟨steps, hafter, rfl⟩ := (read_name_eq_ok hident).1 h
        have hbase : Named ⟨String.ofList found.1, []⟩ :=
          ⟨by simpa using isIdent_of_ident? hident, by simp⟩
        exact hbase.extend hafter.named

end Place

end RegionInference
