import Mathlib
import RegionInference.Grammar.Meaning
import RegionInference.Proofs.Parsing

/-!
# The places of the grammar

The rule for places matches the spellings of places: what it reads is one
(`Grammar.readsSpellings_placeWithin`), and a spelling is read whole unless what follows goes on
with it (`Grammar.place_of_spelling`).

The places of a body are then read once more, each from the text that was matched. That reader
accepts some of the spellings only. `Grammar.matched_place_reads_back_iff` says which, and that what
is read is always the place that the text stands for.
-/

namespace RegionInference

open Text Grammar Place

namespace Place.Spelling

/-- The tree of a spelling that starts at a position. -/
def tree : Spelling → Nat → PlaceTree
  | .star gap inner, pos =>
    .star ⟨pos, String.ofList (star gap inner).chars⟩
      (inner.tree (pos + 1 + (gap.flatMap Filler.chars).length))
  | .group before inner after suffixes, pos =>
    .group ⟨pos, String.ofList (group before inner after suffixes).chars⟩
      (inner.tree (pos + 1 + (before.flatMap Filler.chars).length)) (suffixes.map Suffix.step)
  | .name base suffixes, pos =>
    .name ⟨pos, String.ofList (name base suffixes).chars⟩ (String.ofList base.chars)
      (suffixes.map Suffix.step)

/-- The tree of a spelling is a tree of its place. -/
theorem place_tree (s : Spelling) (pos : Nat) : (s.tree pos).place = s.place := by
  induction s generalizing pos with
  | star gap inner ih => rw [tree, PlaceTree.place, ih, place]
  | group before inner after suffixes ih =>
    rw [tree, PlaceTree.place, ih, place]
    rfl
  | name base suffixes => rfl

end Place.Spelling

namespace Grammar

open Grammar.Parser

variable {cs rest : List Char} {cursor next : Cursor} {pos : Nat}

/-! ### Fields and indices -/

/-- A field or an index is read if the text does not go on with its name. -/
theorem outcome_projection_of_passes {suffix : Suffix} (h : cursor.Passes suffix.chars next)
    (hends : EndsIdent next.rest) : projection.outcome cursor = some (suffix.step, next) := by
  cases suffix with
  | field name =>
    have hsplit : cursor.Passes (".".toList ++ name.chars) next := h
    obtain ⟨first, hdot, hname⟩ := hsplit.split
    simp [projection, Suffix.step, outcome_literal_eq_some.2 hdot,
      outcome_ident_of_passes hname hends]
  | index text valid =>
    have hsplit : cursor.Passes ("[".toList ++ (text ++ "]".toList)) next := h
    obtain ⟨first, hopen, hrest⟩ := hsplit.split
    obtain ⟨second, htext, hclose⟩ := hrest.split
    have hnodot : (literal ".").outcome cursor = none :=
      outcome_literal_of_head '.' rfl (by simp [h.rest, Suffix.chars])
    have hall : ∀ c ∈ text, (c != ']') = true := by
      intro c hc
      rw [bne_iff_ne]
      rintro rfl
      exact valid hc
    have htake : first.rest.takeWhile (· != ']') = text := by
      rw [htext.rest, hclose.rest, List.takeWhile_append_of_pos hall]
      simp
    simp [projection, Suffix.step, hnodot, outcome_literal_eq_some.2 hopen, outcome_token, htake,
      htext.skip, outcome_literal_eq_some.2 hclose]

/-- A projection begins with a dot or a bracket. -/
theorem outcome_projection_of_head (hdot : cursor.rest.head? ≠ some '.')
    (hopen : cursor.rest.head? ≠ some '[') : projection.outcome cursor = none := by
  have hfield : (literal ".").outcome cursor = none := outcome_literal_of_head '.' rfl hdot
  have hindex : (literal "[").outcome cursor = none := outcome_literal_of_head '[' rfl hopen
  simp [projection, hfield, hindex]

/-- What is read as a projection is a field or an index. -/
theorem suffix_of_projection {step : Projection}
    (h : projection.outcome cursor = some (step, next)) :
    ∃ suffix : Suffix, step = suffix.step ∧ cursor.Passes suffix.chars next := by
  simp only [projection, outcome_rule, outcome_oneOf_cons, outcome_oneOf_single,
    Option.or_eq_some_iff, outcome_bind, Option.bind_eq_some_iff, outcome_pure,
    Option.some.injEq, Prod.mk.injEq, Prod.exists] at h
  rcases h with ⟨_, first, hdot, text, last, hname, rfl, rfl⟩ |
    ⟨-, _, first, hopen, text, second, htext, _, last, hclose, rfl, rfl⟩
  · obtain ⟨name, rfl, hpasses⟩ := name_of_ident hname
    exact ⟨.field name, rfl, (outcome_literal_eq_some.1 hdot).trans hpasses⟩
  · -- the index is all that stands in front of the closing bracket
    have hpasses : first.Passes (first.rest.takeWhile (· != ']')) second := by
      simp only [outcome_token, Option.map_some, Option.some.injEq, Prod.mk.injEq] at htext
      obtain ⟨-, rfl⟩ := htext
      have hlen : (first.rest.takeWhile (· != ']')).length ≤ first.rest.length :=
        (List.takeWhile_prefix _).length_le
      have htake := Cursor.passes_skip first _ hlen
      rwa [(List.prefix_iff_eq_take.1 (List.takeWhile_prefix _)).symm] at htake
    have hclosed : ']' ∉ first.rest.takeWhile (· != ']') := by
      intro hmem
      simpa using List.mem_takeWhile_imp hmem
    refine ⟨.index _ hclosed, rfl, ?_⟩
    exact ((outcome_literal_eq_some.1 hopen).trans hpasses).trans (outcome_literal_eq_some.1 hclose)

/-- What may follow a place: the text does not go on with a name, a field or an index. -/
def Stops (cs : List Char) : Prop :=
  ∀ c ∈ cs.head?, isIdentPart c = false ∧ c ≠ '.' ∧ c ≠ '['

/-- Whether a place stops is decided by the first character behind it. -/
theorem stops_cons {c : Char} :
    Stops (c :: cs) ↔ isIdentPart c = false ∧ c ≠ '.' ∧ c ≠ '[' := by
  simp [Stops]

/-- Where a place stops, an identifier ends. -/
theorem Stops.endsIdent (h : Stops cs) : EndsIdent cs :=
  fun c hc => (h c hc).1

/-- Fields and indices are read up to where the place stops. -/
theorem outcome_projections_of_passes {suffixes : List Suffix}
    (h : cursor.Passes (suffixes.flatMap Suffix.chars) next) (hstops : Stops next.rest) :
    (many projection).outcome cursor = some (suffixes.map Suffix.step, next) := by
  induction suffixes generalizing cursor with
  | nil =>
    have hnone : projection.outcome next = none := by
      apply outcome_projection_of_head
      · exact fun hc => (hstops _ hc).2.1 rfl
      · exact fun hc => (hstops _ hc).2.2 rfl
    obtain rfl := h.skip
    exact outcome_many_of_none hnone
  | cons suffix suffixes ih =>
    obtain ⟨first, hsuffix, hrest⟩ := h.split
    have hends : EndsIdent first.rest := by
      rw [hrest.rest]
      exact endsIdent_suffixes suffixes hstops.endsIdent
    have hlt : first.rest.length < cursor.rest.length := by
      have hpos := List.length_pos_iff.2 suffix.chars_ne_nil
      rw [hsuffix.rest, List.length_append]
      omega
    rw [outcome_many_of_some (outcome_projection_of_passes hsuffix hends) hlt, ih hrest]
    rfl

/-- What is read as projections are fields and indices. -/
theorem suffixes_of_projections {steps : List Projection}
    (h : (many projection).outcome cursor = some (steps, next)) :
    ∃ suffixes : List Suffix, steps = suffixes.map Suffix.step ∧
      cursor.Passes (suffixes.flatMap Suffix.chars) next := by
  induction hlen : cursor.rest.length using Nat.strongRecOn generalizing cursor steps with
  | _ n ih =>
    have hlt : ∀ step last, projection.outcome cursor = some (step, last) →
        last.rest.length < cursor.rest.length := by
      intro step last hfirst
      obtain ⟨suffix, -, hpasses⟩ := suffix_of_projection hfirst
      have hpos := List.length_pos_iff.2 suffix.chars_ne_nil
      rw [hpasses.rest, List.length_append]
      omega
    rcases many_cases h hlt with ⟨rfl, rfl⟩ | ⟨step, last, others, hfirst, hothers, rfl⟩
    · exact ⟨[], rfl, Cursor.Passes.refl next⟩
    · obtain ⟨suffix, rfl, hpasses⟩ := suffix_of_projection hfirst
      obtain ⟨suffixes, rfl, hrest⟩ := ih _ (hlen ▸ hlt _ _ hfirst) hothers rfl
      exact ⟨suffix :: suffixes, rfl, hpasses.trans hrest⟩

/-! ### The rule for places -/

/-- A star in front of a place. -/
def starred (inner : Parser PlaceTree) : Parser (Span → PlaceTree) := do
  literal "*"
  blanks
  let inner ← inner
  return fun span => .star span inner

/-- A place in parentheses. -/
def grouped (inner : Parser PlaceTree) : Parser (Span → List Projection → PlaceTree) := do
  literal "("
  blanks
  let inner ← inner
  blanks
  literal ")"
  return fun span steps => PlaceTree.group span inner steps

/-- A local. -/
def named : Parser (Span → List Projection → PlaceTree) := do
  let base ← ident
  return fun span steps => PlaceTree.name span base steps

/-- Parentheses or a local, and what is projected from it. -/
def projected (inner : Parser PlaceTree) : Parser (Span → PlaceTree) :=
  rule "base_place" do
    let head ← oneOf [grouped inner, named]
    let steps ← many projection
    return fun span => head span steps

/-- The alternatives for a place, with a place inside at one depth less. -/
theorem placeWithin_succ (depth : Nat) : placeWithin (depth + 1) =
    rule "place" (spanned (oneOf [starred (placeWithin depth), projected (placeWithin depth)])) :=
  rfl

/-- A parser with a span reads what it reads without, and notes where. -/
theorem outcome_spanned (p : Parser (Span → α)) : (spanned p).outcome cursor =
    (p.outcome cursor).map fun found =>
      (found.1 ⟨cursor.pos, String.ofList (cursor.rest.take (found.2.pos - cursor.pos))⟩,
        found.2) := by
  simp only [spanned, outcome_bind, outcome_position, Option.bind_some, outcome_withText,
    outcome_pure]
  cases p.outcome cursor <;> rfl

/-- The span has the characters that were passed. -/
theorem outcome_spanned_of_passes {p : Parser (Span → α)} {build : Span → α}
    (h : p.outcome cursor = some (build, next)) (hpasses : cursor.Passes cs next) :
    (spanned p).outcome cursor = some (build ⟨cursor.pos, String.ofList cs⟩, next) := by
  simp [outcome_spanned, h, hpasses.take]

/-- No blank and no comment is in front of a name. -/
theorem skipBlanks_of_isIdentPart {c : Char} (h : isIdentPart c = true) :
    skipBlanks false (c :: cs) = c :: cs := by
  apply skipBlanks_of_start
  · rintro rfl
    exact absurd h (by decide)
  · rintro rfl
    exact absurd h (by decide)
  · by_contra hblank
    have hspace := isSpace_of_isBlank (by simpa using hblank : isBlank c = true)
    rw [isSpace_of_isIdentPart h] at hspace
    cases hspace

/-- No blank and no comment is in front of a spelling. -/
theorem skipBlanks_spelling (s : Spelling) (rest : List Char) :
    skipBlanks false (s.chars ++ rest) = s.chars ++ rest := by
  obtain ⟨c, cs, hchars, hc⟩ := s.exists_cons
  rw [hchars, List.cons_append]
  rcases hc with rfl | rfl | hstart
  · exact skipBlanks_of_start (by decide) (by decide) (by decide)
  · exact skipBlanks_of_start (by decide) (by decide) (by decide)
  · exact skipBlanks_of_isIdentPart (isIdentPart_of_isIdentStart hstart)

/-- A blank stops a place. -/
theorem stops_of_isBlank {c : Char} (h : isBlank c = true) : Stops (c :: cs) := by
  refine stops_cons.2 ⟨?_, ?_, ?_⟩
  · by_contra hpart
    have hspace := isSpace_of_isBlank h
    rw [isSpace_of_isIdentPart (by simpa using hpart)] at hspace
    cases hspace
  · rintro rfl
    exact absurd h (by decide)
  · rintro rfl
    exact absurd h (by decide)

/-- A gap stops a place, or lets what follows stop it. -/
theorem stops_gap (gap : List Filler) (h : Stops rest) :
    Stops (gap.flatMap Filler.chars ++ rest) := by
  cases gap with
  | nil => exact h
  | cons filler gap =>
    cases filler with
    | blank c valid => exact stops_of_isBlank valid
    | comment slashes text valid =>
      cases slashes with
      | false => exact stops_cons.2 (by decide)
      | true => exact stops_cons.2 (by decide)

/-- A star, a gap and a place are read as the dereferenced place. -/
theorem outcome_starred_of_passes {gap : List Filler} {inner : Spelling} {p : Parser PlaceTree}
    (h : cursor.Passes (Spelling.star gap inner).chars next)
    (hinner : ∀ start, start.Passes inner.chars next →
      p.outcome start = some (inner.tree start.pos, next)) :
    (starred p).outcome cursor =
      some (fun span => .star span
        (inner.tree (cursor.pos + 1 + (gap.flatMap Filler.chars).length)), next) := by
  have hsplit : cursor.Passes ("*".toList ++ (gap.flatMap Filler.chars ++ inner.chars)) next := h
  obtain ⟨first, hstar, hrest⟩ := hsplit.split
  obtain ⟨second, hgap, hplace⟩ := hrest.split
  have hblanks : blanks.outcome first = some ((), second) :=
    blanks_of_gap hgap (by rw [hplace.rest, skipBlanks_spelling])
  have hpos : second.pos = cursor.pos + 1 + (gap.flatMap Filler.chars).length := by
    rw [hgap.pos, hstar.pos]
    rfl
  simp [starred, outcome_literal_eq_some.2 hstar, hblanks, hinner second hplace, hpos]

/-- The parentheses of a group and what is projected from them. -/
theorem passes_group {before after : List Filler} {inner : Spelling} {suffixes : List Suffix}
    (h : cursor.Passes (Spelling.group before inner after suffixes).chars next) :
    ∃ closed, cursor.Passes ("(".toList ++ (before.flatMap Filler.chars ++
        (inner.chars ++ (after.flatMap Filler.chars ++ ")".toList)))) closed ∧
      closed.Passes (suffixes.flatMap Suffix.chars) next := by
  apply Cursor.Passes.split
  simpa [Spelling.chars] using h

/-- The cursors at the parts of a place in parentheses. -/
theorem parts_of_parentheses {before after : List Filler} {inner : Spelling}
    (h : cursor.Passes ("(".toList ++ (before.flatMap Filler.chars ++
      (inner.chars ++ (after.flatMap Filler.chars ++ ")".toList)))) next) :
    ∃ first second third fourth, cursor.Passes "(".toList first ∧
      (first.Passes (before.flatMap Filler.chars) second ∧
        blanks.outcome first = some ((), second)) ∧
      second.Passes inner.chars third ∧
      (third.rest = after.flatMap Filler.chars ++ ')' :: next.rest ∧
        blanks.outcome third = some ((), fourth)) ∧
      fourth.Passes ")".toList next := by
  obtain ⟨first, hopen, hrest⟩ := h.split
  obtain ⟨second, hbefore, hrest⟩ := hrest.split
  obtain ⟨third, hinner, hrest⟩ := hrest.split
  obtain ⟨fourth, hafter, hclose⟩ := hrest.split
  refine ⟨first, second, third, fourth, hopen, ⟨hbefore, ?_⟩, hinner, ⟨?_, ?_⟩, hclose⟩
  · exact blanks_of_gap hbefore (by rw [hinner.rest, skipBlanks_spelling])
  · rw [hafter.rest, hclose.rest]
    rfl
  · refine blanks_of_gap hafter ?_
    rw [hclose.rest]
    exact skipBlanks_of_start (by decide) (by decide) (by decide)

/-- A place in parentheses is read as that place, with gaps on both sides. -/
theorem outcome_grouped_of_passes {before after : List Filler} {inner : Spelling}
    {p : Parser PlaceTree}
    (h : cursor.Passes ("(".toList ++ (before.flatMap Filler.chars ++
      (inner.chars ++ (after.flatMap Filler.chars ++ ")".toList)))) next)
    (hinner : ∀ start last, start.Passes inner.chars last → Stops last.rest →
      p.outcome start = some (inner.tree start.pos, last)) :
    (grouped p).outcome cursor =
      some (fun span steps =>
        .group span (inner.tree (cursor.pos + 1 + (before.flatMap Filler.chars).length)) steps,
        next) := by
  obtain ⟨first, second, third, fourth, hopen, ⟨hbefore, hblanks⟩, hplace, ⟨hrest, hblanks'⟩,
    hclose⟩ := parts_of_parentheses h
  have hstops : Stops third.rest := by
    rw [hrest]
    exact stops_gap after (stops_cons.2 (by decide))
  have hpos : second.pos = cursor.pos + 1 + (before.flatMap Filler.chars).length := by
    rw [hbefore.pos, hopen.pos]
    rfl
  simp [grouped, outcome_literal_eq_some.2 hopen, hblanks, hinner second third hplace hstops,
    hblanks', outcome_literal_eq_some.2 hclose, hpos]

/-- A name is read as a place. -/
theorem outcome_named_of_passes {base : Name} (h : cursor.Passes base.chars next)
    (hends : EndsIdent next.rest) :
    named.outcome cursor =
      some (fun span steps => .name span (String.ofList base.chars) steps, next) := by
  simp [named, outcome_ident_of_passes h hends]

/-- A spelling is read whole, unless what follows goes on with it. -/
theorem place_of_spelling {s : Spelling} {n : Nat} (h : cursor.Passes s.chars next)
    (hstops : Stops next.rest) (hn : s.chars.length < n) :
    (placeWithin n).outcome cursor = some (s.tree cursor.pos, next) := by
  induction s generalizing n cursor next with
  | star gap inner ih =>
    obtain ⟨n, rfl⟩ := Nat.exists_eq_add_one_of_ne_zero (Nat.ne_zero_of_lt hn)
    have hlen : inner.chars.length < n := by
      simp only [Spelling.chars, List.length_cons, List.length_append] at hn
      omega
    have hstarred := outcome_starred_of_passes h fun start hpasses => ih hpasses hstops hlen
    have hparts : (oneOf [starred (placeWithin n), projected (placeWithin n)]).outcome cursor =
        some (fun span => .star span
          (inner.tree (cursor.pos + 1 + (gap.flatMap Filler.chars).length)), next) := by
      rw [outcome_oneOf_cons, hstarred]
      rfl
    rw [placeWithin_succ, outcome_rule, outcome_spanned_of_passes hparts h]
    rfl
  | group before inner after suffixes ih =>
    obtain ⟨n, rfl⟩ := Nat.exists_eq_add_one_of_ne_zero (Nat.ne_zero_of_lt hn)
    have hlen : inner.chars.length < n := by
      simp only [Spelling.chars, List.length_cons, List.length_append] at hn
      omega
    obtain ⟨closed, hgroup, hsuffixes⟩ := passes_group h
    have hgrouped := outcome_grouped_of_passes hgroup fun start last hpasses hlast =>
      ih hpasses hlast hlen
    have hnostar : (literal "*").outcome cursor = none :=
      outcome_literal_of_head '*' rfl (by simp [h.rest, Spelling.chars])
    have hparts : (oneOf [starred (placeWithin n), projected (placeWithin n)]).outcome cursor =
        some (fun span => .group span
          (inner.tree (cursor.pos + 1 + (before.flatMap Filler.chars).length))
          (suffixes.map Suffix.step), next) := by
      simp [starred, hnostar, projected, hgrouped, outcome_projections_of_passes hsuffixes hstops]
    rw [placeWithin_succ, outcome_rule, outcome_spanned_of_passes hparts h]
    rfl
  | name base suffixes =>
    obtain ⟨n, rfl⟩ := Nat.exists_eq_add_one_of_ne_zero (Nat.ne_zero_of_lt hn)
    obtain ⟨middle, hbase, hsuffixes⟩ := Cursor.Passes.split h
    have hends : EndsIdent middle.rest := by
      rw [hsuffixes.rest]
      exact endsIdent_suffixes suffixes hstops.endsIdent
    have hnostar : (literal "*").outcome cursor = none :=
      outcome_literal_of_head '*' rfl (by rw [hbase.rest]; exact base.head?_ne (by decide) _)
    have hnoopen : (literal "(").outcome cursor = none :=
      outcome_literal_of_head '(' rfl (by rw [hbase.rest]; exact base.head?_ne (by decide) _)
    have hparts : (oneOf [starred (placeWithin n), projected (placeWithin n)]).outcome cursor =
        some (fun span => .name span (String.ofList base.chars) (suffixes.map Suffix.step),
          next) := by
      simp [starred, grouped, hnostar, hnoopen, projected, outcome_named_of_passes hbase hends,
        outcome_projections_of_passes hsuffixes hstops]
    rw [placeWithin_succ, outcome_rule, outcome_spanned_of_passes hparts h]
    rfl

/-- What the parser reads are spellings. -/
def ReadsSpellings (p : Parser PlaceTree) : Prop :=
  ∀ {cursor next tree}, p.outcome cursor = some (tree, next) →
    ∃ s : Spelling, cursor.Passes s.chars next ∧ tree = s.tree cursor.pos

/-- What is read behind a star is the spelling of a dereferenced place. -/
theorem ReadsSpellings.starred {p : Parser PlaceTree} (hp : ReadsSpellings p)
    {build : Span → PlaceTree} (h : (starred p).outcome cursor = some (build, next)) :
    ∃ s : Spelling, cursor.Passes s.chars next ∧
      build ⟨cursor.pos, String.ofList s.chars⟩ = s.tree cursor.pos := by
  simp only [Grammar.starred, outcome_bind, Option.bind_eq_some_iff, outcome_pure,
    Option.some.injEq, Prod.mk.injEq, Prod.exists] at h
  obtain ⟨_, first, hstar, _, second, hblanks, tree, last, hinner, rfl, rfl⟩ := h
  obtain ⟨inner, hpasses, rfl⟩ := hp hinner
  have hne : second.rest ≠ [] := by
    obtain ⟨c, cs, hchars, -⟩ := inner.exists_cons
    simp [hpasses.rest, hchars]
  obtain ⟨gap, hgap⟩ := gap_of_blanks hblanks hne
  have hstar := outcome_literal_eq_some.1 hstar
  refine ⟨.star gap inner, hstar.trans (hgap.trans hpasses), ?_⟩
  rw [hgap.pos, hstar.pos]
  rfl

/-- What is read in parentheses is a spelling between gaps. -/
theorem ReadsSpellings.grouped {p : Parser PlaceTree} (hp : ReadsSpellings p)
    {build : Span → List Projection → PlaceTree}
    (h : (grouped p).outcome cursor = some (build, next)) :
    ∃ (before : List Filler) (inner : Spelling) (after : List Filler),
      cursor.Passes ('(' :: (before.flatMap Filler.chars ++
        (inner.chars ++ after.flatMap Filler.chars)) ++ [')']) next ∧
      build = fun span steps =>
        .group span (inner.tree (cursor.pos + 1 + (before.flatMap Filler.chars).length)) steps := by
  simp only [Grammar.grouped, outcome_bind, Option.bind_eq_some_iff, outcome_pure,
    Option.some.injEq, Prod.mk.injEq, Prod.exists] at h
  obtain ⟨_, first, hopen, _, second, hblanks, tree, third, hinner, _, fourth, hblanks', _, fifth,
    hclose, rfl, rfl⟩ := h
  obtain ⟨inner, hpasses, rfl⟩ := hp hinner
  have hopen := outcome_literal_eq_some.1 hopen
  have hclose := outcome_literal_eq_some.1 hclose
  have hne : second.rest ≠ [] := by
    obtain ⟨c, cs, hchars, -⟩ := inner.exists_cons
    simp [hpasses.rest, hchars]
  have hne' : fourth.rest ≠ [] := by
    rw [hclose.rest]
    simp
  obtain ⟨before, hbefore⟩ := gap_of_blanks hblanks hne
  obtain ⟨after, hafter⟩ := gap_of_blanks hblanks' hne'
  refine ⟨before, inner, after, ?_, ?_⟩
  · exact (hopen.trans (hbefore.trans (hpasses.trans hafter))).trans hclose
  · rw [hbefore.pos, hopen.pos]
    rfl

/-- What is read as a place with projections is a spelling. -/
theorem ReadsSpellings.projected {p : Parser PlaceTree} (hp : ReadsSpellings p)
    {build : Span → PlaceTree} (h : (projected p).outcome cursor = some (build, next)) :
    ∃ s : Spelling, cursor.Passes s.chars next ∧
      build ⟨cursor.pos, String.ofList s.chars⟩ = s.tree cursor.pos := by
  simp only [Grammar.projected, named, outcome_rule, outcome_oneOf_cons, outcome_oneOf_single,
    outcome_bind, Option.bind_eq_some_iff, Option.or_eq_some_iff, outcome_pure, Option.some.injEq,
    Prod.mk.injEq, Prod.exists] at h
  obtain ⟨head, middle, hhead, steps, last, hsteps, rfl, rfl⟩ := h
  obtain ⟨suffixes, rfl, hsuffixes⟩ := suffixes_of_projections hsteps
  rcases hhead with hgroup | ⟨-, text, last, hname, rfl, rfl⟩
  · obtain ⟨before, inner, after, hpasses, rfl⟩ := hp.grouped hgroup
    refine ⟨.group before inner after suffixes, ?_, rfl⟩
    have htrans := hpasses.trans hsuffixes
    rwa [List.append_assoc] at htrans
  · obtain ⟨base, rfl, hpasses⟩ := name_of_ident hname
    exact ⟨.name base suffixes, hpasses.trans hsuffixes, rfl⟩

/-- What is read is a spelling. -/
theorem readsSpellings_placeWithin (n : Nat) : ReadsSpellings (placeWithin n) := by
  induction n with
  | zero =>
    intro cursor next tree h
    cases h
  | succ n ih =>
    intro cursor next tree h
    rw [placeWithin_succ, outcome_rule, outcome_spanned] at h
    obtain ⟨⟨build, last⟩, hparts, heq⟩ := Option.map_eq_some_iff.1 h
    cases heq
    have hbuild : ∃ s : Spelling, cursor.Passes s.chars last ∧
        build ⟨cursor.pos, String.ofList s.chars⟩ = s.tree cursor.pos := by
      rw [outcome_oneOf_cons, outcome_oneOf_single, Option.or_eq_some_iff] at hparts
      rcases hparts with hstarred | ⟨-, hprojected⟩
      · exact ih.starred hstarred
      · exact ih.projected hprojected
    obtain ⟨s, hpasses, htree⟩ := hbuild
    refine ⟨s, hpasses, ?_⟩
    rw [← htree, hpasses.take]

/-- The depth that a place is read with is greater than its length, so it never runs out. -/
theorem outcome_place : place.outcome cursor =
    (placeWithin (cursor.rest.length + 1)).outcome cursor := by
  rw [outcome, outcome, place]

/-- Every spelling of a place is read, up to where the place stops. -/
theorem outcome_place_of_passes {s : Spelling} (h : cursor.Passes s.chars next)
    (hstops : Stops next.rest) : place.outcome cursor = some (s.tree cursor.pos, next) := by
  rw [outcome_place]
  refine place_of_spelling h hstops ?_
  rw [h.rest, List.length_append]
  omega

/-- A place begins with a star, a parenthesis or a letter. -/
theorem outcome_place_of_head {c : Char} (hrest : cursor.rest = c :: cs) (hstar : c ≠ '*')
    (hopen : c ≠ '(') (hstart : isIdentStart c = false) : place.outcome cursor = none := by
  rw [outcome_place, Option.eq_none_iff_forall_not_mem]
  rintro ⟨tree, next⟩ hread
  obtain ⟨s, hpasses, -⟩ := readsSpellings_placeWithin _ hread
  obtain ⟨d, ds, hchars, hd⟩ := s.exists_cons
  have hcons := hpasses.rest
  rw [hrest, hchars, List.cons_append] at hcons
  obtain ⟨rfl, -⟩ := List.cons.inj hcons
  rcases hd with hd | hd | hd
  · exact hstar hd
  · exact hopen hd
  · rw [hstart] at hd
    cases hd

/-- A text is spelled in one way only, as far as trees tell. -/
theorem tree_eq_of_chars_eq {s s' : Spelling} (h : s.chars = s'.chars) (pos : Nat) :
    s.tree pos = s'.tree pos := by
  have hpasses : (⟨pos, s.chars⟩ : Cursor).Passes s.chars ⟨pos + s.chars.length, []⟩ :=
    ⟨(List.append_nil _).symm, rfl⟩
  have hstops : Stops [] := by simp [Stops]
  have hpasses' : (⟨pos, s.chars⟩ : Cursor).Passes s'.chars ⟨pos + s.chars.length, []⟩ :=
    h ▸ hpasses
  have htree := outcome_place_of_passes hpasses hstops
  rw [outcome_place_of_passes hpasses' hstops] at htree
  simpa using htree.symm

/-! ### Reading the places again -/

/-- The text of a spelling is read as a place iff it is readable, and then as its own place. -/
theorem readPlace_eq_ok (context : Context) {s : Spelling} {p : Place} :
    context.readPlace ⟨pos, String.ofList s.chars⟩ = .ok p ↔ s.Readable ∧ p = s.place := by
  rw [← s.read_eq_ok, Context.readPlace, ofText, String.toList_ofList]
  cases read s.chars <;> simp [Except.mapError]

/-- A check in front of a result lets it through where the check succeeds. -/
theorem read_after_eq_ok {x y : Except Fault Place} {p : Place} :
    (x >>= fun _ => y) = .ok p ↔ (∃ q, x = .ok q) ∧ y = .ok p := by
  cases x with
  | error error => simp [Bind.bind, Except.bind]
  | ok q => simp [Bind.bind, Except.bind]

/-- The places inside a place are read before it, and are readable if it is. -/
theorem place_tree_eq_ok (context : Context) {s : Spelling} {p : Place} :
    context.place (s.tree pos) = .ok p ↔ s.Readable ∧ p = s.place := by
  induction s generalizing pos p with
  | star gap inner ih =>
    rw [Spelling.tree, Context.place, read_after_eq_ok, readPlace_eq_ok]
    constructor
    · exact And.right
    · intro h
      exact ⟨⟨_, ih.2 ⟨h.1.2, rfl⟩⟩, h⟩
  | group before inner after suffixes ih =>
    rw [Spelling.tree, Context.place, read_after_eq_ok, readPlace_eq_ok]
    constructor
    · exact And.right
    · intro h
      exact ⟨⟨_, ih.2 ⟨h.1.2.2.2, rfl⟩⟩, h⟩
  | name base suffixes => exact readPlace_eq_ok context

/-- A text that the rule for places matches is spelled in some way, and it depends on that alone
whether it can be read again: this is so just if no comment stands behind a star or inside
parentheses and the parentheses of the index texts inside each pair of parentheses are balanced.
What is read then is what the tree stands for, both from the text and by the meaning of the tree. -/
theorem matched_place_reads_back_iff (context : Context) {text : String} {tree : PlaceTree}
    (h : place.outcome ⟨pos, text.toList ++ rest⟩ = some (tree, ⟨pos + text.length, rest⟩)) :
    (∃ s : Spelling, s.chars = text.toList) ∧
    ∀ s : Spelling, s.chars = text.toList →
      s.place = tree.place ∧
      (Place.ofText text = .ok tree.place ↔ s.Readable) ∧
      (context.place tree = .ok tree.place ↔ s.Readable) ∧
      ∀ p, Place.ofText text = .ok p ∨ context.place tree = .ok p → p = tree.place := by
  rw [outcome_place] at h
  obtain ⟨matched, hpasses, rfl⟩ := readsSpellings_placeWithin _ h
  have hmatched : matched.chars = text.toList := (List.append_cancel_right hpasses.rest).symm
  refine ⟨⟨matched, hmatched⟩, fun s hs => ?_⟩
  have htree : matched.tree pos = s.tree pos := tree_eq_of_chars_eq (hmatched.trans hs.symm) pos
  have hread {p : Place} : Place.ofText text = .ok p ↔ s.Readable ∧ p = s.place := by
    rw [Place.ofText, ← hs, s.read_eq_ok]
  rw [htree, Spelling.place_tree]
  refine ⟨rfl, ?_, ?_, ?_⟩
  · simp [hread]
  · simp [place_tree_eq_ok]
  · rintro p (htext | htree)
    · exact (hread.1 htext).2
    · exact ((place_tree_eq_ok context).1 htree).2

namespace Sample

/-- The name of a field. -/
def nameF : Name := ⟨['f'], by decide⟩

/-- The name of a reference. -/
def nameP : Name := ⟨['p'], by decide⟩

/-- The name of a local. -/
def nameX : Name := ⟨['x'], by decide⟩

/-- A star in parentheses with blanks in them, and a field and an index behind. -/
def spacedGroup : Spelling :=
  .group [.blank ' ' (by decide)] (.star [.blank ' ' (by decide)] (.name nameP []))
    [.blank '\t' (by decide)] [.field nameF, .index ['(', 'i'] (by decide)]

/-- A comment in front of a name in parentheses. -/
def commentedGroup : Spelling :=
  .group [.blank ' ' (by decide), .comment false [' ', 'c'] (by decide), .blank ' ' (by decide)]
    (.name nameX []) [.blank ' ' (by decide)] []

end Sample

open Sample

/-- A spelling with gaps in its parentheses, and a parenthesis in its index, is read as it is
written. -/
theorem spaced_group_reads_back :
    place.outcome ⟨0, "( * p\t).f[(i]".toList ++ []⟩ =
        some (spacedGroup.tree 0, ⟨0 + "( * p\t).f[(i]".length, []⟩) ∧
      Place.ofText "( * p\t).f[(i]" = .ok ⟨"p", [.deref, .field "f", .index]⟩ := by
  have hmatch : place.outcome ⟨0, "( * p\t).f[(i]".toList ++ []⟩ =
      some (spacedGroup.tree 0, ⟨0 + "( * p\t).f[(i]".length, []⟩) :=
    outcome_place_of_passes ⟨rfl, rfl⟩ (by simp [Stops])
  have hread := ((matched_place_reads_back_iff ⟨[], {}⟩ hmatch).2 spacedGroup rfl).2.1
  exact ⟨hmatch, hread.2 (by decide)⟩

/-- A comment in parentheses is matched and cannot be read again. -/
theorem commented_group_unreadable :
    place.outcome (Cursor.ofText "( # c\n x )") = some (commentedGroup.tree 0, ⟨10, []⟩) ∧
      (∀ p, Place.ofText "( # c\n x )" ≠ .ok p) ∧
      ∀ (context : Context) p, context.place (commentedGroup.tree 0) ≠ .ok p := by
  have hunreadable : ¬ commentedGroup.Readable := by decide
  refine ⟨outcome_place_of_passes ⟨rfl, rfl⟩ (by simp [Stops]), fun p hread => ?_,
    fun context p hread => ?_⟩
  · exact hunreadable (commentedGroup.read_eq_ok.1 hread).1
  · exact hunreadable ((place_tree_eq_ok context).1 hread).1

end Grammar

end RegionInference
