import RegionInference.Place.Basic
import RegionInference.Text.Blank
import RegionInference.Text.Ident
import RegionInference.Text.Quoted

/-!
# The text of a place

A dereference is written in front of what it applies to, and in parentheses unless it is the last
projection: `*p`, `(*p).f`, `*(*p).f`. Fields and indices are written behind.

The reader takes a leading star to apply to all that follows it, so that `*x.f` is `*(x.f)`.
Parentheses are matched by counting, wherever they stand, and an index may hold any text without a
closing bracket.
-/

namespace RegionInference

open Text

/-- Why a text is not the text of a place. The text is shown without the spaces around it. -/
inductive PlaceError where
  /-- An opening parenthesis in front has no partner. -/
  | unbalanced (text : String)
  /-- There is no local in front, or something follows that is no projection. -/
  | notAPlace (text : String)

/-- The message for a text that is not a place. -/
def PlaceError.message : PlaceError → String
  | .unbalanced text => s!"unbalanced parentheses in place {quote text}"
  | .notAPlace text => s!"not a place: {quote text}"

namespace Place

/-! ### Writing -/

/-- The projections written around the text of what they start from. -/
def wrap (inner : String) : List Projection → String
  | [] => inner
  | [.deref] => "*" ++ inner
  | .deref :: rest => wrap ("(*" ++ inner ++ ")") rest
  | .field name :: rest => wrap (inner ++ "." ++ name) rest
  | .index :: rest => wrap (inner ++ "[_]") rest

/-- The text of a place. -/
def text (place : Place) : String :=
  wrap place.base place.projections

/-! ### Reading -/

/-- Splits the text behind an opening parenthesis at its partner, with `depth` further
parentheses open. -/
def splitClose (depth : Nat) : List Char → Option (List Char × List Char)
  | [] => none
  | c :: cs =>
    if c = '(' then (splitClose (depth + 1) cs).map fun (inner, rest) => (c :: inner, rest)
    else if c = ')' then
      match depth with
      | 0 => some ([], cs)
      | depth + 1 => (splitClose depth cs).map fun (inner, rest) => (c :: inner, rest)
    else (splitClose depth cs).map fun (inner, rest) => (c :: inner, rest)

/-- A field or an index in front of the text, after spaces. -/
def suffix? (cs : List Char) : Option (Projection × List Char) :=
  match trimStart cs with
  | '.' :: cs => (ident? cs).map fun (name, rest) => (.field (String.ofList name), rest)
  | '[' :: cs =>
    match cs.dropWhile (· != ']') with
    | _ :: rest => some (.index, rest)
    | [] => none
  | _ => none

/-- A projection that is read takes characters. -/
theorem length_lt_of_suffix? {cs rest : List Char} {step : Projection}
    (h : suffix? cs = some (step, rest)) : rest.length < cs.length := by
  have hle : (trimStart cs).length ≤ cs.length := length_dropWhile_le _ _
  unfold suffix? at h
  split at h
  · next cs' heq =>
    obtain ⟨⟨name, rest'⟩, hid, hrest⟩ := Option.map_eq_some_iff.1 h
    simp only [Prod.mk.injEq] at hrest
    have := length_lt_of_ident? hid
    rw [heq, List.length_cons] at hle
    rw [← hrest.2]
    omega
  · next cs' heq =>
    split at h
    · next c rest' hdrop =>
      have hlen := length_dropWhile_le (· != ']') cs'
      rw [hdrop, List.length_cons] at hlen
      simp only [Option.some.injEq, Prod.mk.injEq] at h
      rw [heq, List.length_cons] at hle
      rw [← h.2]
      omega
    · simp at h
  · simp at h

/-- The fields and indices in front of the text, and what follows the last of them. -/
def suffixes (cs : List Char) : List Projection × List Char :=
  match _h : suffix? cs with
  | none => ([], cs)
  | some (step, rest) =>
    let (steps, rest) := suffixes rest
    (step :: steps, rest)
termination_by cs.length
decreasing_by exact length_lt_of_suffix? _h

/-- What stands before and after a closing bracket is shorter than the whole by the bracket. -/
theorem length_splitClose {depth : Nat} {cs inner rest : List Char}
    (h : splitClose depth cs = some (inner, rest)) : inner.length + rest.length < cs.length := by
  induction cs generalizing depth inner with
  | nil => simp [splitClose] at h
  | cons c cs ih =>
    have step : ∀ {d : Nat},
        (splitClose d cs).map (fun (p : List Char × List Char) => (c :: p.1, p.2)) =
          some (inner, rest) →
        inner.length + rest.length < (c :: cs).length := by
      intro d hd
      obtain ⟨⟨inner', rest'⟩, hs, heq⟩ := Option.map_eq_some_iff.1 hd
      simp only [Prod.mk.injEq] at heq
      obtain ⟨rfl, rfl⟩ := heq
      have := ih hs
      simp only [List.length_cons]
      omega
    unfold splitClose at h
    split at h
    · exact step h
    · split at h
      · split at h
        · simp only [Option.some.injEq, Prod.mk.injEq] at h
          simp [← h.1, ← h.2]
        · exact step h
      · exact step h

/-- The place with the projections at the front of `rest`, behind which only spaces may follow.
`whole` is the text shown if something else does. -/
def readSuffixes (whole : List Char) (place : Place) (rest : List Char) :
    Except PlaceError Place :=
  let (steps, rest) := suffixes rest
  if (trim rest).isEmpty then
    .ok { place with projections := place.projections ++ steps }
  else .error (.notAPlace (String.ofList whole))

/-- Reads a place. -/
def read (cs : List Char) : Except PlaceError Place :=
  match _h : trim cs with
  | '*' :: rest => (read rest).map deref
  | '(' :: rest =>
    match _hc : splitClose 0 rest with
    | none => .error (.unbalanced (String.ofList (trim cs)))
    | some (inner, rest) => do
      readSuffixes (trim cs) (← read inner) rest
  | whole =>
    match ident? whole with
    | none => .error (.notAPlace (String.ofList whole))
    | some (base, rest) => readSuffixes whole { base := String.ofList base } rest
termination_by cs.length
decreasing_by
  · have := length_trim_le cs
    rw [_h, List.length_cons] at this
    omega
  · have := length_trim_le cs
    have := length_splitClose _hc
    rw [_h, List.length_cons] at *
    omega

/-- The place that a text stands for. -/
def ofText (text : String) : Except PlaceError Place :=
  read text.toList

end Place

end RegionInference
