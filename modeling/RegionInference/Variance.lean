import RegionInference.Text.Blank
import RegionInference.Text.Lower
import RegionInference.Text.Quoted

/-!
# Variance

How a position in a type behaves under subtyping, and how positions compose.
-/

namespace RegionInference

open Text

/-- How a position behaves under subtyping. -/
inductive Variance where
  /-- Follows the order of the whole. -/
  | covariant
  /-- Reverses it. -/
  | contravariant
  /-- Must be equal. -/
  | invariant
  /-- Does not matter. -/
  | bivariant
deriving DecidableEq

/-- A text that names no variance. -/
structure VarianceError where
  /-- The text, trimmed and in small letters. -/
  text : String

/-- The message for a text that names no variance. -/
def VarianceError.message (error : VarianceError) : String :=
  s!"unknown variance {quote error.text}"

namespace Variance

/-- All variances. -/
def all : List Variance :=
  [.covariant, .contravariant, .invariant, .bivariant]

/-- The one-character sign of a variance. -/
def symbol : Variance → String
  | .covariant => "+"
  | .contravariant => "-"
  | .invariant => "="
  | .bivariant => "*"

/-- The keyword of a variance. -/
def keyword : Variance → String
  | .covariant => "covariant"
  | .contravariant => "contravariant"
  | .invariant => "invariant"
  | .bivariant => "bivariant"

/-- The variance of a position declared `inner` that stands in an `outer` position. -/
def compose (outer inner : Variance) : Variance :=
  match outer, inner with
  | .covariant, inner => inner
  | .invariant, _ => .invariant
  | .bivariant, _ => .bivariant
  | .contravariant, .covariant => .contravariant
  | .contravariant, .contravariant => .covariant
  | .contravariant, inner => inner

/-- The variance that a sign or keyword names, in capitals or small letters. -/
def ofText (text : String) : Except VarianceError Variance :=
  let word := String.ofList (lower (trim text.toList))
  match all.find? fun v => v.symbol == word || v.keyword == word with
  | some v => .ok v
  | none => .error ⟨word⟩

end Variance

end RegionInference
