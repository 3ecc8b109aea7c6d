/-!
# Traces of failures

While a text is read, readings of it are tried and fail. What is told about a text that cannot be
read at all is the named rule that failed furthest on, and of several that started at one position
the last that failed. A failure without a name counts only if it is the very first and no rule
failed at its position or further on.
-/

namespace RegionInference.Grammar

/-- The failures of a reading. -/
structure Trace where
  /-- Where the first failure started. -/
  first : Option Nat := none
  /-- The rule that failed furthest on, and where it started. -/
  furthest : Option (Nat × String) := none

namespace Trace

/-- The failure of something without a name. -/
def unnamed (pos : Nat) : Trace :=
  { first := some pos }

/-- The failure of a rule. -/
def rule (name : String) (pos : Nat) : Trace :=
  { first := some pos, furthest := some (pos, name) }

/-- The later of two failed rules unless the earlier one started further on. -/
def further : Option (Nat × String) → Option (Nat × String) → Option (Nat × String)
  | none, later => later
  | earlier, none => earlier
  | some earlier, some later => some (if earlier.1 ≤ later.1 then later else earlier)

/-- The failures of one reading and then another. -/
def append (earlier later : Trace) : Trace where
  first := earlier.first <|> later.first
  furthest := further earlier.furthest later.furthest

instance : Append Trace := ⟨append⟩

/-- The position that is told, and the rule, if one is. -/
def report (trace : Trace) : Nat × Option String :=
  match trace.first, trace.furthest with
  | some first, some (pos, name) => if first ≤ pos then (pos, some name) else (first, none)
  | some first, none => (first, none)
  | none, some (pos, name) => (pos, some name)
  | none, none => (0, none)

end Trace

end RegionInference.Grammar
