import RegionInference.Binary64.Printer

/-!
# Bounds on the number of rounds

A run may be given a bound on its rounds. Bounds come from settings, so a truth value, a number
with a fraction or something that is no number can stand where a count is expected.
-/

namespace RegionInference

/-- A bound on the rounds of a run. -/
inductive Bound where
  /-- At most that many rounds; a negative number allows none. -/
  | count (limit : Int)
  /-- A truth value, which counts as one or as zero. -/
  | truth (value : Bool)
  /-- A number that may have a fraction. -/
  | real (value : Binary64)
  /-- No number: nothing can be compared with it. -/
  | incomparable
deriving DecidableEq

/-- How many rounds a run may make. -/
inductive Allowance where
  /-- At most that many. -/
  | rounds (count : Nat)
  /-- As many as it takes. -/
  | unlimited
  /-- The bound does not say. -/
  | unknown
deriving DecidableEq

namespace Bound

/-- The text of a bound. What is no number has none. -/
def text : Bound → String
  | .count limit => toString limit
  | .truth value => if value then "True" else "False"
  | .real value => value.text
  | .incomparable => ""

/-- The bound without its fraction. -/
def whole? : Bound → Option Int
  | .count limit => some limit
  | .truth value => some (if value then 1 else 0)
  | .real value => value.truncate?
  | .incomparable => none

/-- Whether so many rounds have reached a bound: whether the bound is at most their number. -/
def reached? (bound : Bound) (rounds : Nat) : Option Bool :=
  match bound with
  | .count limit => some (limit ≤ rounds)
  | .truth value => some (value.toNat ≤ rounds)
  | .real value => some (value.atMost rounds)
  | .incomparable => none

/-- How many rounds may be made while their number is below a bound. -/
def allowance : Bound → Allowance
  | .count limit => .rounds limit.toNat
  | .truth value => .rounds value.toNat
  | .real (.infinite negative) => if negative then .rounds 0 else .unlimited
  | .real value => .rounds (value.ceil?.getD 0).toNat
  | .incomparable => .unknown

end Bound

end RegionInference
