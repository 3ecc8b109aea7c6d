import RegionInference.Loan.Conflict

/-!
# Narratives of conflicts

The way a conflict comes about: a shortest path from the borrow to the action and one from there to
the use, inside the region of the loan. The region is listed for that, which fails if it has a
number that no point has.
-/

namespace RegionInference

/-- The way a conflict comes about. -/
structure Narrative where
  /-- The conflict. -/
  conflict : Conflict
  /-- The way from the borrow to the action. -/
  toAction : List Point
  /-- The way from the action to the use. -/
  toUse : Option (List Point)

/-- The way a conflict comes about. Where the region does not lead from the borrow to the action,
any path does, and at last the two points alone. -/
def Conflict.narrate (conflict : Conflict) (g : Graph) (regions : NameMap PointSet) :
    Except Fault Narrative := do
  match regions.get? conflict.loan.lifetime with
  | none => throw (.missingRegion conflict.loan.lifetime)
  | some region =>
    let direct ← g.pathWithin conflict.loan.point conflict.point region
    let toAction ← match direct with
      | some path => pure path
      | none => do
        let detour ← g.path conflict.loan.point conflict.point
        pure (detour.getD [conflict.loan.point, conflict.point])
    let toUse ← match conflict.use with
      | some use => g.pathWithin conflict.point use region
      | none => pure none
    return { conflict, toAction, toUse }

end RegionInference
