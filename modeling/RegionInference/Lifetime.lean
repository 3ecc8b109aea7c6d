import RegionInference.Graph.Basic

/-!
# Lifetimes

A lifetime is an unknown whose region is solved for, or a placeholder, which stands for a named
parameter and keeps a fixed region.
-/

namespace RegionInference

/-- The kinds of lifetimes. -/
inductive LifetimeKind where
  /-- The region is solved for. -/
  | free
  /-- The region is fixed. -/
  | placeholder
deriving DecidableEq

/-- The name of a kind. -/
def LifetimeKind.text : LifetimeKind → String
  | .free => "free"
  | .placeholder => "placeholder"

/-- A declared lifetime. -/
structure Lifetime where
  /-- The name, without the mark in front. -/
  name : String
  /-- Whether the region is fixed. -/
  kind : LifetimeKind := .free
  /-- The points of the fixed region. -/
  fixed : Option (List Point) := none
  /-- Whether the fixed region is the whole graph. -/
  coversAll : Bool := false

namespace Lifetime

/-- Whether the region is fixed. -/
def isPlaceholder (lifetime : Lifetime) : Bool :=
  lifetime.kind == .placeholder

/-- The fixed region, or nothing for a lifetime that is solved for. -/
def fixedRegion (lifetime : Lifetime) (g : Graph) : Except Fault PointSet :=
  match lifetime.kind, lifetime.coversAll with
  | .free, _ => .ok ∅
  | .placeholder, true => .ok g.all
  | .placeholder, false => g.setOf (lifetime.fixed.getD [])

end Lifetime

end RegionInference
