import RegionInference.NameSet

/-!
# Lattices of facts

What a dataflow analysis needs to know about its facts: a least fact, the join of two facts, and
when one fact says no more than another. Sets of names are one such lattice, pairs of facts another,
and nested tuples of sets a third.
-/

namespace RegionInference

/-- The operations of a join-semilattice with a least element. -/
structure Lattice (α : Type) where
  /-- The least fact. -/
  bottom : α
  /-- The join of two facts. -/
  join : α → α → α
  /-- Whether the first fact says no more than the second. -/
  leq : α → α → Bool
  /-- Whether two facts say the same. -/
  eq : α → α → Bool := fun a b => leq a b && leq b a

namespace Lattice

/-- The join of all facts of a list. -/
def joinAll (lattice : Lattice α) (facts : List α) : α :=
  facts.foldl lattice.join lattice.bottom

/-- Sets of names, ordered by inclusion. -/
def names : Lattice NameSet where
  bottom := ∅
  join := NameSet.union
  leq := NameSet.subset
  eq a b := a == b

/-- Pairs of facts, ordered in both components. -/
def prod (first : Lattice α) (second : Lattice β) : Lattice (α × β) where
  bottom := (first.bottom, second.bottom)
  join a b := (first.join a.1 b.1, second.join a.2 b.2)
  leq a b := first.leq a.1 b.1 && second.leq a.2 b.2

end Lattice

/-! ### Nested tuples of sets -/

/-- The shape of a fact: a set of names, or a tuple of facts. -/
inductive FactShape where
  /-- A set of names. -/
  | set
  /-- A tuple with a fact of each shape. -/
  | tuple (parts : List FactShape)

/-- A set of names, or a tuple of facts. -/
inductive Fact where
  /-- A set of names. -/
  | set (names : NameSet)
  /-- A tuple of facts. -/
  | tuple (parts : List Fact)

instance : Inhabited FactShape := ⟨.set⟩

instance : Inhabited Fact := ⟨.set ∅⟩

namespace FactShape

mutual

/-- The least fact of a shape. -/
def bottom : FactShape → Fact
  | .set => .set ∅
  | .tuple shapes => .tuple (bottoms shapes)

/-- The least facts of some shapes. -/
def bottoms : List FactShape → List Fact
  | [] => []
  | shape :: shapes => shape.bottom :: bottoms shapes

end

mutual

/-- The join of two facts, part by part as far as shape and both facts have parts. -/
def join : FactShape → Fact → Fact → Fact
  | .set, .set a, .set b => .set (a.union b)
  | .tuple shapes, .tuple as, .tuple bs => .tuple (joins shapes as bs)
  | shape, _, _ => shape.bottom

/-- The joins of two lists of facts. -/
def joins : List FactShape → List Fact → List Fact → List Fact
  | shape :: shapes, a :: as, b :: bs => shape.join a b :: joins shapes as bs
  | _, _, _ => []

end

mutual

/-- Whether the first fact says no more than the second, in each part that shape and both facts
have. -/
def leq : FactShape → Fact → Fact → Bool
  | .set, .set a, .set b => a.subset b
  | .tuple shapes, .tuple as, .tuple bs => leqs shapes as bs
  | _, _, _ => true

/-- Whether no fact of the first list says more than that of the second. -/
def leqs : List FactShape → List Fact → List Fact → Bool
  | shape :: shapes, a :: as, b :: bs => shape.leq a b && leqs shapes as bs
  | _, _, _ => true

end

/-- The facts of a shape as a lattice. -/
def lattice (shape : FactShape) : Lattice Fact where
  bottom := shape.bottom
  join := shape.join
  leq := shape.leq

end FactShape

end RegionInference
