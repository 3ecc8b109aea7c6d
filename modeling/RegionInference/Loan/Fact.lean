import RegionInference.Place.Text
import RegionInference.Point

/-!
# Loans, accesses and scope exits

What conflicts are looked for in: a loan is a place that is borrowed at a point for a lifetime, an
access is a place that is read, written or moved out of at a point, and a scope exit is a point at
which the storage of a local ends.
-/

namespace RegionInference

open Text

/-- The kinds of loans. -/
inductive LoanKind where
  /-- The place may be read while it is on loan. -/
  | shared
  /-- The place may not be touched while it is on loan. -/
  | mutable
deriving DecidableEq

/-- The kinds of accesses. -/
inductive AccessKind where
  /-- The place is read. -/
  | read
  /-- The place is written. -/
  | write
  /-- The place is moved out of. -/
  | move
deriving DecidableEq

/-- A place that is borrowed at a point for a lifetime. -/
structure Loan where
  /-- The lifetime of the reference. -/
  lifetime : String
  /-- The kind of the loan. -/
  kind : LoanKind
  /-- The borrowed place. -/
  path : Place
  /-- The point of the borrow. -/
  point : Point
deriving DecidableEq

/-- A place that is accessed at a point. -/
structure Access where
  /-- The kind of the access. -/
  kind : AccessKind
  /-- The accessed place. -/
  path : Place
  /-- The point of the access. -/
  point : Point
  /-- The lifetime of the first reference that the access goes through. -/
  through : Option String := none
  /-- Whether only the place itself is touched, and nothing behind a reference stored there. -/
  shallow : Bool := false
deriving DecidableEq

/-- The end of the storage of a local. -/
structure ScopeExit where
  /-- The local. -/
  name : String
  /-- The point at which its storage ends. -/
  point : Point
deriving DecidableEq

/-- The facts about a function that conflicts are looked for in. -/
structure LoanFacts where
  /-- The loans. -/
  loans : List Loan := []
  /-- The accesses. -/
  accesses : List Access := []
  /-- The scope exits. -/
  exits : List ScopeExit := []

/-! ### Texts -/

/-- The name of a kind of loan. -/
def LoanKind.text : LoanKind → String
  | .shared => "shared"
  | .mutable => "mutable"

/-- The name of a kind of access. -/
def AccessKind.text : AccessKind → String
  | .read => "read"
  | .write => "write"
  | .move => "move"

/-- A group of items in parentheses; a single item has a comma after it. -/
def groupText : List String → String
  | [] => "()"
  | [item] => "(" ++ item ++ ",)"
  | items => "(" ++ ", ".intercalate items ++ ")"

/-- A named choice with its value. -/
def choiceText (kind value : String) : String :=
  s!"<{kind}.{value.toUpper}: {quote value}>"

/-- A projection in full. -/
def Projection.fullText : Projection → String
  | .deref => "Deref()"
  | .field name => s!"Field(name={quote name})"
  | .index => "Index()"

/-- A place in full. -/
def Place.fullText (place : Place) : String :=
  s!"Place(base={quote place.base}, projections=" ++
    groupText (place.projections.map Projection.fullText) ++ ")"

/-- A point in full. -/
def Point.fullText (point : Point) : String :=
  s!"Point(block={quote point.block}, index={point.index})"

/-- A loan in full. -/
def Loan.text (loan : Loan) : String :=
  s!"BorrowFact(lifetime={quote loan.lifetime}, kind=" ++ choiceText "BorrowKind" loan.kind.text ++
    s!", path={loan.path.fullText}, point={loan.point.fullText})"

/-- An access in full. -/
def Access.text (access : Access) : String :=
  "AccessFact(kind=" ++ choiceText "AccessKind" access.kind.text ++
    s!", path={access.path.fullText}, point={access.point.fullText}, through=" ++
    (access.through.elim "None" quote) ++
    (if access.shallow then ", shallow=True)" else ", shallow=False)")

/-- A scope exit in full. -/
def ScopeExit.text (exit : ScopeExit) : String :=
  s!"ScopeExitFact(variable={quote exit.name}, point={exit.point.fullText})"

end RegionInference
