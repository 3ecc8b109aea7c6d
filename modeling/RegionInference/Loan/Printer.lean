import RegionInference.Body.Printer
import RegionInference.Loan.Narrative

/-!
# The printed forms of loans and conflicts

Facts about loans, conflicts and their narratives as JSON values.
-/

namespace RegionInference

/-- Facts about loans as an object of arrays. -/
def LoanFacts.toJson (facts : LoanFacts) : Json :=
  .obj [
    ("borrows", .arr (facts.loans.map fun loan =>
      .strs [loan.lifetime, loan.kind.text, loan.path.text, loan.point.text])),
    ("accesses", .arr (facts.accesses.map fun access =>
      .arr [.str access.kind.text, .str access.path.text, .str access.point.text,
        .option .str access.through, .bool access.shallow])),
    ("scope_exits", .arr (facts.exits.map fun exit => .strs [exit.name, exit.point.text]))]

/-- A conflict as an object. -/
def Conflict.toJson (conflict : Conflict) : Json :=
  .obj [
    ("borrow_point", .str conflict.loan.point.text),
    ("invalidating_point", .str conflict.point.text),
    ("use_point", .option (.str ·.text) conflict.use),
    ("borrow_kind", .str conflict.loan.kind.text),
    ("borrowed_path", .str conflict.loan.path.text),
    ("access_kind", .option (.str ·.text) conflict.access),
    ("cause", .str conflict.cause.text),
    ("lifetime", .str conflict.loan.lifetime)]

/-- A narrative as an object. -/
def Narrative.toJson (narrative : Narrative) : Json :=
  .obj [
    ("record", narrative.conflict.toJson),
    ("borrow_to_action", .points narrative.toAction),
    ("action_to_use", .option .points narrative.toUse)]

end RegionInference
