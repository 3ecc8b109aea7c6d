import RegionInference.Body.Typing

/-!
# The facts of a body

Each borrow makes a loan and reads the borrowed place, or writes it if the loan is mutable. Each
operand reads its place or moves out of it. The destination of an assignment and a dropped local
are overwritten, which touches nothing behind a reference stored there. Where a body is given facts
of a kind, they are taken as they are.
-/

namespace RegionInference

namespace LoanFacts

/-- The access to a place at a point. -/
def access (body : Body) (kind : AccessKind) (path : Place) (point : Point)
    (shallow : Bool := false) : Except Fault Access :=
  (body.through path).map fun through => { kind, path, point, through, shallow }

/-- The access of an operand at a point. -/
def operandAccess (body : Body) (point : Point) : Operand → Except Fault (List Access)
  | .copy place => (access body .read place point).map ([·])
  | .move place => (access body .move place point).map ([·])
  | .const _ => .ok []

/-- The accesses of some operands at a point. -/
def operandAccesses (body : Body) (point : Point) (operands : List Operand) :
    Except Fault (List Access) :=
  (operands.mapM (operandAccess body point)).map List.flatten

/-- The accesses of the element at a point. -/
def accessesAt (body : Body) (point : Point) : Element → Except Fault (List Access)
  | .stmt (.assign place (.borrow _ mutable borrowed)) => do
    let read ← access body (if mutable then .write else .read) borrowed point
    return [read, ← access body .write place point true]
  | .stmt (.assign place rvalue) => do
    let read ← operandAccesses body point rvalue.operands
    return read ++ [← access body .write place point true]
  | .stmt (.use operands) => operandAccesses body point operands
  | .stmt (.drop name) => (access body .write ⟨name, []⟩ point true).map ([·])
  | .term (.switch operand _) => operandAccess body point operand
  | _ => .ok []

/-- The loan that the element at a point makes. -/
def loan? (point : Point) : Element → Option Loan
  | .stmt (.assign _ (.borrow lifetime mutable place)) =>
    some ⟨lifetime, if mutable then .mutable else .shared, place, point⟩
  | _ => none

/-- The scope exit at a point. -/
def exit? (point : Point) : Element → Option ScopeExit
  | .stmt (.storageDead name) => some ⟨name, point⟩
  | _ => none

end LoanFacts

/-- The facts about a body. -/
def Body.facts (body : Body) : Except Fault LoanFacts := do
  let items := body.graph.items
  let accesses ← items.mapM fun (point, element) => LoanFacts.accessesAt body point element
  return {
    loans := body.loans.getD (items.filterMap fun (point, element) => LoanFacts.loan? point element)
    accesses := body.accesses.getD accesses.flatten
    exits := body.exits.getD
      (items.filterMap fun (point, element) => LoanFacts.exit? point element) }

end RegionInference
