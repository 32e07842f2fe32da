import GameSheet.Evaluation.Operand
import GameSheet.Evaluation.Resolution

/-!
# Values of expressions

The value of an expression depends on the functions it calls and on how its references are read (`Expr.eval`). A
reference is read by finding its cell (`Scope.target`) and computing that cell: its data is its value, and a formula
is evaluated in the row of the cell. A memo may know the outcome of a formula cell, and the guard refuses cells that
wait for themselves and chains that are too deep.

Chains are bounded twice: by the guard, whose refusal is a failure, and by the number of levels of the recursion.
Every level enters the guard once, so with as many levels as the guard has room the recursion never runs out.
-/

namespace GameSheet

open Formula

namespace Formula

mutual

/-- The value of an expression. -/
def Expr.eval (registry : Registry) (read : Reference → Eval CellValue) : Expr → Eval CellValue
  | .number x => pure (.number x)
  | .text s _ => pure (.text s)
  | .ref r => read r
  | .negate e => (Operand.mk e.isText (e.eval registry read)).negate
  | .binary op l r =>
    op.apply (Operand.mk l.isText (l.eval registry read)) (Operand.mk r.isText (r.eval registry read))
  | .call name args _ => applyFunction registry name (Expr.operands registry read args)

/-- The operands that some expressions are. -/
def Expr.operands (registry : Registry) (read : Reference → Eval CellValue) : List Expr → List Operand
  | [] => []
  | e :: rest => Operand.mk e.isText (e.eval registry read) :: Expr.operands registry read rest

end

end Formula

/-! ## Cells -/

/-- How a formula body is evaluated at a row. -/
abbrev Evaluator := String → RowSite → Eval CellValue

namespace Scope

/-- The value of a formula cell: what the memo knows, or else the value of its body, which is kept. -/
def formulaValue (evaluate : Evaluator) (cell : CellSite) (body : String) : Eval CellValue := do
  match ← Eval.known? cell.key with
  | some outcome => Eval.ofExcept outcome
  | none => Eval.remember cell.key (Eval.within ⟨cell.key, cell.label⟩ (evaluate body cell.site))

/-- The value of a cell. -/
def cellValue (evaluate : Evaluator) (cell : CellSite) : Eval CellValue :=
  match cell.source with
  | .literal raw => Eval.ofRaw raw
  | .formula body => formulaValue evaluate cell body

/-- The value of the cell that a reference leads to. -/
def read (scope : Scope) (evaluate : Evaluator) (site : Option RowSite) (r : Reference) : Eval CellValue := do
  cellValue evaluate (← Eval.ofExcept (scope.target site r))

/-- The value of a formula body at a row, through at most so many formula cells that wait for each other. -/
def chained (scope : Scope) (registry : Registry) : Nat → Evaluator
  | 0, _, _ => throw (.depth scope.options.maxDepth)
  | room + 1, body, site => do
    let e ← Eval.ofExcept ((parse registry body).mapError .parse)
    e.eval registry (scope.read (scope.chained registry room) site)

/-- The value of an expression at a row, or nowhere. -/
def value (scope : Scope) (registry : Registry) (site : Option RowSite) (e : Expr) : Eval CellValue :=
  e.eval registry (scope.read (scope.chained registry scope.options.maxDepth) site)

end Scope

end GameSheet
