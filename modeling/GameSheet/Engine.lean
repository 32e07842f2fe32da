import GameSheet.Evaluation.Value
import GameSheet.Journal.Event

/-!
# The engine

An engine evaluates formulas with its functions and its options. An evaluation ends in an outcome: a value with the
warnings on the way to it, or a failure. Nothing else can happen to a formula, so one bad formula does not keep the
others from being computed.

A formula may be evaluated in a context, a row of a workbook, and may belong to a column of that row; reading its own
cell is then a cycle. A memo carries the outcomes of formula cells from one evaluation to the next.
-/

namespace GameSheet

open Formula

/-- The functions and the options that formulas are evaluated with. -/
structure Engine where
  registry : Registry := Registry.standard
  options : Options := .standard

/-- Where a formula is evaluated, by identifiers; the sheet also by its name. -/
structure Context where
  workbook : Workbook
  sheet : String
  row : String
  /-- The column that the formula belongs to, if it belongs to one. -/
  column : Option String := none

namespace Context

/-- The row of the context. -/
def site (c : Context) : Except Failure RowSite := do
  let sheet ← orMissing (.sheet c.sheet) (c.workbook.sheet? c.sheet)
  let index ← orMissing (.row c.row) (sheet.rowIndex? c.row)
  .ok ⟨sheet, index⟩

end Context

/-! ## Outcomes -/

/-- What comes of a formula. -/
inductive Outcome where
  | success (value : CellValue) (warnings : List Warning)
  | failed (failure : Failure)
  deriving DecidableEq

namespace Outcome

/-- The value, if there is one. -/
def value? : Outcome → Option CellValue
  | success v _ => some v
  | failed _ => none

/-- The failure, if there is one. -/
def failure? : Outcome → Option Failure
  | success _ _ => none
  | failed f => some f

/-- The warnings on the way to a value. -/
def warnings : Outcome → List Warning
  | success _ ws => ws
  | failed _ => []

/-- The outcome for a user who tries a formula. -/
def display : Outcome → String
  | success v _ => "Result: " ++ v.display
  | failed f => "Error: " ++ f.message

/-- The outcome as the grid shows it in the cell. -/
def cellText : Outcome → String
  | success v _ => v.display
  | failed f => "#ERR: " ++ f.message

/-- The value as document data; null if there is none or the cell is empty. -/
def valueData : Outcome → Data
  | success (.number x) _ => .float x
  | success (.text s) _ => .text s
  | _ => .null

/-- The outcome as document data. -/
def toData (o : Outcome) : Data :=
  .mapping [
    ("value", o.valueData),
    ("error", Event.textOrNull (o.failure?.map Failure.message)),
    ("error_code", Event.textOrNull (o.failure?.map Failure.code)),
    ("warnings", .list (o.warnings.map fun w => .text w.message))]

end Outcome

/-! ## Evaluation -/

namespace Engine

/-- A value that a formula may result in: NaN is none, and an infinity only if the options allow it. -/
def checkResult (engine : Engine) (v : CellValue) : Except Failure CellValue :=
  match v with
  | .number x =>
    if x.isNaN then .error .resultNaN
    else if x.isInf && !engine.options.allowInfinity then .error .resultInfinite
    else .ok (.number x)
  | v => .ok v

/-- The expression of a formula, with or without its marker. A bare string literal is none. -/
def read (engine : Engine) (formula : String) : Except Failure Expr := do
  let e ← (parse engine.registry (stripMarker formula)).mapError .parse
  if e.isText then .error .bareText else .ok e

/-- The cell that a formula belongs to. -/
def ownCell (site : RowSite) (columnId : String) : Except Failure CellSite := do
  let column ← orMissing (.columnId columnId) (site.sheet.columnById? columnId)
  .ok ⟨site, column⟩

/-- The value of an expression at a row or nowhere, inside the cell of the column that it belongs to. -/
def valueAt (engine : Engine) (workbook : Workbook) (site : Option RowSite) (columnId : Option String) (e : Expr) :
    Eval CellValue :=
  let step := Scope.value ⟨workbook, engine.options⟩ engine.registry site e
  match site, columnId with
  | some site, some id => do
    let cell ← Eval.ofExcept (ownCell site id)
    Eval.within ⟨cell.key, cell.label⟩ step
  | _, _ => step

/-- The steps of an evaluation. -/
def steps (engine : Engine) (context : Option Context) (formula : String) : Eval CellValue := do
  let site ← Eval.ofExcept (context.mapM Context.site)
  let e ← Eval.ofExcept (engine.read formula)
  let v ← engine.valueAt (context.elim Workbook.empty Context.workbook) site (context.bind Context.column) e
  Eval.ofExcept (engine.checkResult v)

/-- The state in which an evaluation starts. -/
def start (engine : Engine) (memo : Option Memo) : Walk where
  guard := ⟨engine.options.maxDepth, []⟩
  memo := memo

/-- The outcome of a formula, and the memo after it. -/
def evaluateWith (engine : Engine) (memo : Option Memo) (context : Option Context) (formula : String) :
    Outcome × Option Memo :=
  match engine.steps context formula (engine.start memo) with
  | (.ok v, after) => (.success v after.warnings, after.memo)
  | (.error f, after) => (.failed f, after.memo)

/-- The outcome of a formula without a memo. -/
def evaluate (engine : Engine) (context : Option Context) (formula : String) : Outcome :=
  (engine.evaluateWith none context formula).1

end Engine

/-! ## Reports -/

namespace Outcome

/-- What a report says of the context of a formula. -/
def contextEntries (context : Option Context) : List (String × Data) :=
  match context with
  | none => []
  | some c => [("sheet_id", .text c.sheet), ("row_id", .text c.row)] ++
      c.column.toList.map fun id => ("column_id", .text id)

/-- The report of a failed evaluation; a success is not reported. -/
def report (context : Option Context) (formula : String) (o : Outcome) : Option Event :=
  o.failure?.map fun f => {
    severity := .warning
    topic := .ofCode f.code
    message := f.message
    context := ("formula", .text formula) :: contextEntries context
    errorCode := some f.code }

end Outcome

end GameSheet
