import GameSheet.Formula.Parse
import GameSheet.Workbook.Site

/-!
# Failures of an evaluation

Why a formula gives no value. A failure is a cause; `Failure.message` words it and `Failure.code` classes it. A cycle
and a chain that is too deep are failures of the structure of a workbook: no formula recovers from them.
-/

namespace GameSheet

open Formula

/-- A cell that is being computed, with the label that messages show. -/
structure Visit where
  key : CellKey
  label : String
  deriving DecidableEq, Repr

/-- What a number is needed for. -/
inductive Role where
  | sign
  | left (op : Operator)
  | right (op : Operator)
  | argument (function : String) (index : Nat)
  deriving DecidableEq, Repr

/-- What a number is needed for, in words. -/
def Role.shown : Role → String
  | sign => "operand of unary '-'"
  | left op => "left operand of '" ++ op.symbol ++ "'"
  | right op => "right operand of '" ++ op.symbol ++ "'"
  | argument function index => function ++ " argument " ++ toString index

/-- What a reference or a context names and the workbook does not have. -/
inductive Missing where
  | sheet (name : String)
  | row (id : String)
  | columnId (id : String)
  | column (name : String)
  | columnIn (name sheet : String)
  | rowIn (selector : RowSelector) (sheet : String)
  | previousRow
  | settingsSheet (name : String)
  | settingsColumns (sheet : String)
  | setting (key : String)
  deriving DecidableEq, Repr

/-- What is missing, in words. -/
def Missing.message : Missing → String
  | sheet label => "unknown sheet: " ++ label
  | row id => "unknown row: " ++ id
  | columnId id => "unknown column id: " ++ id
  | column label => "unknown column: " ++ label
  | columnIn label place => "unknown column: " ++ label ++ " in sheet " ++ place
  | rowIn selector place => "unknown row: " ++ selector.shown ++ " in sheet " ++ place
  | previousRow => "no previous row"
  | settingsSheet label => "no " ++ label ++ " sheet"
  | settingsColumns place => place ++ " sheet needs a key column and a value column"
  | setting key => "unknown setting: " ++ key

/-- Why a formula gives no value. -/
inductive Failure where
  /-- The text is no formula. -/
  | parse (e : ParseError)
  /-- A reference leads nowhere. -/
  | reference (m : Missing)
  /-- A string literal stands where a number is needed. -/
  | literalText (role : Role)
  /-- A text that is no numeral stands where a number is needed. -/
  | textValue (role : Role) (s : String)
  /-- An empty cell stands where a number is needed. -/
  | emptyValue (role : Role)
  /-- Something else stands where a text is needed. -/
  | notText (role : Role)
  /-- The formula is a bare string literal. -/
  | bareText
  /-- A function has a fault. -/
  | fault (function : String) (f : Fault)
  /-- The result is not a number. -/
  | resultNaN
  /-- The result is infinite. -/
  | resultInfinite
  /-- A cell depends on itself. -/
  | cycle (path : List Visit)
  /-- Too many cells wait for each other. -/
  | depth (limit : Int)
  /-- A function is called with a number of arguments that it does not take. -/
  | arity (function arity : String) (count : Nat)
  /-- A call names no function. -/
  | noFunction (name : String)
  /-- A function without an implementation is called. -/
  | notCallable (function : String)
  /-- A cell holds an integer that is no number. -/
  | overflow (e : Overflow)
  deriving DecidableEq, Repr

namespace Failure

/-- The class of the failure. -/
def code : Failure → String
  | parse (.misfit _) => "lex_error"
  | parse (.fault _ _) => "parse_error"
  | reference _ => "reference_error"
  | literalText _ | textValue _ _ | emptyValue _ | notText _ | bareText => "type_error"
  | fault _ .unsuited => "internal_error"
  | fault _ _ | resultNaN | resultInfinite => "math_error"
  | cycle _ => "cycle_error"
  | depth _ => "recursion_limit"
  | arity _ _ _ => "argument_error"
  | noFunction _ | notCallable _ => "formula_error"
  | overflow _ => "internal_error"

/-- The failure in words. -/
def message : Failure → String
  | parse e => e.message
  | reference m => m.message
  | literalText role => role.shown ++ " is a string literal, expected a number"
  | textValue role s => role.shown ++ " must be a number, got text " ++ Text.quoted s
  | emptyValue role => role.shown ++ " must be a number, got an empty cell"
  | notText role => role.shown ++ " must be text"
  | bareText => "a string literal is only valid as a function argument"
  | fault _ .unsuited => "internal error: " ++ Fault.unsuited.message
  | fault function f => function ++ ": " ++ f.message
  | resultNaN => "result is not a number"
  | resultInfinite => "result is infinite"
  | cycle path => "circular reference: " ++ " -> ".intercalate (path.map Visit.label)
  | depth limit => "formula chain exceeds maximum depth of " ++ toString limit
  | arity function accepted count => FunctionSpec.arityMessage function accepted count
  | noFunction name => "unknown function: " ++ name
  | notCallable function => function ++ " cannot be called here"
  | overflow e => "internal error: " ++ e.message

/-- Whether a formula may recover from the failure: not from a cycle and not from a chain that is too deep. -/
def isMaskable : Failure → Bool
  | cycle _ | depth _ | fault _ .unsuited => false
  | _ => true

/-- Whether the failure of a cell is kept for its other readers. How deep a chain may go depends on where it was
entered, and a conversion that fails is no failure of the formula. -/
def isKept : Failure → Bool
  | depth _ | overflow _ | fault _ .unsuited => false
  | _ => true

end Failure

end GameSheet
