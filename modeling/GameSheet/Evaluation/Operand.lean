import GameSheet.Evaluation.Walk
import GameSheet.Arithmetic

/-!
# Operands

An operand is a part of a formula that an operator or a function may evaluate. Where a number is needed a text that
holds a numeral is taken for it, with a warning; a string literal of the formula itself is taken by functions only.

* `Operator.apply` is the operation between two operands.
* `chooseBranch` and `rescue` are the two functions that do not evaluate all of their operands.
* `applyFunction` is any call.
-/

namespace GameSheet

open Formula

/-- A part of a formula: whether it is a string literal, and the step that evaluates it. -/
structure Operand where
  isLiteral : Bool
  value : Eval CellValue

/-- The number that a value stands for. -/
def CellValue.toNumber (role : Role) : CellValue → Eval Float
  | .number x => pure x
  | .text s =>
    match Decimal.numericText? s with
    | some x => do
      Eval.warn (.textAsNumber s)
      pure x
    | none => throw (.textValue role s)
  | .empty => throw (.emptyValue role)

/-- The number that an operand stands for. -/
def Operand.number (role : Role) (o : Operand) : Eval Float :=
  if o.isLiteral then throw (.literalText role)
  else do (← o.value).toNumber role

/-! ## Operators -/

/-- The operation between two numbers. -/
def Formula.Operator.onNumbers (op : Operator) (a b : Float) : CellValue :=
  match op with
  | .add => .number (a + b)
  | .sub => .number (a - b)
  | .mul => .number (a * b)
  | .div => .number (Arithmetic.divide a b)
  | .pow => .number (Arithmetic.power a b)
  | .lt => .truth (a < b)
  | .gt => .truth (a > b)
  | .le => .truth (a ≤ b)
  | .ge => .truth (a ≥ b)
  | .eq => .truth (a == b)
  | .ne => .truth (a != b)

/-- Whether an operator compares for equality, so that it also takes texts. -/
def Formula.Operator.isEquality : Operator → Bool
  | .eq | .ne => true
  | _ => false

/-- Whether two values are compared as texts: one is a text, and none is a number. -/
def comparedAsTexts (left right : CellValue) : Bool :=
  (left.isText || right.isText) && !left.isNumber && !right.isNumber

/-- The operation between two operands, the left one evaluated first. An equality evaluates both before it asks what
they are. -/
def Formula.Operator.apply (op : Operator) (left right : Operand) : Eval CellValue :=
  if op.isEquality then do
    let l ← left.value
    let r ← right.value
    if comparedAsTexts l r then pure (.truth ((l.display == r.display) == (op == .eq)))
    else do
      let a ← l.toNumber (.left op)
      let b ← r.toNumber (.right op)
      pure (op.onNumbers a b)
  else do
    let a ← left.number (.left op)
    let b ← right.number (.right op)
    pure (op.onNumbers a b)

/-- The operand with the other sign. -/
def Operand.negate (o : Operand) : Eval CellValue := do
  pure (.number (-(← o.number .sign)))

/-! ## Functions -/

/-- The key of the function that evaluates one of two operands. -/
def branchKey : String := "IF"

/-- The key of the function that recovers from failures. -/
def rescueKey : String := "IFERROR"

/-- The second operand unless the first one is zero, otherwise the third one, or zero unless there are three. -/
def chooseBranch : List Operand → Eval CellValue
  | [] => throw (.fault branchKey .unsuited)
  | condition :: branches => do
    let x ← condition.number (.argument branchKey 1)
    if x != 0.0 then
      match branches with
      | yes :: _ => yes.value
      | [] => throw (.fault branchKey .unsuited)
    else
      match branches with
      | [_, no] => no.value
      | _ => pure (.number 0.0)

/-- The first of the operands that a rescue may fall back to. -/
def fallback : List Operand → Eval CellValue
  | [] => throw (.fault rescueKey .unsuited)
  | o :: _ => o.value

/-- The first operand, or the second one if the first fails or is not a number. -/
def rescue : List Operand → Eval CellValue
  | [] => throw (.fault rescueKey .unsuited)
  | value :: rest => do
    match ← Eval.attempt value.value with
    | some (.number x) => if x.isNaN then fallback rest else pure (.number x)
    | some v => pure v
    | none => fallback rest

/-- An operand as the argument of a function at a position from zero on. -/
def Operand.argument (f : FunctionSpec) (position : Nat) (o : Operand) : Eval Argument := do
  let v ← o.value
  if position ∈ f.textArgs then
    match v with
    | .text s => pure (.text s)
    | _ => throw (.notText (.argument f.name (position + 1)))
  else return .number (← v.toNumber (.argument f.name (position + 1)))

/-- The operands as the arguments of a function from a position on, evaluated from left to right. -/
def argumentsFrom (f : FunctionSpec) (position : Nat) : List Operand → Eval (List Argument)
  | [] => pure []
  | o :: rest => do
    let a ← o.argument f position
    let as ← argumentsFrom f (position + 1) rest
    pure (a :: as)

/-- The call of a function by its key. -/
def applyFunction (registry : Registry) (key : String) (operands : List Operand) : Eval CellValue :=
  match registry.find? key with
  | none => throw (.noFunction key)
  | some f =>
    if f.accepts operands.length then
      if key = branchKey then chooseBranch operands
      else if key = rescueKey then rescue operands
      else
        match f.implementation with
        | none => throw (.notCallable f.name)
        | some g => do
          let args ← argumentsFrom f 0 operands
          match g args with
          | .ok x => pure (.number x)
          | .error e => throw (.fault f.name e)
    else throw (.arity f.name f.arityText operands.length)

end GameSheet
