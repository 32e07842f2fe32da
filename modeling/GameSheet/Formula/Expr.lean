import GameSheet.Formula.Phrase

/-!
# Expressions

An expression is a formula whose names have been checked: every call names a function of the registry it was read
under, and every reference says how its cell is found. `Expr.references` collects the references.
-/

namespace GameSheet.Formula

/-- How a reference to another sheet picks the row. -/
inductive RowSelector where
  /-- By a text: a row identifier, or the content of an identifying column. -/
  | named (identifier : String)
  /-- By position, from zero on. -/
  | index (n : Nat)
  deriving DecidableEq, Repr

/-- The selector as messages show it. -/
def RowSelector.shown : RowSelector → String
  | named identifier => identifier
  | index n => toString n

/-- A reference to a cell. Positions are offsets of first tokens. -/
inductive Reference where
  /-- Another column of the same row. -/
  | column (name : String) (position : Nat)
  /-- A column of the row above. -/
  | previous (column : String) (position : Nat)
  /-- A value of the settings sheet. -/
  | setting (key : String) (position : Nat)
  /-- A cell of any sheet. -/
  | cross (sheet : String) (row : RowSelector) (column : String) (position : Nat)
  deriving DecidableEq, Repr

/-- The offset of the first token of the reference. -/
def Reference.position : Reference → Nat
  | column _ p => p
  | previous _ p => p
  | setting _ p => p
  | cross _ _ _ p => p

/-- A formula whose names have been checked. -/
inductive Expr where
  | number (x : Float)
  | text (s : String) (position : Nat)
  | ref (r : Reference)
  | negate (operand : Expr)
  | binary (op : Operator) (left right : Expr)
  | call (name : String) (args : List Expr) (position : Nat)
  deriving Inhabited

namespace Expr

/-- Whether the expression is a bare string literal. -/
def isText : Expr → Bool
  | text _ _ => true
  | _ => false

mutual

/-- The references of the expression, from left to right. -/
def references : Expr → List Reference
  | number _ => []
  | text _ _ => []
  | ref r => [r]
  | negate e => references e
  | binary _ l r => references l ++ references r
  | call _ args _ => referencesOfAll args

/-- The references of several expressions. -/
def referencesOfAll : List Expr → List Reference
  | [] => []
  | e :: rest => references e ++ referencesOfAll rest

end

end Expr

end GameSheet.Formula
