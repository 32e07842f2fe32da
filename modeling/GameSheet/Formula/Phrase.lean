import GameSheet.Formula.Scan

/-!
# Phrases

A phrase is a formula as it is written: names are not looked up yet and a call may name any function. Its
structure follows the precedence of the operators, from the loosest to the tightest: comparisons, `+` and `-`,
`*` and `/`, signs, `^`. Parentheses and plus signs leave no trace.
-/

namespace GameSheet.Formula

/-- The operators between two operands. -/
inductive Operator where
  | add
  | sub
  | mul
  | div
  | pow
  | lt
  | gt
  | le
  | ge
  | eq
  | ne
  deriving DecidableEq, Repr

namespace Operator

/-- The operator of a token; `==` is `=` and `<>` is `!=`. -/
def ofChars? : List Char → Option Operator
  | ['+'] => some add
  | ['-'] => some sub
  | ['*'] => some mul
  | ['/'] => some div
  | ['^'] => some pow
  | ['<'] => some lt
  | ['>'] => some gt
  | ['<', '='] => some le
  | ['>', '='] => some ge
  | ['='] => some eq
  | ['=', '='] => some eq
  | ['!', '='] => some ne
  | ['<', '>'] => some ne
  | _ => none

/-- How the operator is written in messages. -/
def symbol : Operator → String
  | add => "+"
  | sub => "-"
  | mul => "*"
  | div => "/"
  | pow => "^"
  | lt => "<"
  | gt => ">"
  | le => "<="
  | ge => ">="
  | eq => "="
  | ne => "!="

/-- How tightly the operator binds. -/
def level : Operator → Nat
  | lt | gt | le | ge | eq | ne => 1
  | add | sub => 2
  | mul | div => 3
  | pow => 5

end Operator

/-- How tightly a sign binds: tighter than `*`, looser than `^`. -/
def signLevel : Nat := 4

/-- A formula as it is written. Positions are offsets of first tokens. -/
inductive Phrase where
  | number (x : Float)
  | text (s : String) (position : Nat)
  | name (name : String) (position : Nat)
  | dotted (qualifier field : String) (position : Nat)
  | negate (operand : Phrase)
  | binary (op : Operator) (left right : Phrase)
  | call (name : String) (args : List Phrase) (position : Nat)
  deriving Inhabited

namespace Phrase

/-- The phrase that a single token is, if it is an operand by itself. -/
def ofToken? (t : Token) : Option Phrase :=
  match t.kind with
  | .number => (Decimal.Numeral.ofChars? Text.isDigit t.chars).map fun n => number n.value
  | .string => some (text (String.ofList (unescape t.chars)) t.position)
  | .identifier => some (name t.text t.position)
  | .dottedIdentifier =>
    some (dotted (String.ofList (t.chars.takeWhile (· != '.')))
      (String.ofList ((t.chars.dropWhile (· != '.')).drop 1)) t.position)
  | _ => none

end Phrase

end GameSheet.Formula
