import GameSheet.Formula.Expr
import GameSheet.Formula.Reading
import GameSheet.Function.Registry

/-!
# Parsing formulas

A formula body is read to a phrase (`readPhrase`), and the names of the phrase are checked against a registry
(`Phrase.check`). An error of the text comes before any error of a name, and among the names the innermost and
leftmost one counts.

* `parse` reads a body, the text after the `=` marker.
* `validate` reads the text of a cell, with or without the marker.
-/

namespace GameSheet.Formula

/-- What is wrong with a formula text. -/
inductive SyntaxFault where
  | empty
  | unmatchedParenthesis
  | unexpectedEnd
  | unexpectedToken (text : String)
  | unknownQualifier (qualifier : String)
  | unknownFunction (name : String)
  | arity (name arity : String) (count : Nat)
  | referenceArgument (index : Nat)
  deriving DecidableEq, Repr

/-- What is wrong, in words. -/
def SyntaxFault.message : SyntaxFault → String
  | empty => "empty formula"
  | unmatchedParenthesis => "unmatched parenthesis"
  | unexpectedEnd => "unexpected end of formula"
  | unexpectedToken text => "unexpected token " ++ Text.quoted text
  | unknownQualifier qualifier =>
    "unknown reference prefix " ++ Text.quoted qualifier ++ " (expected PREV or Settings)"
  | unknownFunction name => "unknown function: " ++ name
  | arity name accepted count => FunctionSpec.arityMessage name accepted count
  | referenceArgument index => "REF argument " ++ toString index ++ " must be a name or string literal"

/-- Why a text is no formula. -/
inductive ParseError where
  /-- A character starts no token. -/
  | misfit (m : Misfit)
  /-- The tokens are no formula, or a name does not fit. -/
  | fault (fault : SyntaxFault) (position : Nat)
  deriving DecidableEq, Repr

namespace ParseError

/-- What is wrong and where, in words. -/
def message : ParseError → String
  | misfit m => "unexpected character " ++ Text.quoted (String.singleton m.char) ++ " at position " ++
      toString m.position
  | fault f position => f.message ++ " (at position " ++ toString position ++ ")"

/-- The offset of the error. -/
def position : ParseError → Nat
  | misfit m => m.position
  | fault _ position => position

end ParseError

/-! ## From text to phrase -/

/-- The error of a token with which no formula goes on. -/
def wrongToken (t : Token) : ParseError :=
  if t.kind = .rightParen then .fault .unmatchedParenthesis t.position
  else .fault (.unexpectedToken t.text) t.position

/-- The phrase that a text is. The first wrong token or misfit character counts, and only a text without either
can end too early. -/
def readPhrase (cs : List Char) : Except ParseError Phrase :=
  if cs.all Text.isBlank then .error (.fault .empty 0)
  else
    let (tokens, misfit) := scan cs
    match Reading.start.steps tokens with
    | .error t => .error (wrongToken t)
    | .ok reading =>
      match misfit with
      | some m => .error (.misfit m)
      | none =>
        match reading.finish with
        | .ok phrase => .ok phrase
        | .error .parenthesis => .error (.fault .unmatchedParenthesis cs.length)
        | .error .operand => .error (.fault .unexpectedEnd cs.length)

/-! ## From phrase to expression -/

/-- The qualifier of references to the row above. -/
def previousQualifier : String := "PREV"

/-- The qualifier of references to the settings sheet. -/
def settingsQualifier : String := "Settings"

/-- The key of the function that refers to cells of other sheets. -/
def referenceKey : String := "REF"

/-- The name that an argument of a reference gives: a string literal or a bare name. -/
def Expr.asName? : Expr → Option String
  | .text s _ => some s
  | .ref (.column name _) => some name
  | _ => none

/-- The row that an argument of a reference picks: by a name or by a whole number from zero on. -/
def Expr.asRow? (e : Expr) : Option RowSelector :=
  match e with
  | .number x => if Decimal.isWhole x && 0.0 ≤ x then some (.index (Decimal.truncInt x).toNat) else none
  | _ => e.asName?.map .named

/-- The reference that a call with three arguments makes. -/
def crossReference (args : List Expr) (position : Nat) : Except ParseError Expr :=
  match args with
  | [sheet, row, column] =>
    match sheet.asName?, row.asRow?, column.asName? with
    | none, _, _ => .error (.fault (.referenceArgument 1) position)
    | some _, none, _ => .error (.fault (.referenceArgument 2) position)
    | some _, some _, none => .error (.fault (.referenceArgument 3) position)
    | some sheet, some row, some column => .ok (.ref (.cross sheet row column position))
  | _ => .error (.fault (.arity referenceKey "exactly 3" args.length) position)

/-- The expression of a call whose arguments have been checked. -/
def checkCall (registry : Registry) (name : String) (args : List Expr) (position : Nat) : Except ParseError Expr :=
  match registry.find? name with
  | none => .error (.fault (.unknownFunction name) position)
  | some f =>
    if f.accepts args.length then
      if Text.upper name = referenceKey then crossReference args position
      else .ok (.call (Text.upper name) args position)
    else .error (.fault (.arity (Text.upper name) f.arityText args.length) position)

mutual

/-- The expression that a phrase is under a registry. -/
def Phrase.check (registry : Registry) : Phrase → Except ParseError Expr
  | .number x => .ok (.number x)
  | .text s position => .ok (.text s position)
  | .name label position => .ok (.ref (.column label position))
  | .dotted qualifier field position =>
    if qualifier = previousQualifier then .ok (.ref (.previous field position))
    else if qualifier = settingsQualifier then .ok (.ref (.setting field position))
    else .error (.fault (.unknownQualifier qualifier) position)
  | .negate operand => do .ok (.negate (← operand.check registry))
  | .binary op left right => do
    let left ← left.check registry
    let right ← right.check registry
    .ok (.binary op left right)
  | .call callee args position => do
    let args ← Phrase.checkAll registry args
    checkCall registry callee args position

/-- The expressions that several phrases are. -/
def Phrase.checkAll (registry : Registry) : List Phrase → Except ParseError (List Expr)
  | [] => .ok []
  | p :: rest => do
    let e ← p.check registry
    let es ← Phrase.checkAll registry rest
    .ok (e :: es)

end

/-! ## Parsing -/

/-- The expression that a formula body is. -/
def parse (registry : Registry) (body : String) : Except ParseError Expr := do
  let phrase ← readPhrase body.toList
  phrase.check registry

/-- What is wrong with the formula in a cell, if anything is. -/
def validate (registry : Registry) (text : String) : Option ParseError :=
  match parse registry (stripMarker text) with
  | .ok _ => none
  | .error e => some e

end GameSheet.Formula
