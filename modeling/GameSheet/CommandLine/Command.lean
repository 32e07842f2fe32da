import GameSheet.CommandLine.Arguments
import GameSheet.Decimal.Reading
import GameSheet.File.Basic

/-!
# Commands

What a user may ask for on the command line. `Command.ofWords?` gives the command that some words are, or nothing if
they are none: an unknown command, a missing or unsuited word, or a path that leads nowhere.
-/

namespace GameSheet.CommandLine

/-- What a formula is to be evaluated with. -/
structure EvalRequest where
  formula : String
  workbook : Option String
  sheet : Option String
  row : Option String
  config : Option String
  json : Bool
  deriving DecidableEq, Repr

/-- What a sheet is to be recomputed with. -/
structure ComputeRequest where
  workbook : String
  sheet : String
  target : Option String
  config : Option String
  deriving DecidableEq, Repr

/-- Which growth table is asked for. -/
structure CurveRequest where
  base : Float
  rate : Float
  curve : String
  levels : Nat
  compare : Bool
  target : Option String
  deriving DecidableEq

/-- A request of a user. -/
inductive Command where
  | help
  | version
  | eval (r : EvalRequest)
  | check (formula : String)
  | functions (category : Option String) (json : Bool)
  | compute (r : ComputeRequest)
  | curve (r : CurveRequest)
  deriving DecidableEq

namespace Command

/-- An option that takes a value. -/
def valued (name : String) : OptionSpec := ⟨name, true⟩

/-- An option that takes none. -/
def flag (name : String) : OptionSpec := ⟨name, false⟩

/-- The options of every command. -/
def helpFlag : OptionSpec := flag "--help"

/-- The path that an option gives, which must lead somewhere: nothing at all if it does not. -/
def existing? (files : Files) (path : Option String) : Option (Option String) :=
  match path with
  | none => some none
  | some p => if files.contains p then some (some p) else none

/-- The whole number that a word denotes: decimal digits with an optional sign, in which underscores may stand
between digits, between blanks. -/
def wholeNumber? (word : String) : Option Int :=
  let (sign, cs) := Decimal.scanSign (Text.trim word.toList)
  let digits := Decimal.dropUnderscores cs
  if digits ≠ [] && digits.all Text.isDigit then
    let n : Int := Text.digitsValue digits
    some (if sign = some '-' then -n else n)
  else none

/-- The number of levels that a word denotes, which is at least one. -/
def levels? (word : Option String) : Option Nat :=
  match word with
  | none => some 100
  | some w => (wholeNumber? w).bind fun n => if 1 ≤ n then some n.toNat else none

/-- The request to evaluate a formula. -/
def evalOf? (files : Files) (words : List String) : Option Command := do
  let a ← Arguments.ofWords?
    [valued "--workbook", valued "--sheet", valued "--row", valued "--config", flag "--json", helpFlag] true words
  if a.has "--help" then some help
  else
    let workbook ← existing? files (a.value? "--workbook")
    let config ← existing? files (a.value? "--config")
    match a.operands with
    | [formula] => some (eval ⟨formula, workbook, a.value? "--sheet", a.value? "--row", config, a.has "--json"⟩)
    | _ => none

/-- The request to check a formula. -/
def checkOf? (words : List String) : Option Command := do
  let a ← Arguments.ofWords? [helpFlag] true words
  if a.has "--help" then some help
  else
    match a.operands with
    | [formula] => some (check formula)
    | _ => none

/-- The request to list functions. -/
def functionsOf? (words : List String) : Option Command := do
  let a ← Arguments.ofWords? [valued "--category", flag "--json", helpFlag] true words
  if a.has "--help" then some help
  else
    match a.operands with
    | [] => some (functions (a.value? "--category") (a.has "--json"))
    | _ => none

/-- The request to recompute a sheet. -/
def computeOf? (files : Files) (words : List String) : Option Command := do
  let a ← Arguments.ofWords? [valued "--sheet", valued "--csv", valued "--config", helpFlag] true words
  if a.has "--help" then some help
  else
    let sheet ← a.value? "--sheet"
    let config ← existing? files (a.value? "--config")
    match a.operands with
    | [workbook] =>
      if files.contains workbook then some (compute ⟨workbook, sheet, a.value? "--csv", config⟩) else none
    | _ => none

/-- The request for a growth table. -/
def curveOf? (words : List String) : Option Command := do
  let a ← Arguments.ofWords?
    [valued "--type", valued "--max-level", flag "--compare", valued "--csv", helpFlag] true words
  if a.has "--help" then some help
  else
    let levels ← levels? (a.value? "--max-level")
    match a.operands with
    | [base, rate] => do
      let base ← Decimal.floatText? base
      let rate ← Decimal.floatText? rate
      some (curve ⟨base, rate, (a.value? "--type").getD "linear", levels, a.has "--compare", a.value? "--csv"⟩)
    | _ => none

/-- The command that some words are. -/
def ofWords? (files : Files) (words : List String) : Option Command := do
  let a ← Arguments.ofWords? [flag "--version", helpFlag] false words
  match a.flags with
  | "--version" :: _ => some version
  | _ :: _ => some help
  | [] =>
    match a.operands with
    | "eval" :: rest => evalOf? files rest
    | "check" :: rest => checkOf? rest
    | "functions" :: rest => functionsOf? rest
    | "compute" :: rest => computeOf? files rest
    | "curve" :: rest => curveOf? rest
    | _ => none

end Command

end GameSheet.CommandLine
