import GameSheet.CommandLine.Command
import GameSheet.Options.Document
import GameSheet.Recalculation
import GameSheet.Table.Growth
import GameSheet.Text.Styling
import GameSheet.Workbook.Document

/-!
# Running commands

What a command prints, the exit code, the table that it writes to a file, and what it reports to the journal. A
command that cannot be carried out is refused with a message; where a file or an integer is at fault it is broken
off. Nothing is read or written here: the files are given, and what is to be written is part of the answer.
-/

namespace GameSheet.CommandLine

/-- The name and the version of the program. -/
def versionLine : String := "balancebook, version 0.3.0\n"

/-- What the program can be asked for. -/
def helpText : String :=
  "Usage: balancebook [OPTIONS] COMMAND [ARGS]...\n\nCommands: check, compute, curve, eval, functions\n"

/-- What a command that has been carried out leaves. -/
structure Printed where
  exit : Nat := 0
  out : String := ""
  err : String := ""
  /-- The table that is to be written, by its path. -/
  table : Option (String × String) := none
  /-- The directory of the journal, and what is reported to it. -/
  journal : Option (String × List Event) := none

/-- Why a command is refused. -/
inductive Refusal where
  | options (f : OptionsFault)
  | document (f : DocumentFault)
  | sheetNeeded
  | workbookNeeded
  | noSheet (name : String)
  | noRows (name : String)
  | unknownSheet (key : String)
  | unknownCategory (name : String)
  deriving DecidableEq, Repr

/-- Why a command is refused, in words. -/
def Refusal.message : Refusal → String
  | options f => f.message
  | document f => f.message
  | sheetNeeded => "--sheet is required with --workbook"
  | workbookNeeded => "--sheet and --row require --workbook"
  | noSheet label => "Sheet not found: " ++ label
  | noRows label => "Sheet " ++ label ++ " has no rows"
  | unknownSheet key => "Sheet not found: " ++ Text.quoted key
  | unknownCategory label =>
    "Unknown category: " ++ label ++ ". Choose from: " ++ ", ".intercalate categories

/-- Why a command is broken off. -/
inductive Abort where
  | overflow (e : Overflow)
  /-- A file that a document needs cannot be read, or data of the document is of a wrong sort. -/
  | document (f : DocumentFault)
  /-- There can be no journal at the place that the options name. -/
  | journal (f : FileFault)
  /-- The directory of a file that is to be written does not exist. -/
  | noDirectory (path : String)
  /-- A directory stands where a file is to be written. -/
  | isDirectory (path : String)
  deriving DecidableEq, Repr

/-- Why a command is broken off, in words. -/
def Abort.message : Abort → String
  | overflow e => e.message
  | document f => f.message
  | journal f => f.message
  | noDirectory path => "No such file or directory (os error 2): " ++ Path.plain path
  | isDirectory path => "expected a file path; " ++ Text.quoted (Path.plain path) ++ " is a directory"

/-- The line that says why a command is refused. -/
def Refusal.line (r : Refusal) : String :=
  Text.withoutStyling ("Error: " ++ r.message ++ "\n")

/-- How a command ends without being carried out. -/
inductive Stop where
  | refused (r : Refusal)
  | aborted (a : Abort)
  deriving DecidableEq, Repr

/-- What comes of some words. -/
inductive Answer where
  /-- They are no command. -/
  | usage
  | stopped (s : Stop)
  | printed (p : Printed)

/-! ## Printing -/

/-- A text filled up with blanks to a width. -/
def padded (width : Nat) (s : String) : String :=
  s ++ String.ofList (List.replicate (width - s.length) ' ')

/-- A text without the blanks at its end. -/
def withoutEnd (s : String) : String :=
  String.ofList (s.toList.reverse.dropWhile Text.isBlank).reverse

/-- The widths of the columns of some rows, at least those given. -/
def columnWidths (widths : List Nat) (rows : List (List String)) : List Nat :=
  rows.foldl (fun ws row => List.zipWith (fun w cell => max w cell.length) ws row) widths

/-- A line of a table with columns of certain widths. -/
def tableLine (widths : List Nat) (row : List String) : String :=
  withoutEnd ("  ".intercalate (List.zipWith padded widths row)) ++ "\n"

/-- A table with columns as wide as their widest cells. -/
def printedTable (headers : List String) (rows : List (List String)) : String :=
  let widths := columnWidths (headers.map String.length) rows
  String.join ((headers :: rows).map (tableLine widths))

/-- The line about a table that has been written. -/
def writtenLine (rows : Nat) (path : String) : String :=
  "Wrote " ++ toString rows ++ " rows to " ++ path ++ "\n"

/-! ## Reading what a command needs -/

/-- A text that is given and not empty. -/
def nonEmpty? (s : Option String) : Option String :=
  s.filter fun t => !t.isEmpty

/-- The options that a path leads to, where the journal that they ask for can be made. -/
def loadOptions (files : Files) (path : Option String) : Except Stop Options :=
  match (Options.load files path).1 with
  | .error f => .error (.refused (.options f))
  | .ok options =>
    match (nonEmpty? options.logDirectory).bind files.directoryFault? with
    | some f => .error (.aborted (.journal f))
    | none => .ok options

/-- Whether a fault breaks the command off: it lies in a file that the document needs, or in data of the document that
is of a wrong sort. -/
def breaksOff : DocumentFault → Bool
  | .file _ | .noSource _ | .table _ | .noParts _ | .noCells _ | .noPath _ => true
  | _ => false

/-- The workbook in a file. -/
def loadWorkbook (files : Files) (path : String) : Except Stop Workbook :=
  (Workbook.load files path).mapError fun f =>
    if breaksOff f then .aborted (.document f) else .refused (.document f)

/-- The journal that options ask for, with some reports. -/
def journalOf (options : Options) (events : List Event) : Option (String × List Event) :=
  (nonEmpty? options.logDirectory).map fun d => (d, events)

/-- Whether there is a directory at a path once there is one for the journal. -/
def hasDirectory (files : Files) (options : Options) (path : String) : Bool :=
  files.isDirectory path ||
    (nonEmpty? options.logDirectory).elim false fun d => (Path.place path).isPrefixOf (Path.place d)

/-- Why no table can be written at a path, if something stands in the way. -/
def targetFault? (files : Files) (options : Options) (path : String) : Option Abort :=
  if hasDirectory files options path then some (.isDirectory path)
  else if hasDirectory files options (Path.parent path) then none
  else some (.noDirectory path)

/-! ## The commands -/

/-- The row of a sheet that a request names, or the first one. -/
def requestedRow (sheetName : String) (sheet : Sheet) (row : Option String) : Except Stop String :=
  match row, sheet.rows with
  | some id, _ => .ok id
  | none, r :: _ => .ok r.id
  | none, [] => .error (.refused (.noRows sheetName))

/-- The context of a request. -/
def requestedContext (files : Files) (r : EvalRequest) : Except Stop (Option Context) :=
  match r.workbook with
  | none =>
    if (nonEmpty? r.sheet).isSome || (nonEmpty? r.row).isSome then .error (.refused .workbookNeeded) else .ok none
  | some path => do
    let workbook ← loadWorkbook files path
    match nonEmpty? r.sheet with
    | none => .error (.refused .sheetNeeded)
    | some label =>
      match workbook.sheet? label with
      | none => .error (.refused (.noSheet label))
      | some sheet => do
        let row ← requestedRow label sheet r.row
        .ok (some { workbook := workbook, sheet := sheet.id, row := row })

/-- The text of an outcome: as JSON, or for a reader with the warnings beside it. -/
def printOutcome (json : Bool) (o : Outcome) : Printed where
  exit := if o.failure?.isSome then 1 else 0
  out := (if json then o.toData.jsonLines else o.display) ++ "\n"
  err := if json then "" else String.join (o.warnings.map fun w => "  Warning: " ++ w.message ++ "\n")

/-- Evaluates a formula. -/
def runEval (files : Files) (r : EvalRequest) : Except Stop Printed := do
  let options ← loadOptions files r.config
  let context ← requestedContext files r
  let outcome := ({ options := options } : Engine).evaluate context r.formula
  .ok { printOutcome r.json outcome with
    journal := journalOf options (outcome.report context r.formula).toList }

/-- Checks a formula. -/
def runCheck (formula : String) : Printed :=
  match Formula.validate Registry.standard formula with
  | none => { out := "OK\n" }
  | some e => { exit := 1, err := "Error: " ++ e.message ++ "\n" }

/-- A function as document data. -/
def functionData (f : FunctionSpec) : Data :=
  .mapping [
    ("name", .text f.name),
    ("category", .text f.category),
    ("syntax", .text f.signature),
    ("example", .text f.sample),
    ("description", .text f.description)]

/-- The lines of a category. -/
def categoryLines (functions : List FunctionSpec) (category : String) : List String :=
  match functions.filter (·.category == category) with
  | [] => []
  | fs => (category ++ ":\n") :: fs.map fun f => "  " ++ padded 45 f.signature ++ " " ++ f.description ++ "\n"

/-- Lists the functions. -/
def runFunctions (category : Option String) (json : Bool) : Except Stop Printed :=
  match category.filter fun c => !categories.contains c with
  | some c => .error (.refused (.unknownCategory c))
  | none =>
    let functions := Registry.standard.metadata category
    let out :=
      if json then (Data.list (functions.map functionData)).jsonLines ++ "\n"
      else String.join (categories.flatMap (categoryLines functions))
    .ok { out := out }

/-- The computed sheet as it is printed or written. -/
def printComputed (target : Option String) (computed : ComputedSheet) : Printed :=
  let failures := computed.failures.length
  let err := if failures = 0 then "" else toString failures ++ " formula error(s)\n"
  match target with
  | some path =>
    { out := writtenLine computed.sheet.rows.length path
      err := err
      table := some (path, computed.table.separated) }
  | none => { out := printedTable (computed.sheet.columns.map Column.name) computed.displayRows, err := err }

/-- Recomputes a sheet. -/
def runCompute (files : Files) (r : ComputeRequest) : Except Stop Printed := do
  let options ← loadOptions files r.config
  let workbook ← loadWorkbook files r.workbook
  match workbook.sheet? r.sheet with
  | none => .error (.refused (.unknownSheet r.sheet))
  | some sheet =>
    match ({ options := options } : Engine).computeSheet workbook sheet with
    | (.error e, _) => .error (.aborted (.overflow e))
    | (.ok computed, events) =>
      let target := nonEmpty? r.target
      match target.bind (targetFault? files options) with
      | some a => .error (.aborted a)
      | none => .ok { printComputed target computed with journal := journalOf options events }

/-- A value of a growth table as it is printed. -/
def growthText : RawCell → String
  | .float x => Decimal.displayText x
  | c => c.shown

/-- Gives a growth table. -/
def runCurve (files : Files) (r : CurveRequest) : Except Stop Printed :=
  let table :=
    if r.compare then Table.comparison r.base r.rate r.levels
    else Table.growth r.base r.rate (Balance.Curve.ofName r.curve) r.levels
  match nonEmpty? r.target with
  | none => .ok { out := printedTable table.headers (table.records.map fun record =>
      record.map fun (_, c) => growthText c) }
  | some path =>
    match targetFault? files .standard path with
    | some a => .error (.aborted a)
    | none => .ok { out := writtenLine table.height path, table := some (path, table.separated) }

/-- What comes of a command. -/
def runCommand (files : Files) : Command → Except Stop Printed
  | .help => .ok { out := helpText }
  | .version => .ok { out := versionLine }
  | .eval r => runEval files r
  | .check formula => .ok (runCheck formula)
  | .functions category json => runFunctions category json
  | .compute r => runCompute files r
  | .curve r => runCurve files r

/-- What is printed, without the sequences that style it on a terminal. -/
def Printed.plain (p : Printed) : Printed :=
  { p with out := Text.withoutStyling p.out, err := Text.withoutStyling p.err }

/-- What comes of some words. -/
def answer (files : Files) (words : List String) : Answer :=
  match Command.ofWords? files words with
  | none => .usage
  | some command =>
    match runCommand files command with
    | .ok p => .printed p.plain
    | .error s => .stopped s

end GameSheet.CommandLine
