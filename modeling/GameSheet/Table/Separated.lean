import GameSheet.Table.Basic
import GameSheet.Decimal.Reading
import GameSheet.Text.Quoted
import GameSheet.Text.Upper

/-!
# Comma-separated values

Tables as texts: a line of headers, and a line for each record with commas between the values. A value between double
quotes may hold commas, line ends and, written twice, double quotes.

* `Table.ofSeparated` reads such a text. What the values of a field look like decides its sort: all `true` or
  `false`, all integers, all numbers, or else texts. An empty value is missing, one between quotes is a text.
* `Table.separated` writes a table. Texts stand between quotes only where they have to.

The program reads tables so. What is made of a table does not depend on it: the files of a run come with readers of
their own (`Formats`).
-/

namespace GameSheet

/-! ## Pieces of a text -/

/-- A value as it is written: its characters, and whether it stands between quotes. -/
structure Piece where
  quoted : Bool
  chars : List Char
  deriving DecidableEq, Repr

/-- Where in a value a scan stands. -/
inductive PieceState where
  /-- Before its first character. -/
  | fresh
  /-- Inside a value, or after the closing quote of one. -/
  | plain
  /-- Between the quotes. -/
  | open
  /-- After a quote inside the quotes: the closing one, or the first of two. -/
  | half
  deriving DecidableEq, Repr

/-- A scan of a text: the records, the pieces of the record at hand, and the characters of the piece at hand, each
last first. -/
structure PieceScan where
  records : List (List Piece) := []
  pieces : List Piece := []
  quoted : Bool := false
  chars : List Char := []
  state : PieceState := .fresh

namespace PieceScan

/-- The scan with one more character in the piece at hand. -/
def push (s : PieceScan) (c : Char) (state : PieceState) : PieceScan :=
  { s with chars := c :: s.chars, state := state }

/-- The scan after a comma. -/
def endPiece (s : PieceScan) : PieceScan :=
  ⟨s.records, ⟨s.quoted, s.chars.reverse⟩ :: s.pieces, false, [], .fresh⟩

/-- The scan after the end of a line; a carriage return before it does not count. -/
def endRecord (s : PieceScan) : PieceScan :=
  let chars := match s.chars with
    | '\r' :: rest => rest
    | chars => chars
  ⟨(⟨s.quoted, chars.reverse⟩ :: s.pieces).reverse :: s.records, [], false, [], .fresh⟩

/-- The scan after one more character. -/
def step (s : PieceScan) (c : Char) : PieceScan :=
  match s.state with
  | .open => if c = '"' then { s with state := .half } else s.push c .open
  | state =>
    if c = '"' && state == .half then s.push c .open
    else if c = '"' && state == .fresh then { s with quoted := true, state := .open }
    else if c = ',' then s.endPiece
    else if c = '\n' then s.endRecord
    else s.push c .plain

/-- The records of a scan that has come to the end of the text. -/
def finish (s : PieceScan) : List (List Piece) :=
  if s.state = .fresh && s.pieces.isEmpty then s.records.reverse else s.endRecord.records.reverse

end PieceScan

/-- The records of a text. -/
def pieceRecords (cs : List Char) : List (List Piece) :=
  (cs.foldl PieceScan.step {}).finish

/-! ## The sort of a field -/

/-- The truth value that a text is, in any case of letters. -/
def boolOfChars? (cs : List Char) : Option Bool :=
  let word := Text.lowerAscii (String.ofList cs)
  if word = "true" then some true else if word = "false" then some false else none

/-- The integer that a text is, blanks before it aside: digits, with a minus sign if negative. -/
def intOfChars? (cs : List Char) : Option Int :=
  let digits? (digits : List Char) : Option Int :=
    if digits ≠ [] && digits.all Text.isAsciiDigit then some (Text.digitsValue digits) else none
  match cs.dropWhile Text.isBlank with
  | '-' :: digits => (digits? digits).map fun n => -n
  | digits => digits? digits

/-- The number with a point or an exponent that a text is, or an infinity or NaN. -/
def decimalOfChars? (cs : List Char) : Option Float :=
  let (sign, cs) := Decimal.scanSign cs
  if cs = ['i', 'n', 'f'] then some (Decimal.signed sign (1.0 / 0.0))
  else if cs = ['N', 'a', 'N'] then some (0.0 / 0.0)
  else
    (Decimal.Numeral.ofChars? Text.isAsciiDigit cs).bind fun n =>
      let bare := n.fraction.isNone && n.power.isNone
      let cut := n.fraction == some [] && n.power.isSome
      if bare || cut then none else some (Decimal.signed sign n.value)

/-- The number that a text is, an integer or one with a point or an exponent. -/
def numberOfChars? (cs : List Char) : Option Float :=
  (intOfChars? cs).map Float.ofInt <|> decimalOfChars? cs

/-- The values of some pieces by a reading of texts, if each piece can be read; texts between quotes cannot. -/
def readPieces? {α : Type} (read : List Char → Option α) (pieces : List (Option Piece)) : Option (List (Option α)) :=
  pieces.mapM fun piece =>
    match piece with
    | none => some none
    | some p => if p.quoted then none else (read p.chars).map some

/-- The series of some pieces, missing ones being none. -/
def Series.ofPieces (pieces : List (Option Piece)) : Series :=
  let texts := Series.texts (pieces.map fun piece => piece.map fun p => String.ofList p.chars)
  if pieces.all Option.isNone then texts
  else
    (readPieces? boolOfChars? pieces).elim
      ((readPieces? intOfChars? pieces).elim
        ((readPieces? numberOfChars? pieces).elim texts .floats) .ints) .bools

/-! ## Reading -/

/-- Why a text is no table. -/
inductive TableFault where
  /-- The text has no line. -/
  | noData
  /-- A record has more values than there are headers. -/
  | tooManyValues
  deriving DecidableEq, Repr

/-- What is wrong, in words. -/
def TableFault.message : TableFault → String
  | noData => "empty CSV"
  | tooManyValues => "found more fields than defined in 'Schema'\n\nConsider setting 'truncate_ragged_lines=True'."

/-- The headers with a mark at each one that has come before. -/
def distinctHeaders (seen : List String) : List String → List String
  | [] => []
  | header :: rest =>
    let count := seen.count header
    (if count = 0 then header else header ++ "_duplicated_" ++ toString (count - 1)) ::
      distinctHeaders (header :: seen) rest

/-- The piece at a place of a record, if it is not missing. -/
def pieceAt (record : List Piece) (place : Nat) : Option Piece :=
  (record[place]?).filter fun p => p.quoted || !p.chars.isEmpty

/-- Whether a record comes from an empty line. -/
def isEmptyRecord (record : List Piece) : Bool :=
  record == [⟨false, []⟩]

/-- The table of some headers and records. -/
def Table.ofRecords (headers : List Piece) (records : List (List Piece)) : Except TableFault Table :=
  let records := if headers.length = 1 then records else records.filter fun r => !isEmptyRecord r
  if records.any fun r => headers.length < r.length then .error .tooManyValues
  else
    let names := distinctHeaders [] (headers.map fun p => String.ofList p.chars)
    .ok ⟨names.zipIdx.map fun (name, place) => ⟨name, .ofPieces (records.map fun r => pieceAt r place)⟩⟩

/-- The table that a text of comma-separated values is. -/
def Table.ofSeparated (text : String) : Except TableFault Table :=
  let cs := text.toList.dropWhile fun c => c = '\uFEFF' || c = '\n' || c = '\r'
  match pieceRecords cs with
  | [] => .error .noData
  | headers :: records => Table.ofRecords headers records

/-! ## Writing -/

/-- Whether a text has to stand between quotes: if it is empty, so that it is not taken for a missing one, or holds
a comma, a quote or a line end. -/
def needsQuotes (cs : List Char) : Bool :=
  cs.isEmpty || cs.any fun c => c = ',' || c = '"' || c = '\n' || c = '\r'

/-- A text as a value. -/
def separatedText (s : String) : String :=
  let cs := s.toList
  if needsQuotes cs then
    String.ofList ('"' :: cs.flatMap (fun c => if c = '"' then ['"', '"'] else [c]) ++ ['"'])
  else s

/-- Raw data as a value. -/
def separatedCell : RawCell → String
  | .null => ""
  | .bool b => if b then "true" else "false"
  | .int n => toString n
  | .float x => Decimal.tableText x
  | .text s => separatedText s

/-- Some values as a line. -/
def separatedLine (values : List String) : String :=
  ",".intercalate values ++ "\n"

/-- The table as a text of comma-separated values. -/
def Table.separated (t : Table) : String :=
  separatedLine (t.headers.map separatedText) ++
    String.join (t.records.map fun r => separatedLine (r.map fun (_, c) => separatedCell c))

end GameSheet
