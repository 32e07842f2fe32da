import GameSheet.Data
import GameSheet.Decimal.Reading

/-!
# JSON texts

Data written and read as JSON.

* `Data.json` writes on one line with `, ` and `: ` between the parts; `Data.jsonLines` writes a part to a line,
  indented by two more spaces per level. Both write ASCII only: other characters become escapes of their UTF-16
  units.
* `Data.readJson` reads one JSON value between blanks. Besides JSON it takes `NaN`, `Infinity` and `-Infinity`,
  which the writers produce for these floats. Of entries with one key the last value counts. A reader may have limits
  (`Data.Reader`): where it comes upon one of them it stops, whether the text is JSON or not.
-/

namespace GameSheet.Data

open GameSheet.Text

/-! ## Writing -/

/-- The escape of one UTF-16 unit. -/
def unitEscape (unit : Nat) : List Char :=
  '\\' :: 'u' :: hex 4 unit

/-- One character of a JSON string. -/
def jsonChar (c : Char) : List Char :=
  if c = '"' || c = '\\' then ['\\', c]
  else if c = '\n' then ['\\', 'n']
  else if c = '\r' then ['\\', 'r']
  else if c = '\t' then ['\\', 't']
  else if c.toNat = 8 then ['\\', 'b']
  else if c.toNat = 12 then ['\\', 'f']
  else if 0x20 ≤ c.toNat && c.toNat < 0x7F then [c]
  else if c.toNat < 0x10000 then unitEscape c.toNat
  else
    let above := c.toNat - 0x10000
    unitEscape (0xD800 + above / 0x400) ++ unitEscape (0xDC00 + above % 0x400)

/-- A JSON string. -/
def jsonString (s : String) : String :=
  String.ofList ('"' :: s.toList.flatMap jsonChar ++ ['"'])

/-- A scalar in JSON; the other data is written by its parts. -/
def jsonScalar : Data → String
  | null => "null"
  | bool b => if b then "true" else "false"
  | int n => toString n
  | float x => Decimal.jsonText x
  | text s => jsonString s
  | list _ => "[]"
  | mapping _ => "\x7b\x7d"

mutual

/-- The data as JSON on one line. -/
def json : Data → String
  | list items => "[" ++ ", ".intercalate (jsonItems items) ++ "]"
  | mapping entries => "\x7b" ++ ", ".intercalate (jsonEntries entries) ++ "\x7d"
  | d => jsonScalar d

/-- The items of a list as JSON. -/
def jsonItems : List Data → List String
  | [] => []
  | d :: rest => json d :: jsonItems rest

/-- The entries of a mapping as JSON. -/
def jsonEntries : List (String × Data) → List String
  | [] => []
  | (key, d) :: rest => (jsonString key ++ ": " ++ json d) :: jsonEntries rest

end

/-- A line break followed by the blanks of a level. -/
def lineBreak (level : Nat) : String :=
  String.ofList ('\n' :: List.replicate (2 * level) ' ')

mutual

/-- The data as JSON with a part to a line, inside `level` enclosing levels. -/
def jsonLinesAt (level : Nat) : Data → String
  | list (d :: rest) =>
    let line := lineBreak (level + 1)
    "[" ++ line ++ ("," ++ line).intercalate (jsonLinesItems (level + 1) (d :: rest)) ++ lineBreak level ++ "]"
  | mapping (e :: rest) =>
    let line := lineBreak (level + 1)
    "\x7b" ++ line ++ ("," ++ line).intercalate (jsonLinesEntries (level + 1) (e :: rest)) ++
      lineBreak level ++ "\x7d"
  | d => jsonScalar d

/-- The items of a list, each over lines of its own. -/
def jsonLinesItems (level : Nat) : List Data → List String
  | [] => []
  | d :: rest => jsonLinesAt level d :: jsonLinesItems level rest

/-- The entries of a mapping, each over lines of its own. -/
def jsonLinesEntries (level : Nat) : List (String × Data) → List String
  | [] => []
  | (key, d) :: rest => (jsonString key ++ ": " ++ jsonLinesAt level d) :: jsonLinesEntries level rest

end

/-- The data as JSON with a part to a line. -/
def jsonLines (d : Data) : String :=
  jsonLinesAt 0 d

mutual

/-- The data with the entries of every mapping in the order of their keys. -/
def sortKeys : Data → Data
  | list items => list (sortItems items)
  | mapping entries => mapping ((sortEntries entries).mergeSort fun a b => a.1 ≤ b.1)
  | d => d

/-- The items of a list with sorted keys inside. -/
def sortItems : List Data → List Data
  | [] => []
  | d :: rest => sortKeys d :: sortItems rest

/-- The entries of a mapping with sorted keys inside. -/
def sortEntries : List (String × Data) → List (String × Data)
  | [] => []
  | (key, d) :: rest => (key, sortKeys d) :: sortEntries rest

end

/-! ## Reading -/

/-- The replacement character. -/
def replacement (_ : Nat) : Char := '\uFFFD'

/-- How JSON is read: how many digits an integer may have and how many lists and mappings may lie in each other, without
bound if none is given, and what is put in the place of a surrogate that stands alone and so is no character. -/
structure Reader where
  digits : Option Nat := none
  levels : Option Nat := none
  standIn : Nat → Char := replacement

/-- The limit on digits that readers have. -/
def Reader.standard : Reader where
  digits := some 4300

/-- What a reader cannot bear. -/
inductive Overload where
  | digits (limit count : Nat)
  /-- A list or a mapping lies too deep. -/
  | levels (sort : String)
  deriving DecidableEq, Repr

/-- What is wrong, in words. -/
def Overload.message : Overload → String
  | digits limit count =>
    "Exceeds the limit (" ++ toString limit ++ " digits) for integer string conversion: value has " ++ toString count ++
      " digits; use sys.set_int_max_str_digits() to increase the limit"
  | levels sort => "maximum recursion depth exceeded while decoding a JSON " ++ sort ++ " from a unicode string"

/-- Why no data is read from a text. -/
inductive JsonFault where
  | malformed
  | overload (o : Overload)
  deriving DecidableEq, Repr

/-- The blanks of a JSON text. -/
def isJsonBlank (c : Char) : Bool :=
  c = ' ' || c = '\t' || c = '\n' || c = '\r'

/-- Without the blanks at the start. -/
def skipBlanks (cs : List Char) : List Char :=
  cs.dropWhile isJsonBlank

/-- The value of a hexadecimal digit. -/
def hexValue? (c : Char) : Option Nat :=
  if '0' ≤ c && c ≤ '9' then some (c.toNat - '0'.toNat)
  else if 'a' ≤ c && c ≤ 'f' then some (c.toNat - 'a'.toNat + 10)
  else if 'A' ≤ c && c ≤ 'F' then some (c.toNat - 'A'.toNat + 10)
  else none

/-- The UTF-16 unit that four hexadecimal digits denote. -/
def unit? (a b c d : Char) : Option Nat := do
  some ((((← hexValue? a) * 16 + (← hexValue? b)) * 16 + (← hexValue? c)) * 16 + (← hexValue? d))

/-- A surrogate that comes first in a pair. -/
def isHighSurrogate (unit : Nat) : Bool :=
  0xD800 ≤ unit && unit < 0xDC00

/-- A surrogate that comes second in a pair. -/
def isLowSurrogate (unit : Nat) : Bool :=
  0xDC00 ≤ unit && unit < 0xE000

/-- The character of a code point, or what stands in for a surrogate. -/
def charOfUnit (standIn : Nat → Char) (unit : Nat) : Char :=
  if isHighSurrogate unit || isLowSurrogate unit then standIn unit else Char.ofNat unit

/-- The characters of a JSON string after its opening quote, `done` being those read so far, last first. -/
def readString (standIn : Nat → Char) (done : List Char) : List Char → Option (String × List Char)
  | [] => none
  | '"' :: rest => some (String.ofList done.reverse, rest)
  | '\\' :: 'u' :: a :: b :: c :: d :: '\\' :: 'u' :: e :: f :: g :: h :: rest =>
    match unit? a b c d, unit? e f g h with
    | some high, some low =>
      if isHighSurrogate high && isLowSurrogate low then
        readString standIn (Char.ofNat (0x10000 + (high - 0xD800) * 0x400 + (low - 0xDC00)) :: done) rest
      else readString standIn (charOfUnit standIn high :: done) ('\\' :: 'u' :: e :: f :: g :: h :: rest)
    | some unit, none => readString standIn (charOfUnit standIn unit :: done) ('\\' :: 'u' :: e :: f :: g :: h :: rest)
    | none, _ => none
  | '\\' :: 'u' :: a :: b :: c :: d :: rest =>
    match unit? a b c d with
    | some unit => readString standIn (charOfUnit standIn unit :: done) rest
    | none => none
  | '\\' :: c :: rest =>
    match escape? c with
    | some e => readString standIn (e :: done) rest
    | none => none
  | c :: rest => if c.toNat < 0x20 then none else readString standIn (c :: done) rest
termination_by cs => cs.length
where
  /-- The character that a letter after a backslash stands for. -/
  escape? (c : Char) : Option Char :=
    if c = '"' || c = '\\' || c = '/' then some c
    else if c = 'b' then some (Char.ofNat 8)
    else if c = 'f' then some (Char.ofNat 12)
    else if c = 'n' then some '\n'
    else if c = 'r' then some '\r'
    else if c = 't' then some '\t'
    else none

/-- The whole part of a JSON number: a zero, or digits that start with another one. -/
def readWhole : List Char → Option (List Char × List Char)
  | '0' :: rest => some (['0'], rest)
  | cs =>
    match cs.takeWhile isAsciiDigit with
    | [] => none
    | digits => some (digits, cs.dropWhile isAsciiDigit)

/-- The point and the digits after it of a JSON number, if a digit follows the point. -/
def readFraction : List Char → Option (List Char) × List Char
  | '.' :: rest =>
    match rest.takeWhile isAsciiDigit with
    | [] => (none, '.' :: rest)
    | digits => (some digits, rest.dropWhile isAsciiDigit)
  | cs => (none, cs)

/-- A JSON number without its sign: an integer if it has neither a point nor an exponent. -/
def readNumber (r : Reader) (negative : Bool) (cs : List Char) : Except JsonFault (Data × List Char) :=
  match readWhole cs with
  | none => .error .malformed
  | some (whole, rest) =>
    let (fraction, rest) := readFraction rest
    let (power, rest) := Decimal.Power.scan isAsciiDigit rest
    if fraction.isNone && power.isNone then
      match r.digits.filter (· < whole.length) with
      | some limit => .error (.overload (.digits limit whole.length))
      | none =>
        let n : Int := digitsValue whole
        .ok (int (if negative then -n else n), rest)
    else
      let x := Decimal.Numeral.value ⟨whole, fraction, power⟩
      .ok (float (if negative then -x else x), rest)

/-- The rest of the text after a word that must stand at its start. -/
def afterWord? (word : String) (cs : List Char) : Option (List Char) :=
  if word.toList.isPrefixOf cs then some (cs.drop word.length) else none

/-- A scalar that is a word. -/
def readWord? (cs : List Char) : Option (Data × List Char) :=
  (word "null" null) <|> (word "true" (bool true)) <|> (word "false" (bool false)) <|>
    (word "NaN" (float (0.0 / 0.0))) <|> (word "Infinity" (float (1.0 / 0.0))) <|>
    (word "-Infinity" (float (-1.0 / 0.0)))
where
  /-- The data that a word stands for. -/
  word (w : String) (d : Data) : Option (Data × List Char) :=
    (afterWord? w cs).map fun rest => (d, rest)

/-- A scalar that is no string. -/
def readScalar (r : Reader) (cs : List Char) : Except JsonFault (Data × List Char) :=
  match readWord? cs with
  | some found => .ok found
  | none =>
    match cs with
    | '-' :: rest => readNumber r true rest
    | _ => readNumber r false cs

/-- A string after its opening quote. -/
def readText (r : Reader) (cs : List Char) : Except JsonFault (String × List Char) :=
  (readString r.standIn [] cs).elim (.error .malformed) .ok

/-- The levels that are left inside of a list or a mapping. -/
def levelsInside (sort : String) : Option Nat → Except JsonFault (Option Nat)
  | none => .ok none
  | some 0 => .error (.overload (.levels sort))
  | some (levels + 1) => .ok (some levels)

mutual

/-- The JSON value at the start of the text and the rest, through at most `fuel` steps. -/
def readValue (r : Reader) : Nat → Option Nat → List Char → Except JsonFault (Data × List Char)
  | 0, _, _ => .error .malformed
  | fuel + 1, levels, cs =>
    match cs with
    | '"' :: rest => do
      let (s, rest) ← readText r rest
      .ok (text s, rest)
    | '[' :: rest => do
      let inside ← levelsInside "array" levels
      match skipBlanks rest with
      | ']' :: rest => .ok (list [], rest)
      | rest => readItems r fuel inside [] rest
    | '\x7b' :: rest => do
      let inside ← levelsInside "object" levels
      match skipBlanks rest with
      | '\x7d' :: rest => .ok (mapping [], rest)
      | rest => readEntries r fuel inside [] rest
    | _ => readScalar r cs

/-- The items of a list from the next one on, `done` being those read so far, last first. -/
def readItems (r : Reader) : Nat → Option Nat → List Data → List Char → Except JsonFault (Data × List Char)
  | 0, _, _, _ => .error .malformed
  | fuel + 1, levels, done, cs => do
    let (d, rest) ← readValue r fuel levels cs
    match skipBlanks rest with
    | ',' :: rest => readItems r fuel levels (d :: done) (skipBlanks rest)
    | ']' :: rest => .ok (list (d :: done).reverse, rest)
    | _ => .error .malformed

/-- The entries of a mapping from the next one on, `done` being those read so far. -/
def readEntries (r : Reader) :
    Nat → Option Nat → List (String × Data) → List Char → Except JsonFault (Data × List Char)
  | 0, _, _, _ => .error .malformed
  | fuel + 1, levels, done, cs =>
    match cs with
    | '"' :: rest => do
      let (key, rest) ← readText r rest
      match skipBlanks rest with
      | ':' :: rest => do
        let (d, rest) ← readValue r fuel levels (skipBlanks rest)
        match skipBlanks rest with
        | ',' :: rest => readEntries r fuel levels (setEntry key d done) (skipBlanks rest)
        | '\x7d' :: rest => .ok (mapping (setEntry key d done), rest)
        | _ => .error .malformed
      | _ => .error .malformed
    | _ => .error .malformed

end

/-- The data of a text that is one JSON value between blanks, or why there is none. A value takes no more steps than two
for each character. -/
def readJson (r : Reader) (cs : List Char) : Except JsonFault Data := do
  let (d, rest) ← readValue r (2 * cs.length + 1) r.levels (skipBlanks cs)
  if (skipBlanks rest).isEmpty then .ok d else .error .malformed

/-- The data of a text that is one JSON value between blanks. -/
def ofJson? (cs : List Char) (r : Reader := {}) : Option Data :=
  (readJson r cs).toOption

end GameSheet.Data
