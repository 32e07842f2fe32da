import GameSheet.File.Basic
import GameSheet.Journal.Event
import GameSheet.Options
import GameSheet.Text.Upper

/-!
# Options in documents

The options of the engine are given by entries under their names. A number or a truth value may also be given by a
text or another number that stands for it without doubt; a name that is no option is refused.

In a file the names of the settings sheet and of its columns may stand in a block of their own
(`flattenSettings`). A missing file and a file that holds nothing give the default options.
-/

namespace GameSheet

/-- Why options cannot be read. -/
inductive OptionsFault where
  /-- Some options have values that they cannot have, or are no options. -/
  | badOptions (names : List String)
  | malformed (path : String)
  | noMapping (path : String)
  deriving DecidableEq, Repr

/-- What is wrong, in words. -/
def OptionsFault.message : OptionsFault → String
  | badOptions names => "Invalid configuration: " ++ ", ".intercalate names
  | malformed path => "Cannot parse " ++ path
  | noMapping path => path ++ " must contain a mapping"

/-! ## Values of options -/

/-- The whole number that a text stands for: digits, single underscores between them, a plus sign before and zeros
after a point. -/
def wholeOfText? (s : String) : Option Nat :=
  let cs := match Text.trim s.toList with
    | '+' :: rest => rest
    | cs => cs
  let digits := cs.takeWhile (· != '.')
  let groups := Text.splitAt '_' digits
  let plain := groups.all fun g => g ≠ [] && g.all Text.isAsciiDigit
  if plain && ((cs.dropWhile (· != '.')).drop 1).all (· == '0') then some (Text.digitsValue groups.flatten) else none

/-- The whole number that an option is given as. -/
def wholeOfData? : Data → Option Int
  | .int n => some n
  | .bool b => some (if b then 1 else 0)
  | .float x => if Decimal.isWhole x && x.abs < 9223372036854775808.0 then some (Decimal.truncInt x) else none
  | .text s => (wholeOfText? s).map Int.ofNat
  | _ => none

/-- The depth that an option is given as, which is positive. -/
def depthOfData? (d : Data) : Option { n : Nat // 1 ≤ n } :=
  (wholeOfData? d).bind fun n => if h : 1 ≤ n.toNat then some ⟨n.toNat, h⟩ else none

/-- The words for true and false. -/
def truthWords : List (String × Bool) := [
  ("0", false), ("off", false), ("f", false), ("false", false), ("n", false), ("no", false),
  ("1", true), ("on", true), ("t", true), ("true", true), ("y", true), ("yes", true)]

/-- The truth value that an option is given as. -/
def truthOfData? : Data → Option Bool
  | .bool b => some b
  | .int n => if n = 0 then some false else if n = 1 then some true else none
  | .float x => if x == 0.0 then some false else if x == 1.0 then some true else none
  | .text s => truthWords.lookup (Text.lowerAscii s)
  | _ => none

/-- The text that an option is given as. -/
def optionText? : Data → Option String
  | .text s => some s
  | _ => none

/-- The text that an option is given as, or nothing. -/
def optionalText? : Data → Option (Option String)
  | .text s => some (some s)
  | .null => some none
  | _ => none

/-! ## Entries -/

/-- The names of the options. -/
def optionNames : List String :=
  ["max_depth", "allow_infinity", "settings_sheet", "settings_key_column", "settings_value_column", "log_dir"]

/-- The value of an option: what its entry stands for, or the default without an entry. -/
def optionValue {α : Type} (entries : List (String × Data)) (name : String) (read : Data → Option α) (default : α) :
    Option α :=
  (entries.lookup name).elim (some default) read

/-- The name of an option if it has no value. -/
def unreadable {α : Type} (name : String) (value : Option α) : List String :=
  if value.isNone then [name] else []

/-- The options that some entries give, or the names of those that do not fit. -/
def Options.ofEntries (entries : List (String × Data)) : Except OptionsFault Options :=
  let depth := optionValue entries "max_depth" depthOfData? ⟨64, Nat.succ_pos _⟩
  let infinity := optionValue entries "allow_infinity" truthOfData? false
  let sheet := optionValue entries "settings_sheet" optionText? "Settings"
  let keyColumn := optionValue entries "settings_key_column" optionalText? none
  let valueColumn := optionValue entries "settings_value_column" optionalText? none
  let directory := optionValue entries "log_dir" optionalText? none
  let unknown := (entries.map (·.1)).filter fun name => !optionNames.contains name
  match unknown, depth, infinity, sheet, keyColumn, valueColumn, directory with
  | [], some depth, some infinity, some sheet, some keyColumn, some valueColumn, some directory =>
    .ok ⟨depth.1, infinity, sheet, keyColumn, valueColumn, directory, depth.2⟩
  | _, _, _, _, _, _, _ => .error (.badOptions ((unknown ++ unreadable "max_depth" depth ++
      unreadable "allow_infinity" infinity ++ unreadable "settings_sheet" sheet ++
      unreadable "settings_key_column" keyColumn ++ unreadable "settings_value_column" valueColumn ++
      unreadable "log_dir" directory).mergeSort (· ≤ ·)).eraseDups)

/-- The entries with those of one key of a block under a name of their own. -/
def liftEntry (block : Data) (entries : List (String × Data)) (key : String × String) : List (String × Data) :=
  match block.get? key.1 with
  | some value => setEntry key.2 value entries
  | none => entries

/-- The entries with those of the block `settings` among them. A block that is no mapping, and entries of it that
name no option, do not matter. -/
def flattenSettings (entries : List (String × Data)) : List (String × Data) :=
  let outside := entries.filter (·.1 != "settings")
  match entries.lookup "settings" with
  | some (.mapping block) =>
    [("sheet", "settings_sheet"), ("key_column", "settings_key_column"),
      ("value_column", "settings_value_column")].foldl (liftEntry (.mapping block)) outside
  | _ => outside

/-! ## Files -/

/-- The name of the file that holds the options of a directory. -/
def optionsFileName : String := "balancebook.yaml"

/-- The file that a path leads to: the options file in it if it is a directory. -/
def optionsFile (files : Files) (path : String) : String :=
  if files.isDirectory path then Path.join path optionsFileName else Path.plain path

/-- The event of options that have been read. -/
def optionsEvent (path : String) : Event where
  severity := .info
  topic := .optionsLoaded
  message := "Loaded " ++ path
  context := [("path", .text path)]

/-- The options in the text of a file, by a reader of documents. An event is due once the text is known to hold
entries. -/
def Options.ofText (document : String → Option Data) (path text : String) : Except OptionsFault Options × List Event :=
  match document text with
  | none => (.error (.malformed path), [])
  | some (.mapping entries) => (Options.ofEntries (flattenSettings entries), [optionsEvent path])
  | some d => if d.isVoid then (.ok .standard, [optionsEvent path]) else (.error (.noMapping path), [])

/-- The options that a path leads to; the default ones without a path or a file. -/
def Options.load (files : Files) (path : Option String) : Except OptionsFault Options × List Event :=
  match path with
  | none => (.ok .standard, [])
  | some path =>
    let file := optionsFile files path
    match files.text? file with
    | none => (.ok .standard, [])
    | some text => Options.ofText files.formats.document file text

end GameSheet
