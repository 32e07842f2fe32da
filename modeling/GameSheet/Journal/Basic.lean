import GameSheet.Journal.Event
import GameSheet.Text.Blank
import GameSheet.Text.Lines
import GameSheet.Text.Utf8

/-!
# The journal

A journal is a file to which the lines of events are appended. A file that has grown too large is set aside before
the next line is written, in the place of the one set aside before.

Reading looks at the end of the file only. Where it starts inside the file the first line is dropped, because it is
almost never whole; lines that hold no data are dropped too. The events come newest first, those that a query does
not ask for left out, up to a limit. There is no answer where the reader of the lines comes upon one of its limits, or
where the query looks for an entry of what has none.
-/

namespace GameSheet

/-- The bytes of the file that is written to and of the one set aside, where there is one. -/
structure Journal where
  current : Option (List UInt8) := none
  rotated : Option (List UInt8) := none
  deriving DecidableEq

/-- How a journal is kept. -/
structure Upkeep where
  /-- How many bytes at the end of the file are read. -/
  tailBytes : Int := 2097152
  /-- How many bytes a file may have before it is set aside, if there is a bound. -/
  maxBytes : Option Int := none
  deriving DecidableEq, Repr

namespace Journal

/-- The bytes of the file that is written to. -/
def content (j : Journal) : List UInt8 :=
  j.current.getD []

/-- The size of the file that is written to. -/
def size (j : Journal) : Nat :=
  j.content.length

/-- The journal with some more bytes. -/
def append (j : Journal) (bytes : List UInt8) : Journal :=
  { j with current := some (j.content ++ bytes) }

/-- The journal with its file set aside if it is too large. -/
def rotate (upkeep : Upkeep) (j : Journal) : Journal :=
  match upkeep.maxBytes, j.current with
  | some bound, some bytes => if bound < bytes.length then ⟨none, some bytes⟩ else j
  | _, _ => j

/-- The bytes of a line and of its end. -/
def lineBytes (line : String) : List UInt8 :=
  Text.utf8 (line ++ "\n")

/-- The journal with one more event. -/
def write (upkeep : Upkeep) (j : Journal) (time : String) (e : Event) : Journal :=
  (j.rotate upkeep).append (lineBytes (e.line time))

/-! ## Reading -/

/-- Where reading starts. -/
def tailStart (upkeep : Upkeep) (j : Journal) : Nat :=
  (j.size - upkeep.tailBytes).toNat

/-- The lines at the end of the file. -/
def tailLines (upkeep : Upkeep) (j : Journal) : List (List Char) :=
  let start := j.tailStart upkeep
  let lines := Text.lines (Text.ofUtf8 (j.content.drop start))
  if 0 < start then lines.drop 1 else lines

/-- What was read; nothing if the text was malformed. -/
def unlessMalformed : Except Data.JsonFault Data → Except Data.Overload (Option Data)
  | .ok d => .ok (some d)
  | .error .malformed => .ok none
  | .error (.overload o) => .error o

/-- The data of a line, if it holds any and the reader bears it. -/
def lineData (r : Data.Reader) (line : List Char) : Except Data.Overload (Option Data) :=
  if line.all Text.isBlank then .ok none else unlessMalformed (Data.readJson r line)

/-- What the lines at the end of the file hold, oldest first. -/
def tail (upkeep : Upkeep) (j : Journal) (r : Data.Reader := {}) : Except Data.Overload (List Data) := do
  let found ← (j.tailLines upkeep).mapM (lineData r)
  .ok (found.filterMap id)

end Journal

/-! ## Queries -/

/-- What events are asked for. An empty word asks for all severities or topics. -/
structure Query where
  severity : String := ""
  topic : String := ""
  sheet : Option String := none
  limit : Int := 200
  deriving DecidableEq, Repr

/-- Why a query has no answer. -/
inductive ReadFault where
  /-- The reader does not bear a line. -/
  | overload (o : Data.Overload)
  /-- A record, or the context of a record, has no entries; it is given by its sort. -/
  | noEntries (sort : String)
  deriving DecidableEq, Repr

/-- What is wrong, in words. -/
def ReadFault.message : ReadFault → String
  | overload o => o.message
  | noEntries sort => Text.quoted sort ++ " object has no attribute 'get'"

namespace Query

/-- The greatest number of events that are given. -/
def greatestLimit : Int := 2000

/-- An entry of data that must be a mapping; null if it is missing. -/
def entry (d : Data) (key : String) : Except ReadFault Data :=
  match d with
  | .mapping entries => .ok ((entries.lookup key).getD .null)
  | d => .error (.noEntries d.sort)

/-- Whether data is a certain text. -/
def isText (word : String) : Data → Bool
  | .text s => s == word
  | _ => false

/-- Whether a word is empty or the entry of a record. -/
def agrees (word key : String) (record : Data) : Except ReadFault Bool :=
  if word.isEmpty then .ok true else (entry record key).map (isText word)

/-- Whether the context of a record names a sheet. -/
def namesSheet (sheet : String) (record : Data) : Except ReadFault Bool := do
  let context ← entry record "context"
  if context.isVoid then .ok false
  else
    let name ← entry context "sheet"
    let id ← entry context "sheet_id"
    .ok (isText sheet name || isText sheet id)

/-- Whether a record is asked for. -/
def selects (q : Query) (record : Data) : Except ReadFault Bool := do
  if ← agrees q.severity "level" record then
    if ← agrees q.topic "event_type" record then
      match q.sheet with
      | none => .ok true
      | some sheet => namesSheet sheet record
    else .ok false
  else .ok false

/-- The first of the records that are asked for, `room` of them and one more. -/
def collect (q : Query) : Nat → List Data → Except ReadFault (List Data)
  | _, [] => .ok []
  | room, record :: rest => do
    if ← q.selects record then
      match room with
      | 0 => .ok [record]
      | room + 1 => return record :: (← q.collect room rest)
    else q.collect room rest

end Query

/-- The newest records of a journal that are asked for, newest first. At least one is given if there is one. -/
def Journal.read (upkeep : Upkeep) (j : Journal) (q : Query) (r : Data.Reader := {}) :
    Except ReadFault (List Data) := do
  let records ← (j.tail upkeep r).mapError .overload
  q.collect (min q.limit Query.greatestLimit - 1).toNat records.reverse

end GameSheet
