import GameSheet.File.Basic
import GameSheet.Journal.Basic

/-!
# Journals by directory

The journals of a run lie in directories, one in each. One of them may be the journal of the engine, to which what it
reports goes; without one, or with its directory gone, reports are dropped.
-/

namespace GameSheet

/-- Where a journal lies and how it is kept. -/
structure Sink where
  directory : String
  upkeep : Upkeep := {}
  deriving DecidableEq, Repr

namespace Sink

/-- The name of the file that is written to. -/
def fileName : String := "events.ndjson"

/-- The path of the file that is written to. -/
def path (s : Sink) : String :=
  Path.join s.directory fileName

/-- The path of the file set aside. -/
def rotatedPath (s : Sink) : String :=
  Path.join s.directory (fileName ++ ".1")

end Sink

/-- The journals by the places of their directories, and the one of the engine. -/
structure Shelf where
  journals : List (List String × Journal) := []
  engine : Option Sink := none

namespace Shelf

/-- The journal in a directory, if the directory is there. -/
def journal? (shelf : Shelf) (directory : String) : Option Journal :=
  shelf.journals.lookup (Path.place directory)

/-- The shelf with a journal in a directory. -/
def put (shelf : Shelf) (directory : String) (j : Journal) : Shelf :=
  { shelf with
    journals := (Path.place directory, j) :: shelf.journals.filter (·.1 != Path.place directory) }

/-- The shelf with a directory and those above it. -/
def makeDirectory (shelf : Shelf) (directory : String) : Shelf :=
  let place := Path.place directory
  let above := (List.range (place.length + 1)).map place.take
  let missing := above.filter fun place => (shelf.journals.lookup place).isNone
  { shelf with journals := missing.map (fun place => (place, {})) ++ shelf.journals }

/-- The shelf without a directory and all that lies in it. -/
def removeDirectory (shelf : Shelf) (directory : String) : Except FileFault Shelf :=
  let place := Path.place directory
  if shelf.journals.any fun e => place.isPrefixOf e.1 then
    .ok { shelf with journals := shelf.journals.filter fun e => !place.isPrefixOf e.1 }
  else .error (.missing (Path.plain directory))

/-- The shelf with the engine's reports sent to a directory, or dropped. -/
def setDirectory (shelf : Shelf) (directory : Option String) : Shelf :=
  match directory with
  | none => { shelf with engine := none }
  | some d => { shelf.makeDirectory d with engine := some { directory := d } }

/-- The shelf with some bytes appended to a journal. -/
def append (shelf : Shelf) (sink : Sink) (bytes : List UInt8) : Except FileFault Shelf :=
  match shelf.journal? sink.directory with
  | none => .error (.missing sink.path)
  | some j => .ok (shelf.put sink.directory (j.append bytes))

/-- The shelf with an event written to a journal. -/
def write (shelf : Shelf) (sink : Sink) (time : String) (e : Event) : Except FileFault Shelf :=
  match shelf.journal? sink.directory with
  | none => .error (.missing sink.path)
  | some j => .ok (shelf.put sink.directory (j.write sink.upkeep time e))

/-- The shelf with a report of the engine, its context clipped. A report that cannot be written is dropped. -/
def emit (shelf : Shelf) (time : String) (e : Event) : Shelf :=
  match shelf.engine with
  | none => shelf
  | some sink =>
    match shelf.write sink time e.trim with
    | .ok after => after
    | .error _ => shelf

/-- The shelf with some reports of the engine, one after the other. -/
def emitAll (shelf : Shelf) (time : String) (events : List Event) : Shelf :=
  events.foldl (fun s e => s.emit time e) shelf

/-- The records of a journal that are asked for; none without a file. -/
def read (shelf : Shelf) (sink : Sink) (q : Query) (r : Data.Reader := {}) : Except ReadFault (List Data) :=
  ((shelf.journal? sink.directory).getD {}).read sink.upkeep q r

end Shelf

end GameSheet
