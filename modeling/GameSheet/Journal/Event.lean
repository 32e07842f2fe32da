import GameSheet.Data.Json

/-!
# Events

An event is a structured note of what the engine did: a formula that failed, a sheet that was recomputed, options
that were read. It becomes a record of the journal together with the time at which it is written, one line of JSON
with sorted keys.

* `Event.trim` clips long texts of the context, so that one long formula does not bloat the journal.
* `Event.line` is the line of an event in the journal.
-/

namespace GameSheet

/-- How serious an event is. -/
inductive Severity where
  | info
  | warning
  | error
  deriving DecidableEq, Repr

namespace Severity

/-- The word for a severity in records. -/
def word : Severity → String
  | info => "info"
  | warning => "warning"
  | error => "error"

/-- The severity of a word. -/
def ofWord? (word : String) : Option Severity :=
  [info, warning, error].find? (·.word == word)

end Severity

/-- What an event is about. -/
inductive Topic where
  | formulaError
  | formulaCycle
  | formulaDepth
  | sheetComputed
  | optionsLoaded
  deriving DecidableEq, Repr

namespace Topic

/-- The word for a topic in records. -/
def word : Topic → String
  | formulaError => "formula_error"
  | formulaCycle => "formula_cycle"
  | formulaDepth => "formula_recursion_limit"
  | sheetComputed => "sheet_computed"
  | optionsLoaded => "config_loaded"

/-- The topic of a word. -/
def ofWord? (word : String) : Option Topic :=
  [formulaError, formulaCycle, formulaDepth, sheetComputed, optionsLoaded].find? (·.word == word)

/-- The topic of a failure by its class. -/
def ofCode (code : String) : Topic :=
  if code = "cycle_error" then formulaCycle
  else if code = "recursion_limit" then formulaDepth
  else formulaError

end Topic

/-! ## Clipping -/

/-- How many characters a text of a context may have. -/
def clipLimit : Nat := 256

/-- What follows the part of a text that is left of it. -/
def clipMarker : String := "...[truncated]"

/-- A text as contexts hold it: as it is up to the limit, else its first part and the marker. -/
def clip (s : String) : String :=
  if clipLimit < s.length then String.ofList (s.toList.take clipLimit) ++ clipMarker else s

mutual

/-- The data with its text or the texts of its mapping clipped; lists stay as they are. -/
def clipData : Data → Data
  | .text s => .text (clip s)
  | .mapping entries => .mapping (clipEntries entries)
  | d => d

/-- The entries with clipped texts. -/
def clipEntries : List (String × Data) → List (String × Data)
  | [] => []
  | (key, d) :: rest => (key, clipData d) :: clipEntries rest

end

/-! ## Numbers in records -/

mutual

/-- The data with null in the place of every number that is infinite or none at all: a record has no words for
them. -/
def finiteData : Data → Data
  | .float x => if x.isFinite then .float x else .null
  | .list items => .list (finiteItems items)
  | .mapping entries => .mapping (finiteEntries entries)
  | d => d

/-- The items with finite numbers. -/
def finiteItems : List Data → List Data
  | [] => []
  | d :: rest => finiteData d :: finiteItems rest

/-- The entries with finite numbers. -/
def finiteEntries : List (String × Data) → List (String × Data)
  | [] => []
  | (key, d) :: rest => (key, finiteData d) :: finiteEntries rest

end

/-! ## Events -/

/-- A note of what the engine did. -/
structure Event where
  severity : Severity
  topic : Topic
  message : String := ""
  context : List (String × Data) := []
  errorCode : Option String := none

namespace Event

/-- The event with a clipped context. -/
def trim (e : Event) : Event :=
  { e with context := clipEntries e.context }

/-- A text or null. -/
def textOrNull : Option String → Data
  | some s => .text s
  | none => .null

/-- The record of an event that is written at a time. -/
def record (time : String) (e : Event) : Data :=
  .mapping [
    ("schema_version", .int 1),
    ("ts", .text time),
    ("level", .text e.severity.word),
    ("event_type", .text e.topic.word),
    ("message", .text e.message),
    ("context", .mapping (finiteEntries e.context)),
    ("error_code", textOrNull e.errorCode)]

/-- The line of an event that is written at a time, without its line end. -/
def line (time : String) (e : Event) : String :=
  (e.record time).sortKeys.json

end Event

end GameSheet
