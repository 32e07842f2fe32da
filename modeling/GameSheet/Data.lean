import GameSheet.Decimal.Style
import GameSheet.Text.Quoted

/-!
# Data of a document

What a workbook document, a configuration file or a log record holds: a tree of scalars, lists and mappings from
texts. A mapping is a list of entries in the order in which the document gives them; writing an entry whose key
is there already replaces its value in place.
-/

namespace GameSheet

/-- A tree of document data. -/
inductive Data where
  | null
  | bool (b : Bool)
  | int (n : Int)
  | float (x : Float)
  | text (s : String)
  | list (items : List Data)
  | mapping (entries : List (String × Data))
  deriving Inhabited

/-! ## Entries of a mapping -/

/-- Sets the value of a key: in place if the key is there, otherwise at the end. -/
def setEntry {α : Type} (key : String) (value : α) : List (String × α) → List (String × α)
  | [] => [(key, value)]
  | (k, v) :: rest => if k = key then (k, value) :: rest else (k, v) :: setEntry key value rest

theorem lookup_setEntry_self {α : Type} (key : String) (value : α) (entries : List (String × α)) :
    (setEntry key value entries).lookup key = some value := by
  induction entries with
  | nil => simp [setEntry]
  | cons e rest ih =>
    obtain ⟨k, v⟩ := e
    by_cases h : k = key
    · simp [setEntry, h]
    · have hk : (key == k) = false := by simpa using fun e => h e.symm
      simp [setEntry, h, List.lookup_cons, hk, ih]

theorem lookup_setEntry_of_ne {α : Type} {key other : String} (h : other ≠ key) (value : α)
    (entries : List (String × α)) : (setEntry key value entries).lookup other = entries.lookup other := by
  have hk : (other == key) = false := by simpa using h
  induction entries with
  | nil => simp [setEntry, List.lookup_cons, hk]
  | cons e rest ih =>
    obtain ⟨k, v⟩ := e
    by_cases h' : k = key
    · simp [setEntry, h', List.lookup_cons, hk]
    · by_cases ho : (other == k) = true <;> simp_all [setEntry, List.lookup_cons]

namespace Data

/-- The value of a key of a mapping; nothing if the key is missing or the data is no mapping. -/
def get? (d : Data) (key : String) : Option Data :=
  match d with
  | mapping entries => entries.lookup key
  | _ => none

/-- The entries of a mapping; other data has none. -/
def entries : Data → List (String × Data)
  | mapping entries => entries
  | _ => []

/-- Data that stands for nothing given: null, false, zero, and an empty text, list or mapping. -/
def isVoid : Data → Bool
  | null => true
  | bool b => !b
  | int n => n == 0
  | float x => x == 0.0
  | text s => s.isEmpty
  | list items => items.isEmpty
  | mapping entries => entries.isEmpty

/-- The value of a key unless it stands for nothing given. -/
def given? (d : Data) (key : String) : Option Data :=
  (d.get? key).filter (!·.isVoid)

/-- The name of the sort of data, as messages give it. -/
def sort : Data → String
  | null => "NoneType"
  | bool _ => "bool"
  | int _ => "int"
  | float _ => "float"
  | text _ => "str"
  | list _ => "list"
  | mapping _ => "dict"

/-! ## The text of a value -/

mutual

/-- A value inside a list or a mapping, texts between quotes. -/
def inner : Data → String
  | null => "None"
  | bool b => if b then "True" else "False"
  | int n => toString n
  | float x => Decimal.exactText x
  | text s => Text.quoted s
  | list items => "[" ++ ", ".intercalate (innerItems items) ++ "]"
  | mapping entries => "\x7b" ++ ", ".intercalate (innerEntries entries) ++ "\x7d"

/-- The values inside a list. -/
def innerItems : List Data → List String
  | [] => []
  | d :: rest => inner d :: innerItems rest

/-- The entries inside a mapping. -/
def innerEntries : List (String × Data) → List String
  | [] => []
  | (key, d) :: rest => (Text.quoted key ++ ": " ++ inner d) :: innerEntries rest

end

/-- The text of a value, by which identifiers are given and compared. -/
def shown : Data → String
  | text s => s
  | d => inner d

end Data

end GameSheet
