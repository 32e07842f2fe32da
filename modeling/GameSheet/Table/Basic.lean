import GameSheet.Cell

/-!
# Tables

A table is a list of fields of one length, each with a header and a series of values of one sort, some of which may be
missing. It is how sheets are exchanged: read from a file of separated values or written to one.
-/

namespace GameSheet

/-- The values of a field, all of one sort; a missing value is none. -/
inductive Series where
  | ints (xs : List (Option Int))
  | floats (xs : List (Option Float))
  | bools (xs : List (Option Bool))
  | texts (xs : List (Option String))
  deriving DecidableEq

namespace Series

/-- The values as raw data, null for a missing one. -/
def cells : Series → List RawCell
  | ints xs => xs.map fun x => x.elim .null .int
  | floats xs => xs.map fun x => x.elim .null .float
  | bools xs => xs.map fun x => x.elim .null .bool
  | texts xs => xs.map fun x => x.elim .null .text

/-- The number of values. -/
def length (s : Series) : Nat :=
  s.cells.length

end Series

/-- A field of a table. -/
structure Field where
  header : String
  series : Series
  deriving DecidableEq

/-- A list of fields. -/
structure Table where
  fields : List Field
  deriving DecidableEq

namespace Table

/-- The headers of the fields. -/
def headers (t : Table) : List String :=
  t.fields.map Field.header

/-- The number of records: that of the values of the first field. -/
def height (t : Table) : Nat :=
  match t.fields with
  | [] => 0
  | f :: _ => f.series.length

/-- Some records with one more value at the front of each. -/
def withField (f : Field) (records : List (List (String × RawCell))) : List (List (String × RawCell)) :=
  List.zipWith (fun c record => (f.header, c) :: record) f.series.cells records

/-- The records in order: the values by header, null for a missing one. -/
def records (t : Table) : List (List (String × RawCell)) :=
  t.fields.foldr withField (List.replicate t.height [])

end Table

end GameSheet
