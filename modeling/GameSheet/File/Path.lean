import GameSheet.Text.Lines

/-!
# Paths

A path is a text whose parts are separated by slashes. Empty parts and single dots do not matter: two paths that
differ only in them are the same, and `Path.plain` is the form in which messages show it. Two dots lead back, and
`Path.place` is where a path leads to in the end.
-/

namespace GameSheet.Path

/-- The parts that matter. -/
def parts (path : String) : List String :=
  (Text.splitAt '/' path.toList).filterMap fun cs =>
    if cs = [] ∨ cs = ['.'] then none else some (String.ofList cs)

/-- Whether the path starts at the root. -/
def isAbsolute (path : String) : Bool :=
  path.toList.head? == some '/'

/-- The place reached from a place by one more part. -/
def enter (place : List String) (part : String) : List String :=
  if part = ".." then
    match place.getLast? with
    | none | some ".." => place ++ [part]
    | some "/" => place
    | some _ => place.dropLast
  else place ++ [part]

/-- The place that the path leads to, by the directories on the way; a slash stands for the root. -/
def place (path : String) : List String :=
  (parts path).foldl enter (if isAbsolute path then ["/"] else [])

/-- The path without parts that do not matter; a single dot if nothing is left. -/
def plain (path : String) : String :=
  let joined := "/".intercalate (parts path)
  if isAbsolute path then "/" ++ joined else if joined.isEmpty then "." else joined

/-- A path seen from a directory. -/
def join (directory path : String) : String :=
  if isAbsolute path then plain path else plain (directory ++ "/" ++ path)

/-- The directory that holds what the path names. -/
def parent (path : String) : String :=
  let joined := "/".intercalate (parts path).dropLast
  if isAbsolute path then "/" ++ joined else if joined.isEmpty then "." else joined

end GameSheet.Path
