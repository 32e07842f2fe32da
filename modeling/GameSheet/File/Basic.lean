import GameSheet.File.Format
import GameSheet.File.Path
import GameSheet.Text.Quoted

/-!
# Files

The files that a run may read: texts by their paths, and the readers of their formats. A directory is there if it is
listed or if a file lies in it, and the directory in which a run takes place is always there.
-/

namespace GameSheet

/-- Why a file cannot be read or written. -/
inductive FileFault where
  | missing (path : String)
  | isDirectory (path : String)
  /-- A file stands where a directory is to be. -/
  | isFile (path : String)
  /-- A file stands above the place. -/
  | notDirectory (path : String)
  deriving DecidableEq, Repr

/-- What is wrong, in words. -/
def FileFault.message : FileFault → String
  | missing path => "[Errno 2] No such file or directory: " ++ Text.quoted path
  | isDirectory path => "[Errno 21] Is a directory: " ++ Text.quoted path
  | isFile path => "[Errno 17] File exists: " ++ Text.quoted path
  | notDirectory path => "[Errno 20] Not a directory: " ++ Text.quoted path

/-- The texts of some files by their paths, the directories that may hold none of them, and what reads the texts. -/
structure Files where
  entries : List (String × String) := []
  directories : List String := []
  formats : Formats := .plain

namespace Files

/-- The text of a file. -/
def text? (files : Files) (path : String) : Option String :=
  (files.entries.find? fun e => Path.place e.1 == Path.place path).map (·.2)

/-- Whether a path names a directory: that of the run, or one above a file. -/
def isDirectory (files : Files) (path : String) : Bool :=
  let place := Path.place path
  place.isEmpty || (files.directories.any fun d => place.isPrefixOf (Path.place d)) ||
    files.entries.any fun e => place.isPrefixOf (Path.place e.1) && place.length < (Path.place e.1).length

/-- Whether a file stands above the place of a path. -/
def isBelowFile (files : Files) (path : String) : Bool :=
  files.entries.any fun e => (Path.place e.1).isPrefixOf (Path.place path) && Path.place e.1 != Path.place path

/-- Whether a path names something; an empty one does not. -/
def contains (files : Files) (path : String) : Bool :=
  path != "" && ((files.text? path).isSome || files.isDirectory path)

/-- The text of a file, or why it cannot be read. -/
def read (files : Files) (path : String) : Except FileFault String :=
  match files.text? path with
  | some text => .ok text
  | none =>
    .error <|
      if files.isDirectory path then .isDirectory (Path.plain path)
      else if files.isBelowFile path then .notDirectory (Path.plain path)
      else .missing (Path.plain path)

/-- Why no directory can be made at a path, if something stands in the way. -/
def directoryFault? (files : Files) (path : String) : Option FileFault :=
  if (files.text? path).isSome then some (.isFile (Path.plain path))
  else if files.isBelowFile path then some (.notDirectory (Path.plain path))
  else none

end Files

end GameSheet
