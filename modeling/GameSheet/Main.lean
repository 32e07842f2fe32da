import GameSheet.CommandLine.Run
import GameSheet.Journal.Moment
import GameSheet.Journal.Shelf
import Std.Time.DateTime.Timestamp

/-!
# The program

The program reads the files that its words may name, lets `CommandLine.answer` say what is to be done, and does it.
It ends with 2 if the words are no command, and with 1 if the command is refused or broken off.
-/

namespace GameSheet.Program

/-- What is found at a path. -/
inductive Found where
  | nothing
  | file (text : String)
  | directory

/-- The code of the system for reading a directory as a file. -/
def directoryCode : UInt32 := 21

/-- Looks at a path. -/
def look (path : String) : IO Found := do
  try
    return .file (← IO.FS.readFile path)
  catch
    | .noFileOrDirectory .. => return .nothing
    | .inappropriateType _ code _ => return if code = directoryCode then .directory else .nothing
    | e => throw e

/-- The files with what is found at some paths. -/
def gather (files : Files) (paths : List String) : IO Files :=
  paths.foldlM (fun found path => do
    match ← look path with
    | .nothing => return found
    | .file text => return { found with entries := (path, text) :: found.entries }
    | .directory => return { found with directories := path :: found.directories }) files

/-- The paths that a word may name: the word, what follows an equals sign in it, the directory that it lies in, and
the options file if it is a directory. -/
def pathsOfWord (word : String) : List String :=
  let value := (CommandLine.Arguments.optionParts word).2
  ((word :: value.toList).filter fun w => !w.isEmpty).flatMap fun w =>
    [w, Path.parent w, Path.join w optionsFileName]

/-- The paths that the document in a file names. -/
def pathsOfText (document : String → Option Data) (path text : String) : List String :=
  match document text with
  | some d =>
    let journal := ((Options.ofText document path text).1.toOption.bind Options.logDirectory).toList
    journal ++ sourcePaths (Path.parent path) d
  | none => []

/-- The files that some words lead to. -/
def filesOf (words : List String) : IO Files := do
  let named ← gather {} (words.flatMap pathsOfWord)
  gather named (named.entries.flatMap fun (path, text) => pathsOfText named.formats.document path text)

/-- The moment at hand. -/
def now : IO Moment := do
  let nanoseconds := (← Std.Time.Timestamp.now).toNanosecondsSinceUnixEpoch.val.toNat
  return ⟨nanoseconds / 1000000000, nanoseconds / 1000 % 1000000⟩

/-- Writes what was reported to the journal in a directory. -/
def report (directory : String) (events : List Event) : IO Unit := do
  IO.FS.createDirAll directory
  unless events.isEmpty do
    let sink : Sink := { directory := directory }
    let handle ← IO.FS.Handle.mk sink.path .append
    for e in events do
      handle.putStrLn (e.trim.line (← now).text)

/-- Does what a command asks for, and gives the exit code. -/
def perform (p : CommandLine.Printed) : IO UInt32 := do
  for (directory, events) in p.journal do
    report directory events
  for (path, text) in p.table do
    IO.FS.writeFile path text
  (← IO.getStdout).putStr p.out
  (← IO.getStderr).putStr p.err
  return p.exit.toUInt32

/-- Runs the command that some words are, and gives the exit code. -/
def run (words : List String) : IO UInt32 := do
  match CommandLine.answer (← filesOf words) words with
  | .usage =>
    (← IO.getStderr).putStr CommandLine.helpText
    return 2
  | .stopped (.refused r) =>
    (← IO.getStderr).putStr r.line
    return 1
  | .stopped (.aborted a) =>
    (← IO.getStderr).putStrLn a.message
    return 1
  | .printed p => perform p

end GameSheet.Program

/-- Runs the program. -/
def main (words : List String) : IO UInt32 :=
  GameSheet.Program.run words
