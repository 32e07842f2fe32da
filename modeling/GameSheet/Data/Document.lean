import GameSheet.Data.Json
import GameSheet.Text.Lines

/-!
# Documents

A document is a text that holds data: a JSON text, a list of words with a dash before each, or a plain text. Blank
texts hold nothing. A text in which a bracket stays open is no document.

The program reads documents so. What is made of the data of a document does not depend on it: the files of a run come
with readers of their own (`Formats`).
-/

namespace GameSheet.Data

/-- The word after the dash of an item. -/
def listItem? (line : List Char) : Option Data :=
  match line with
  | '-' :: ' ' :: word => some (text (String.ofList (Text.trim word)))
  | _ => none

/-- Whether every bracket that is opened is closed again. -/
def isBalanced (cs : List Char) : Bool :=
  cs.count '[' == cs.count ']' && cs.count '\x7b' == cs.count '\x7d'

/-- The data of a document. -/
def ofDocument? (document : String) : Option Data :=
  let cs := Text.trim document.toList
  if cs.isEmpty then some null
  else
    match ofJson? cs with
    | some d => some d
    | none =>
      match (Text.lines cs).mapM listItem? with
      | some items => some (list items)
      | none => if isBalanced cs then some (text (String.ofList cs)) else none

end GameSheet.Data
