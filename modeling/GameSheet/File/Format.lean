import GameSheet.Data.Document
import GameSheet.Table.Separated

/-!
# Formats of files

Files hold documents and tables in formats of their own. What the texts say is left to readers (`Formats`), and nothing
else depends on the formats. The program reads documents and comma-separated values by `Formats.plain`.
-/

namespace GameSheet

/-- The readers of the formats in which files hold data. -/
structure Formats where
  /-- The data of a document, if the text is one. -/
  document : String → Option Data
  /-- The table of a text, or why it is none. -/
  table : String → Except TableFault Table

/-- The readers of the program. -/
def Formats.plain : Formats where
  document := Data.ofDocument?
  table := Table.ofSeparated

end GameSheet
