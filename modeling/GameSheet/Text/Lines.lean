/-!
# Lines of a text

A text is cut into lines at every line boundary Unicode knows: line feed, vertical tab, form feed, carriage
return (alone or with the line feed after it), the separators U+001C to U+001E, next line, and the line and
paragraph separators. A boundary ends a line; what stands after the last boundary is a line only if it is not
empty.
-/

namespace GameSheet.Text

/-- A character that ends a line. -/
def isLineEnd (c : Char) : Bool :=
  let n := c.toNat
  (0x0A ≤ n && n ≤ 0x0D) || (0x1C ≤ n && n ≤ 0x1E) || n == 0x85 || n == 0x2028 || n == 0x2029

/-- The lines of the characters after those in `done`, last line first; `current` is what the line at hand holds so
far, last character first. -/
def linesFrom (done : List (List Char)) (current : List Char) : List Char → List (List Char)
  | [] => if current.isEmpty then done else current.reverse :: done
  | '\r' :: '\n' :: rest => linesFrom (current.reverse :: done) [] rest
  | c :: rest =>
    if isLineEnd c then linesFrom (current.reverse :: done) [] rest else linesFrom done (c :: current) rest

/-- The lines of a text, without the characters that end them. -/
def lines (cs : List Char) : List (List Char) :=
  (linesFrom [] [] cs).reverse

/-- The pieces of the characters after those in `done`, last piece first; `current` is what the piece at hand holds
so far, last character first. -/
def splitFrom (separator : Char) (done : List (List Char)) (current : List Char) : List Char → List (List Char)
  | [] => current.reverse :: done
  | c :: rest =>
    if c = separator then splitFrom separator (current.reverse :: done) [] rest
    else splitFrom separator done (c :: current) rest

/-- What one separator character splits, with the empty pieces. -/
def splitAt (separator : Char) (cs : List Char) : List (List Char) :=
  (splitFrom separator [] [] cs).reverse

end GameSheet.Text
