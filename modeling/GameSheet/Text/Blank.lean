/-!
# Blank characters

Which characters count as white space around a text, and the text without them at its ends. The set is
Unicode's white space together with the four information separators U+001C to U+001F. Formula layout uses a
smaller set of its own (`GameSheet.Formula.isLayout`).
-/

namespace GameSheet.Text

/-- A Unicode white space character or an information separator. -/
def isBlank (c : Char) : Bool :=
  let n := c.toNat
  (0x09 ≤ n && n ≤ 0x0D) || (0x1C ≤ n && n ≤ 0x20) || n == 0x85 || n == 0xA0 || n == 0x1680 ||
    (0x2000 ≤ n && n ≤ 0x200A) || n == 0x2028 || n == 0x2029 || n == 0x202F || n == 0x205F || n == 0x3000

/-- The characters without the blanks at both ends. -/
def trim (cs : List Char) : List Char :=
  ((cs.dropWhile isBlank).reverse.dropWhile isBlank).reverse

end GameSheet.Text
