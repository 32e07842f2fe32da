/-!
# Texts in bytes

A text is stored as its UTF-8 bytes. Reading is total: whatever bytes there are, they stand for a text, in which the
replacement character takes the place of bytes that are no character. A byte that cannot go on with the character at
hand ends it, one replacement character stands for what was read of it, and the byte is read anew.
-/

namespace GameSheet.Text

/-- The bytes of a text. -/
def utf8 (s : String) : List UInt8 :=
  s.toUTF8.data.toList

/-- The character that stands for bytes that are none. -/
def replacement : Char := '\uFFFD'

/-- The characters read so far, last first, and what is known of the character at hand: how many bytes it still
needs, between which bounds the next one lies, and the value of the bytes before. -/
structure Decoding where
  done : List Char := []
  owed : Nat := 0
  low : Nat := 0x80
  high : Nat := 0xBF
  value : Nat := 0

namespace Decoding

/-- After a byte that starts a character. -/
def first (done : List Char) (b : Nat) : Decoding :=
  if b < 0x80 then { done := Char.ofNat b :: done }
  else if 0xC2 ≤ b && b ≤ 0xDF then { done := done, owed := 1, value := b - 0xC0 }
  else if 0xE0 ≤ b && b ≤ 0xEF then
    { done := done
      owed := 2
      low := if b = 0xE0 then 0xA0 else 0x80
      high := if b = 0xED then 0x9F else 0xBF
      value := b - 0xE0 }
  else if 0xF0 ≤ b && b ≤ 0xF4 then
    { done := done
      owed := 3
      low := if b = 0xF0 then 0x90 else 0x80
      high := if b = 0xF4 then 0x8F else 0xBF
      value := b - 0xF0 }
  else { done := replacement :: done }

/-- After one more byte. -/
def step (s : Decoding) (byte : UInt8) : Decoding :=
  let b := byte.toNat
  if s.owed = 0 then first s.done b
  else if s.low ≤ b && b ≤ s.high then
    let value := s.value * 0x40 + (b - 0x80)
    if s.owed = 1 then { done := Char.ofNat value :: s.done }
    else { done := s.done, owed := s.owed - 1, value := value }
  else first (replacement :: s.done) b

/-- The characters after the last byte. -/
def finish (s : Decoding) : List Char :=
  (if s.owed = 0 then s.done else replacement :: s.done).reverse

end Decoding

/-- The characters that bytes stand for. -/
def ofUtf8 (bytes : List UInt8) : List Char :=
  (bytes.foldl Decoding.step {}).finish

end GameSheet.Text
