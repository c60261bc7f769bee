/-!
# Text as bytes

Text is kept in UTF-8 (`encode`, `decode?`). A file of text is read in pieces, and a piece is decoded when
it is read : a character that the end of a piece cuts in two waits for the next one. So by the time that
malformed bytes are found, the text of the pieces before them has been read (`textBefore`).
-/

namespace Chip8.Text.Utf8

/-- A text as bytes. -/
def encode (s : String) : List UInt8 := s.toUTF8.data.toList

/-- The text of bytes. -/
def decode? (bytes : List UInt8) : Option String := String.fromUTF8? ⟨bytes.toArray⟩

theorem decode?_encode (s : String) : decode? (encode s) = some s := by
  simp only [decode?, encode, Array.toArray_toList]
  simp only [String.fromUTF8?, String.toUTF8_eq_toByteArray, dif_pos s.isValidUTF8]
  rfl

/-- Whether bytes are no text yet, and one to three bytes more can make them one. A character that lacks
bytes can be ended by the lowest or by the highest byte that continues one. -/
def isCutShort (bytes : List UInt8) : Bool :=
  [0x80, 0xBF].any fun more =>
    [1, 2, 3].any fun n => (decode? (bytes ++ List.replicate n more)).isSome

/-- The text of bytes that may end within a character. -/
def decodePart? (bytes : List UInt8) : Option String :=
  (decode? bytes).or <| [1, 2, 3].findSome? fun n =>
    let whole := bytes.length - n
    if isCutShort (bytes.drop whole) then decode? (bytes.take whole) else none

/-- The text of the pieces, of `size` bytes each, before the first one that is malformed. -/
def textBefore (size : Nat) (bytes : List UInt8) : String :=
  ((List.range (bytes.length / size + 2)).reverse.findSome? fun pieces =>
    decodePart? (bytes.take (pieces * size))).getD ""

end Chip8.Text.Utf8
