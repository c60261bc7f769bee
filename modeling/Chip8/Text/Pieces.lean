import Chip8.Number.Binary64
import Chip8.Text.Blank
import Chip8.Text.Utf8

/-!
# Text read some characters at a time

A reader that is asked for characters takes bytes until it has them. It takes a piece of them at a time, and the
larger one the more characters it lacks and the more bytes a character of the last piece had (`pieceSize`).
Malformed bytes are met with the piece that they stand in. So by then the characters of the pieces before it
have been read (`charsBefore`).
-/

namespace Chip8.Text.Utf8

/-- How many bytes are taken for some characters, if the last piece had `bytes` bytes and `chars` characters. -/
def pieceSize (lacking bytes chars : Nat) : Nat :=
  let wanted := ((Binary64.ofRatio false (max bytes chars) chars).mul (.ofNat lacking)).truncate?
  if chars = 0 then 8192 else max 8192 (wanted.getD 0).toNat

/-- The characters of bytes that go on behind, with a line feed for every line end. A character or a line end that
may be cut in two is left out. -/
def charsOfPart? (bytes : List UInt8) : Option (List Char) :=
  (decodePart? bytes).map fun text =>
    let cs := text.toList
    unifyLineEnds (if cs.getLast? = some '\r' then cs.dropLast else cs)

/-- The characters read before malformed bytes are met, from a place on up to which `cs` have been read, in at
most `fuel` pieces. The last piece had `last` bytes and characters. -/
def charsBeforeWithin (batch : Nat) (bytes : List UInt8) :
    (fuel : Nat) → (place : Nat) → (last : Nat × Nat) → (cs : List Char) → List Char
  | 0, _, _, cs => cs
  | fuel + 1, place, last, cs =>
    let size := min (pieceSize (batch - cs.length % batch) last.1 last.2) (bytes.length - place)
    if size = 0 then cs
    else
      match charsOfPart? (bytes.take (place + size)) with
      | some more =>
        charsBeforeWithin batch bytes fuel (place + size) (size, more.length - cs.length) more
      | none => cs

/-- The characters that are read, `batch` at a time, before bytes are met that are no text. -/
def charsBefore (batch : Nat) (bytes : List UInt8) : List Char :=
  charsBeforeWithin batch bytes bytes.length 0 (0, 0) []

end Chip8.Text.Utf8
