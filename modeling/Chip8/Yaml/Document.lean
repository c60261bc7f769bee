import Chip8.Text.Blank
import Chip8.Text.Pieces
import Chip8.Yaml.Construction
import Chip8.Yaml.Token.Lexer

/-!
# Documents

The value of a document (`Document.read`) : its text is read as tokens, the tokens as a graph of nodes, and the
nodes as values. A text may hold one document at most and no unprintable characters.

A text is read `pieceLength` characters at a time, the first two pieces at once, and no more of it than is asked
for. So a document may be refused before an unprintable character is met in a further piece, or before bytes that
are no text (`Document.errorBefore?`).
-/

namespace Chip8.Yaml

/-- Whether a document may hold a character. -/
def isAllowed (c : Char) : Bool :=
  let n := c.toNat
  n = 0x09 || n = 0x0A || n = 0x0D || (0x20 ≤ n && n ≤ 0x7E) || n = 0x85 ||
    (0xA0 ≤ n && n ≤ 0xFFFD) || 0x10000 ≤ n

namespace Document

/-- How many characters are read at a time. -/
def pieceLength : Nat := 4096

/-- How many characters are read before what stands at a place is met. -/
def lengthBefore (place : Nat) : Nat :=
  let pieces := place / pieceLength
  if pieces < 2 then 0 else pieces * pieceLength

/-- What is read of a text before an unprintable character is met, and whether there is one. -/
def printable (text : List Char) : List Char × Bool :=
  match text.findIdx? (!isAllowed ·) with
  | some place => (text.take (lengthBefore place), true)
  | none => (text, false)

/-- The value of a text, or of a part of it that is cut off. An empty document has the empty value. -/
-- no proof goes through the lexer of a text that is not given
@[irreducible] def readPart (text : List Char) (cut : Bool) : Except Stop Value := do
  match ← Graph.ofTokens (tokens text cut) with
  | none => return .null
  | some graph => graph.value.mapError .error

/-- The value of a document. -/
def read (text : List Char) : Except Error Value :=
  let (part, cut) := printable (Text.unifyLineEnds text)
  (readPart part cut).mapError fun
    | .error e => e
    | .unread => .malformed

/-- Why a document is refused before bytes are met that are no text, if it is. -/
def errorBefore? (bytes : List UInt8) : Option Error :=
  let text := Text.Utf8.charsBefore pieceLength bytes
  let (part, unprintable) := printable (text.take (lengthBefore text.length))
  match readPart part true with
  | .error (.error e) => some e
  | .error .unread => if unprintable then some .malformed else none
  | .ok _ => none

end Document

end Chip8.Yaml
