import Chip8.Text.CodePoint
import Chip8.Text.Printable

/-!
# Quoted text

A text in quotes, so that it shows on one line of a message what it holds. Single quotes enclose
it unless it holds one and no double quote. The enclosing quote and the backslash stand behind a
backslash, tab, line feed and carriage return have their short forms, and any other unprintable
character is written by its number. So is a surrogate.

Bytes are quoted as the text of their numbers, behind a letter `b`, and only those of ASCII are printable.
-/

namespace Chip8.Text

namespace Quoted

/-- A number in lower-case hexadecimal, `width` digits wide. -/
def code (width : Nat) (n : Nat) : List Char := (Nat.toDigits 16 n).leftpad width '0'

/-- A character between quotes. -/
def escape (printable : Char → Bool) (quote : Char) (c : Char) : List Char :=
  if c = quote || c = '\\' then ['\\', c]
  else if c = '\t' then ['\\', 't']
  else if c = '\n' then ['\\', 'n']
  else if c = '\r' then ['\\', 'r']
  else if printable c then [c]
  else if c.toNat < 0x100 then '\\' :: 'x' :: code 2 c.toNat
  else if c.toNat < 0x10000 then '\\' :: 'u' :: code 4 c.toNat
  else '\\' :: 'U' :: code 8 c.toNat

/-- A code point between quotes. -/
def escapePoint (quote : Char) : CodePoint → List Char
  | .char c => escape isPrintable quote c
  | .surrogate n => '\\' :: 'u' :: code 4 n

/-- The quote that encloses a text. -/
def enclosing (cs : List Char) : Char :=
  if '\'' ∈ cs ∧ '"' ∉ cs then '"' else '\''

/-- Whether a character is printable and one of ASCII. -/
def isPlain (c : Char) : Bool := ' ' ≤ c && c ≤ '~'

end Quoted

/-- A text of code points in quotes. -/
def quotedPoints (ps : List CodePoint) : String :=
  let quote := Quoted.enclosing (ps.map CodePoint.toChar)
  String.ofList (quote :: ps.flatMap (Quoted.escapePoint quote) ++ [quote])

/-- A text in quotes. -/
def quoted (s : String) : String := quotedPoints (CodePoint.ofString s)

/-- Bytes in quotes. -/
def quotedBytes (bytes : List UInt8) : String :=
  let cs := bytes.map fun b => Char.ofNat b.toNat
  let quote := Quoted.enclosing cs
  String.ofList ('b' :: quote :: cs.flatMap (Quoted.escape Quoted.isPlain quote) ++ [quote])

end Chip8.Text
