/-!
# Blanks

The characters that separate words : the controls from tab to carriage return and from U+001C
to U+001F, the next-line control, and every space, line and paragraph separator of Unicode.
The zero-width space and the byte-order mark are none.
-/

namespace Chip8.Text

/-- Whether a character separates words. -/
def isBlank (c : Char) : Bool :=
  let n := c.toNat
  (0x09 ≤ n && n ≤ 0x0D) || (0x1C ≤ n && n ≤ 0x20) || n = 0x85 || n = 0xA0 || n = 0x1680 ||
    (0x2000 ≤ n && n ≤ 0x200A) || n = 0x2028 || n = 0x2029 || n = 0x202F || n = 0x205F || n = 0x3000

/-- A list without the items of a kind at its ends. -/
def trim {α : Type} (drop : α → Bool) (xs : List α) : List α :=
  ((xs.dropWhile drop).reverse.dropWhile drop).reverse

/-- A text without the blanks at its ends. -/
def strip (cs : List Char) : List Char := trim isBlank cs

/-- Whether a character may stand around a number. Of the blanks, those from U+001C to U+001F, which separate
records, may not. -/
def isMargin (c : Char) : Bool := isBlank c && !(0x1C ≤ c.toNat && c.toNat ≤ 0x1F)

/-- The words of a text, with `word` the letters, last first, of the word begun before it. -/
def wordsFrom (word : List Char) : List Char → List (List Char)
  | [] => if word = [] then [] else [word.reverse]
  | c :: cs =>
    if isBlank c then if word = [] then wordsFrom [] cs else word.reverse :: wordsFrom [] cs
    else wordsFrom (c :: word) cs

/-- The words of a text : its longest runs without blanks. -/
def words (cs : List Char) : List (List Char) := wordsFrom [] cs

/-- The lines of a text, with `line` the characters, last first, of the line begun before it. -/
def linesFrom (line : List Char) : List Char → List (List Char)
  | [] => if line = [] then [] else [line.reverse]
  | '\r' :: '\n' :: cs => line.reverse :: linesFrom [] cs
  | '\r' :: cs => line.reverse :: linesFrom [] cs
  | '\n' :: cs => line.reverse :: linesFrom [] cs
  | c :: cs => linesFrom (c :: line) cs

/-- The lines of a text, without their ends. A line ends at a line feed, a carriage return or the two
together, and an end of the text right after one begins no further line. -/
def lines (cs : List Char) : List (List Char) := linesFrom [] cs

/-- The lines of a text that goes on : what follows the last line end is no line yet, and a carriage return at
the very end may be half of a line end. -/
def endedLines (cs : List Char) : List (List Char) :=
  let cs := if cs.getLast? = some '\r' then cs.dropLast else cs
  lines (cs.reverse.dropWhile fun c => c ≠ '\n' && c ≠ '\r').reverse

/-- The text with a line feed for every line end. -/
def unifyLineEnds : List Char → List Char
  | [] => []
  | '\r' :: '\n' :: cs => '\n' :: unifyLineEnds cs
  | '\r' :: cs => '\n' :: unifyLineEnds cs
  | c :: cs => c :: unifyLineEnds cs

end Chip8.Text
