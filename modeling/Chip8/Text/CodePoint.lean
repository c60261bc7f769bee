/-!
# Code points

What a text is made of where its characters are given by number : characters, and surrogates. A surrogate is
half of a character in another encoding and no character by itself, so a text with one among its code
points is no string (`CodePoint.string?`).
-/

namespace Chip8.Text

/-- A character, or a surrogate that stands alone. -/
inductive CodePoint where
  | char (c : Char)
  | surrogate (n : Nat)
deriving DecidableEq

namespace CodePoint

/-- The code point of a number below 0x110000. -/
def ofNat (n : Nat) : CodePoint := if n.isValidChar then .char (Char.ofNat n) else .surrogate n

/-- The character of a code point. -/
def char? : CodePoint → Option Char
  | char c => some c
  | surrogate _ => none

/-- The character that stands for a code point where only its class counts : a surrogate is no letter, digit
or blank, and neither is the replacement character. -/
def toChar (p : CodePoint) : Char := p.char?.getD '\ufffd'

/-- The code points of a string. -/
def ofString (s : String) : List CodePoint := s.toList.map char

/-- The string of code points, unless a surrogate is among them. -/
def string? (ps : List CodePoint) : Option String := (ps.mapM char?).map String.ofList

/-- Change the runs of characters between surrogates, with `run` the characters, last first, of the run begun
before. -/
def mapRunsFrom (f : List Char → List Char) (run : List Char) : List CodePoint → List CodePoint
  | [] => (f run.reverse).map char
  | char c :: ps => mapRunsFrom f (c :: run) ps
  | surrogate n :: ps => (f run.reverse).map char ++ surrogate n :: mapRunsFrom f [] ps

/-- Change each run of characters between surrogates. -/
def mapRuns (f : List Char → List Char) (ps : List CodePoint) : List CodePoint := mapRunsFrom f [] ps

end CodePoint

end Chip8.Text
