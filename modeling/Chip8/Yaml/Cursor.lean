import Chip8.Yaml.Error

/-!
# Positions in a document

A `Cursor` is what is left of a document's text with the line and the column it begins at. Line ends are
line feeds here, and the next-line control and the line and paragraph separators end a line too. The
byte-order mark takes no column.

A text may be cut off where reading it has come to. To look behind the cut is to read on, so whoever looks
ahead makes sure first that the characters are there (`Cursor.need`). Moving on looks at the character that
is come to.
-/

namespace Chip8.Yaml

/-- Whether a character ends a line. -/
def isBreak (c : Char) : Bool :=
  c = '\n' || c = '\x85' || c = '\u2028' || c = '\u2029'

/-- What a line end is in the value of a scalar. -/
def breakChar (c : Char) : Char := if c = '\x85' then '\n' else c

/-- Whether a text begins with a blank or a line end, or is empty. -/
def endsWord : List Char → Bool
  | [] => true
  | c :: _ => c = ' ' || c = '\t' || isBreak c

/-- Whether a text begins with a space or a line end, or is empty. -/
def endsField : List Char → Bool
  | [] => true
  | c :: _ => c = ' ' || isBreak c

/-- Whether a line is a mark between documents. -/
def isDocumentMark : List Char → Bool
  | '-' :: '-' :: '-' :: cs => endsWord cs
  | '.' :: '.' :: '.' :: cs => endsWord cs
  | _ => false

/-- A place in a document : the text from there on, and how far it is from the beginning. -/
structure Cursor where
  rest : List Char
  line : Nat := 0
  column : Nat := 0
  index : Nat := 0
  /-- More than the characters of the document, and so than the steps to its end. -/
  bound : Nat
  /-- Whether the document goes on behind the text. -/
  cut : Bool

namespace Cursor

/-- The beginning of a document, behind its byte-order mark. -/
def ofText (text : List Char) (cut : Bool) : Cursor :=
  let bound := text.length + 1
  match text with
  | '\ufeff' :: cs => { rest := cs, index := 1, bound, cut }
  | cs => { rest := cs, bound, cut }

/-- Make sure of some characters, one at least. Behind the end of a document there is nothing to be read. -/
def need (c : Cursor) (n : Nat) : Except Stop Unit :=
  if c.cut && (c.rest.drop (n - 1)).isEmpty then throw .unread else return ()

/-- Whether there is a mark between documents at the cursor. -/
def atDocumentMark (c : Cursor) : Except Stop Bool := do
  c.need 3
  if c.rest.take 3 = ['-', '-', '-'] ∨ c.rest.take 3 = ['.', '.', '.'] then c.need 4
  return isDocumentMark c.rest

/-- Move past one character. -/
def advance (c : Cursor) : Cursor :=
  match c.rest with
  | [] => c
  | ch :: cs =>
    if isBreak ch then { c with rest := cs, line := c.line + 1, column := 0, index := c.index + 1 }
    else
      { c with
        rest := cs
        column := if ch = '\ufeff' then c.column else c.column + 1
        index := c.index + 1 }

/-- Move past some characters. -/
def advanceBy (c : Cursor) : Nat → Cursor
  | 0 => c
  | n + 1 => c.advance.advanceBy n

/-- Move past the characters of a kind. -/
def span (c : Cursor) (p : Char → Bool) : List Char × Cursor :=
  let taken := c.rest.takeWhile p
  (taken, c.advanceBy taken.length)

/-- Move past spaces. -/
def skipSpaces (c : Cursor) : Cursor := (c.span (· = ' ')).2

/-- Move to the end of the line. -/
def skipLine (c : Cursor) : Cursor := (c.span (!isBreak ·)).2

/-- Move past a line end. -/
def takeBreak? (c : Cursor) : Option (Char × Cursor) :=
  match c.rest with
  | ch :: _ => if isBreak ch then some (breakChar ch, c.advance) else none
  | [] => none

/-- The end of a line that holds nothing more but a comment, moved past. -/
def finishLine (c : Cursor) : Except Stop Cursor := do
  let c := c.skipSpaces
  let c := if c.rest.head? = some '#' then c.skipLine else c
  c.need 1
  match c.rest, c.takeBreak? with
  | [], _ => return c
  | _, some (_, c) => c.need 1; return c
  | _, none => refuse

/-- Move past spaces, comments and line ends, at most `fuel` lines of them. The flag says whether a line
ended. -/
def toContentWithin : Nat → Cursor → Bool × Cursor
  | 0, c => (false, c)
  | fuel + 1, c =>
    let c := c.skipSpaces
    let c := if c.rest.head? = some '#' then c.skipLine else c
    match c.takeBreak? with
    | some (_, c) => (true, (toContentWithin fuel c).2)
    | none => (false, c)

/-- Move to the next character that is no space, comment or line end. -/
def toContent (c : Cursor) : Bool × Cursor := toContentWithin c.bound c

end Cursor

end Chip8.Yaml
