import Chip8.Yaml.Token.Property

/-!
# Scalars in the text

The four forms of a scalar : between quotes (`quoted`), as a block of lines (`block`), and plain (`plain`).
A line end inside a quoted or a plain scalar is folded : alone it stands for a space, and of several
all but the first count (`foldBreaks`).
-/

namespace Chip8.Yaml

open Text (CodePoint)

/-- What a line end and the line ends after it, with blanks between them, stand for. -/
def foldBreaks (first : Char) (more : List Char) : List Char :=
  if first ≠ '\n' then first :: more else if more = [] then [' '] else more

/-! ## Quoted scalars -/

/-- A piece of a quoted scalar. -/
inductive Piece where
  | point (p : CodePoint)
  | blank (c : Char)
  | lineEnd (c : Char)
  /-- A line end that a backslash hides. -/
  | hiddenEnd
deriving DecidableEq

/-- The character that a backslash and a letter stand for. -/
def escape? : Char → Option Char
  | '0' => some '\x00' | 'a' => some '\x07' | 'b' => some '\x08' | 't' => some '\t'
  | '\t' => some '\t' | 'n' => some '\n' | 'v' => some '\x0b' | 'f' => some '\x0c'
  | 'r' => some '\r' | 'e' => some '\x1b' | ' ' => some ' ' | '"' => some '"'
  | '\\' => some '\\' | '/' => some '/' | 'N' => some '\x85' | '_' => some '\xa0'
  | 'L' => some '\u2028' | 'P' => some '\u2029'
  | _ => none

/-- How many hexadecimal digits follow a backslash and a letter. -/
def escapeWidth? : Char → Option Nat
  | 'x' => some 2
  | 'u' => some 4
  | 'U' => some 8
  | _ => none

/-- The pieces of a quoted scalar up to its closing quote, and the cursor behind it. Each step takes a character
at least. -/
def piecesWithin (double : Bool) : Nat → Cursor → Except Stop (List Piece × Cursor)
  | 0, _ => refuse
  | fuel + 1, c => do
    let next (piece : Piece) (width : Nat) : Except Stop (List Piece × Cursor) := do
      let (more, c) ← piecesWithin double fuel (c.advanceBy width)
      return (piece :: more, c)
    let nextLine (piece : Piece) (width : Nat) : Except Stop (List Piece × Cursor) := do
      if ← (c.advanceBy width).atDocumentMark then refuse else next piece width
    c.need 1
    match c.rest with
    | [] => refuse
    | ch :: cs =>
      if ch = (if double then '"' else '\'') then
        c.need 2
        if !double && cs.head? = some '\'' then next (.point (.char '\'')) 2 else return ([], c.advance)
      else if double && ch = '\\' then
        c.need 2
        match cs with
        | [] => refuse
        | letter :: _ =>
          if isBreak letter then nextLine .hiddenEnd 2
          else match escape? letter, escapeWidth? letter with
            | some e, _ => next (.point (.char e)) 2
            | none, some width =>
              let n ← hexNumber width (c.advanceBy 2)
              if n < 0x110000 then next (.point (.ofNat n)) (width + 2)
              else throw (.error (.scalar (.noCharacter n)))
            | none, none => refuse
      else if isBreak ch then nextLine (.lineEnd (breakChar ch)) 1
      else if ch = ' ' || ch = '\t' then next (.blank ch) 1
      else next (.point (.char ch)) 1

/-- Where the folding of pieces stands : behind blanks on a line, or behind line ends. -/
inductive Folding where
  | blanks (held : Array Char)
  | ends (first : Option Char) (more : Array Char)

/-- The characters that a folding has kept back. -/
def Folding.release : Folding → List CodePoint
  | blanks held => held.toList.map .char
  | ends (some first) more => (foldBreaks first more.toList).map .char
  | ends none more => more.toList.map .char

/-- The characters of pieces, blanks around line ends left out and the line ends folded. -/
def foldPieces (state : Folding) : List Piece → List CodePoint
  | [] => state.release
  | .point p :: ps => state.release ++ p :: foldPieces (.blanks #[]) ps
  | .hiddenEnd :: ps => state.release ++ foldPieces (.ends none #[]) ps
  | .blank c :: ps =>
    match state with
    | .blanks held => foldPieces (.blanks (held.push c)) ps
    | .ends first more => foldPieces (.ends first more) ps
  | .lineEnd c :: ps =>
    match state with
    | .blanks _ => foldPieces (.ends (some c) #[]) ps
    | .ends first more => foldPieces (.ends first (more.push c)) ps

/-- The quoted scalar at its opening quote, and the cursor behind it. -/
def quoted (double : Bool) (c : Cursor) : Except Stop (List CodePoint × Cursor) := do
  let (pieces, after) ← piecesWithin double c.bound c.advance
  return (foldPieces (.blanks #[]) pieces, after)

/-! ## Block scalars -/

/-- What becomes of the line ends behind the last line. -/
inductive Chomping where
  /-- One is kept. -/
  | clip
  /-- None is kept. -/
  | strip
  /-- All are kept. -/
  | keep
deriving DecidableEq

/-- The chomping that an indicator asks for. -/
def chomping? : Char → Option Chomping
  | '+' => some .keep
  | '-' => some .strip
  | _ => none

/-- The indentation that an indicator asks for, zero excluded. -/
def increment? (c : Char) : Option Nat := if '1' ≤ c && c ≤ '9' then some (c.toNat - 48) else none

/-- The indicators behind the mark of a block scalar, in either order. -/
def header (c : Cursor) : Chomping × Option Nat × Cursor :=
  match c.rest with
  | a :: b :: _ =>
    match chomping? a, increment? a with
    | some chomp, _ =>
      match increment? b with
      | some i => (chomp, some i, c.advanceBy 2)
      | none => (chomp, none, c.advance)
    | none, some i =>
      match chomping? b with
      | some chomp => (chomp, some i, c.advanceBy 2)
      | none => (.clip, some i, c.advance)
    | none, none => (.clip, none, c)
  | [a] =>
    match chomping? a, increment? a with
    | some chomp, _ => (chomp, none, c.advance)
    | none, some i => (.clip, some i, c.advance)
    | none, none => (.clip, none, c)
  | [] => (.clip, none, c)

/-- Move past the empty lines in front of a block. The answer has their ends, and the widest run
of spaces met. -/
def leadingWithin : Nat → Cursor → List Char × Nat × Cursor
  | 0, c => ([], 0, c)
  | fuel + 1, c =>
    match c.rest with
    | ' ' :: _ =>
      let (ends, widest, after) := leadingWithin fuel c.advance
      (ends, max c.advance.column widest, after)
    | ch :: _ =>
      if isBreak ch then
        let (ends, widest, after) := leadingWithin fuel c.advance
        (breakChar ch :: ends, widest, after)
      else ([], 0, c)
    | [] => ([], 0, c)

/-- Move past spaces, to a column at most. -/
def indentTo (column : Nat) (c : Cursor) : Cursor :=
  c.advanceBy ((c.rest.take (column - c.column)).takeWhile (· = ' ')).length

/-- Move past the empty lines inside a block of an indentation. The answer has their ends. -/
def emptyLinesWithin (indent : Nat) : Nat → Cursor → List Char × Cursor
  | 0, c => ([], c)
  | fuel + 1, c =>
    let c := indentTo indent c
    match c.takeBreak? with
    | some (ch, c) =>
      let (ends, c) := emptyLinesWithin indent fuel c
      (ch :: ends, c)
    | none => ([], c)

/-- The empty lines inside a block. -/
def emptyLines (indent : Nat) (c : Cursor) : List Char × Cursor :=
  emptyLinesWithin indent c.bound c

/-- Whether a line begins with something else than a blank. -/
def beginsFlush (c : Cursor) : Bool :=
  match c.rest with
  | ch :: _ => ch ≠ ' ' && ch ≠ '\t'
  | [] => true

/-- The lines of a block, with `ends` the ends of the empty lines in front. The answer has the text, the end
of the last line and the ends of the empty lines behind it. -/
def blockLinesWithin (folded : Bool) (indent : Nat) :
    Nat → List Char → Cursor → List Char × List Char × List Char × Cursor
  | 0, ends, c => ([], [], ends, c)
  | fuel + 1, ends, c =>
    let flush := beginsFlush c
    let (line, c) := c.span (!isBreak ·)
    let (lineEnd, c) := match c.takeBreak? with
      | some (ch, c) => ([ch], c)
      | none => ([], c)
    let (next, c) := emptyLines indent c
    if c.column = indent ∧ c.rest ≠ [] then
      let joint :=
        if folded && lineEnd = ['\n'] && flush && beginsFlush c then
          if next = [] then [' '] else []
        else lineEnd
      let (text, last, behind, c) := blockLinesWithin folded indent fuel next c
      (ends ++ line ++ joint ++ text, last, behind, c)
    else (ends ++ line, lineEnd, next, c)

/-- The block scalar at its mark, inside a block that is indented to a column, and the cursor behind it. -/
def block (folded : Bool) (parent : Int) (c : Cursor) : Except Stop (List CodePoint × Cursor) := do
  let (chomp, increment, c) := header c.advance
  if !endsField c.rest then refuse
  else
    let c ← c.finishLine
    let least := (max 1 (parent + 1)).toNat
    let (ends, indent, c) :=
      match increment with
      | some i =>
        let indent := least + i - 1
        let (ends, c) := emptyLines indent c
        (ends, indent, c)
      | none =>
        let (ends, widest, c) := leadingWithin c.bound c
        (ends, max least widest, c)
    let (text, last, behind, c) :=
      if c.column = indent ∧ c.rest ≠ [] then
        blockLinesWithin folded indent c.bound ends c
      else ([], [], ends, c)
    c.need 1
    let tail := match chomp with
      | .clip => last
      | .strip => []
      | .keep => last ++ behind
    return ((text ++ tail).map .char, c)

/-! ## Plain scalars -/

/-- Whether a plain scalar ends in front of a text, inside a flow collection or outside. -/
def endsPlain (flow : Bool) : List Char → Bool
  | ':' :: cs =>
    endsWord cs || (flow && (cs.head?.any fun c => ",[]\x7b\x7d".toList.contains c))
  | cs => endsWord cs || (flow && (cs.head?.any fun c => ",?[]\x7b\x7d".toList.contains c))

/-- How many characters in front of the end of a plain scalar's word. -/
def wordLength (flow : Bool) : List Char → Nat
  | [] => 0
  | c :: cs => if endsPlain flow (c :: cs) then 0 else wordLength flow cs + 1

/-- Move past the line ends and the spaces behind the end of a line. The answer has the line ends, or none
of them in front of a mark between documents. -/
def plainEndsWithin : Nat → Cursor → Except Stop (Option (List Char) × Cursor)
  | 0, c => return (some [], c)
  | fuel + 1, c => do
    match c.rest with
    | ' ' :: _ => plainEndsWithin fuel c.advance
    | ch :: _ =>
      if isBreak ch then
        if ← c.advance.atDocumentMark then return (none, c.advance)
        else
          let (ends, after) ← plainEndsWithin fuel c.advance
          return (ends.map (breakChar ch :: ·), after)
      else return (some [], c)
    | [] => return (some [], c)

/-- The joint between two words of a plain scalar, and the cursor behind it. The flag says whether a line
ended. Without a joint the scalar ends. -/
def plainJoint (c : Cursor) : Except Stop (List Char × Bool × Cursor) := do
  let (spaces, c) := c.span (· = ' ')
  match c.takeBreak? with
  | none => return (spaces, false, c)
  | some (first, c) =>
    if ← c.atDocumentMark then return ([], true, c)
    else
      match ← plainEndsWithin c.bound c with
      | (some more, c) => return (foldBreaks first more, true, c)
      | (none, c) => return ([], true, c)

/-- The words of a plain scalar behind a joint, inside a block that is indented to a column. -/
def plainWithin (flow : Bool) (parent : Int) :
    Nat → List Char → Bool → Cursor → Except Stop (List Char × Bool × Cursor)
  | 0, _, broken, c => return ([], broken, c)
  | fuel + 1, joint, broken, c => do
    c.need 1
    if c.rest.head? = some '#' then return ([], broken, c)
    let length := wordLength flow c.rest
    c.need (length + 1)
    if c.rest[length]? = some ':' then c.need (length + 2)
    if length = 0 then return ([], broken, c)
    let word := c.rest.take length
    let (next, broken, c) ← plainJoint (c.advanceBy length)
    c.need 1
    if next = [] || (!flow && (c.column : Int) ≤ parent) then return (joint ++ word, broken, c)
    else
      let (more, broken', c) ← plainWithin flow parent fuel next broken c
      return (joint ++ word ++ more, broken', c)

/-- The plain scalar at the cursor, and the cursor behind it. The flag says whether a line ended last. -/
def plain (flow : Bool) (parent : Int) (c : Cursor) :
    Except Stop (List CodePoint × Bool × Cursor) := do
  let (text, broken, after) ← plainWithin flow parent c.bound [] false c
  return (text.map .char, broken, after)

end Chip8.Yaml
