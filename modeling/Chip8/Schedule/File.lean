import Chip8.Text.Blank
import Chip8.Text.Literal
import Chip8.Text.Lower
import Chip8.Text.Quoted
import Chip8.Text.Utf8
import Chip8.Value

/-!
# Key schedule files

A schedule is a text of lines `<tick> <key> [down|up]` : an integer literal, the name of a key, and
whether the key goes down, which it does if nothing is said. Blank lines and lines that begin with `#` say
nothing. The name is not looked up here, and words behind the direction are not looked at.

A file of it is read in pieces of `pieceSize` bytes, and each line as soon as its end is known. Of a refused
line and malformed bytes the one that is met first is the error (`Schedule.readBytes`).
-/

namespace Chip8

namespace Schedule

/-- A line of a schedule. -/
structure Line where
  tick : Int
  key : String
  pressed : Bool
deriving DecidableEq

/-- Why a line is refused. -/
inductive Fault where
  | tick
  | noKey
  | direction
deriving DecidableEq

/-- A refused line, without the blanks around it. -/
structure Error where
  fault : Fault
  line : List Char
deriving DecidableEq

/-- The text of the error of a line. -/
def Error.message (e : Error) : String :=
  let why := match e.fault with
    | .tick => "bad tick"
    | .noKey => "no key"
    | .direction => "direction must be down/up"
  "Bad schedule line (" ++ why ++ "): " ++ Text.quoted (String.ofList e.line)

/-- The direction that a word gives, in any case. -/
def direction? (word : List Char) : Option Bool :=
  let word := Text.lowerFrom false word
  if word = "down".toList then some true else if word = "up".toList then some false else none

/-- Read the words of a line that has some. -/
def readWords : List (List Char) → Except Fault Line
  | [] => .error .noKey
  | tick :: rest =>
    match Text.Literal.read 10 tick, rest with
    | .error _, _ => .error .tick
    | .ok _, [] => .error .noKey
    | .ok tick, [key] => .ok ⟨tick, String.ofList key, true⟩
    | .ok tick, key :: direction :: _ =>
      match direction? direction with
      | some pressed => .ok ⟨tick, String.ofList key, pressed⟩
      | none => .error .direction

/-- Whether a line without the blanks around it says nothing. -/
def isRemark (line : List Char) : Bool := line.isEmpty || line.head? == some '#'

/-- Read one line. A line that says nothing is no event. -/
def readLine (line : List Char) : Except Error (Option Line) :=
  let line := Text.strip line
  if isRemark line then .ok none
  else ((readWords (Text.words line)).map some).mapError (⟨·, line⟩)

/-- Read the lines of a schedule, or the first that is refused. -/
def readLines : List (List Char) → Except Error (List Line)
  | [] => .ok []
  | line :: rest => do
    let event ← readLine line
    let events ← readLines rest
    return event.toList ++ events

/-- Read a schedule. -/
def read (text : List Char) : Except Error (List Line) := readLines (Text.lines text)

/-- Why a schedule file is refused. -/
inductive Refusal where
  | line (e : Error)
  /-- Its bytes are no text. -/
  | undecodable
deriving DecidableEq

/-- The text of an error. -/
def Refusal.message : Refusal → String
  | .line e => e.message
  | .undecodable => "'utf-8' codec error"

/-- How many bytes of a file are decoded at a time. -/
def pieceSize : Nat := 8192

/-- Read a schedule file. -/
def readBytes (bytes : List UInt8) : Except Refusal (List Line) :=
  match Text.Utf8.decode? bytes with
  | some text => (read text.toList).mapError .line
  | none =>
    match readLines (Text.endedLines (Text.Utf8.textBefore pieceSize bytes).toList) with
    | .ok _ => .error .undecodable
    | .error e => .error (.line e)

/-- A line as the three values of an event. -/
def Line.value (l : Line) : Value := .list [.int l.tick, .text l.key, .bool l.pressed]

/-- A line written out for a message. -/
def Line.literal (l : Line) : String :=
  "(" ++ Text.decimal l.tick ++ ", " ++ Text.quoted l.key ++ ", " ++
    (Value.bool l.pressed).literal ++ ")"

end Schedule

end Chip8
