import Chip8.Calendar
import Chip8.Text.Literal
import Chip8.Text.Quoted

/-!
# Why a document has no value

A document that is not well formed is refused as a whole. What a scalar holds is an error of its own, and so
is a number in the text that cannot be what it has to be (`ScalarError`). Of a text that is read part by part,
more may be asked for than has been read (`Stop`).
-/

namespace Chip8.Yaml

open Text (CodePoint)

/-- Why a scalar cannot be read as its kind, or a number in the text as what it stands for. -/
inductive ScalarError where
  /-- No integer literal of a base. -/
  | int (base : Nat) (text : List CodePoint)
  /-- A literal with too many digits. -/
  | tooLong (digits : Nat)
  /-- No digits at all. -/
  | empty
  /-- No fraction. -/
  | float (text : List CodePoint)
  /-- A sixtieth part so far from the point that its unit is no fraction. -/
  | tooLarge
  /-- No word for a truth value. -/
  | bool (text : List CodePoint)
  /-- No moment of the calendar. -/
  | calendar (e : Calendar.Error)
  /-- Not the form of a moment. -/
  | noMoment
  /-- A moment that is the default value of a mapping. -/
  | momentOfMapping
  /-- A default value that is its own mapping, or collections too deep in each other. -/
  | endless
  /-- A character given by a number that no character has. -/
  | noCharacter (n : Nat)
deriving DecidableEq

/-- The text of an error. -/
def ScalarError.message : ScalarError → String
  | .int base text => Text.Literal.malformedMessage base (Text.quotedPoints text)
  | .tooLong digits => Text.Literal.limitMessage (some digits)
  | .empty => "string index out of range"
  | .float text => "could not convert string to float: " ++ Text.quotedPoints text
  | .tooLarge => "int too large to convert to float"
  | .bool text => Text.quotedPoints text
  | .calendar e => e.message
  | .noMoment => "'NoneType' object has no attribute 'groupdict'"
  | .momentOfMapping => "expected string or bytes-like object, got 'list'"
  | .endless => "maximum recursion depth exceeded"
  | .noCharacter n =>
    if n < 0x80000000 then "chr() arg not in range(0x110000)"
    else "Python int too large to convert to C int"

/-- Why a document has no value. -/
inductive Error where
  /-- The text is not well formed, or a node is not of the kind its tag says. -/
  | malformed
  | scalar (e : ScalarError)
deriving DecidableEq

/-- Why reading a document stops. -/
inductive Stop where
  | error (e : Error)
  /-- What is asked for lies behind the part of the text that has been read. -/
  | unread
deriving DecidableEq

/-- Give a document up as not well formed. -/
def refuse {α : Type} : Except Stop α := throw (.error .malformed)

end Chip8.Yaml
