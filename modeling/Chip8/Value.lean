import Chip8.Calendar
import Chip8.Number.Shortest
import Chip8.Text.Literal
import Chip8.Text.Quoted

/-!
# Dynamic values

What a user hands in before its form is known : the settings of a configuration, the parts of a key
event. `Value.toInt` is the one reading of a value as an integer, `Value.truthy` the one reading as
a yes or no, and `Value.literal` writes a value out for a message.
-/

namespace Chip8

/-- A value of any kind. -/
inductive Value where
  | null
  | bool (b : Bool)
  | int (i : Int)
  | real (x : Binary64)
  | text (s : String)
  /-- A text with a surrogate among its code points. -/
  | broken (points : List Text.CodePoint)
  | bytes (bs : List UInt8)
  | list (items : List Value)
  /-- Keys with their values. No two keys are the same (`Value.sameKey`). -/
  | map (entries : List (Value × Value))
  /-- Keys without values. -/
  | set (keys : List Value)
  | day (d : Day)
  | moment (m : Moment)
deriving Inhabited

/-- Why a value is no integer. -/
inductive IntError where
  /-- A text that is no integer literal. It is kept in quotes. -/
  | malformed (quotation : String)
  /-- A literal with too many digits. -/
  | tooLong (digits : Nat)
  /-- An infinite number. -/
  | infinite
  /-- The undefined number. -/
  | undefined
  /-- A value of another kind. -/
  | kind (name : String)
deriving DecidableEq

/-- The text of an error. -/
def IntError.message : IntError → String
  | .malformed quotation => Text.Literal.malformedMessage 10 quotation
  | .tooLong digits => Text.Literal.limitMessage (some digits)
  | .infinite => "cannot convert float infinity to integer"
  | .undefined => "cannot convert float NaN to integer"
  | .kind name =>
    "int() argument must be a string, a bytes-like object or a real number, not '" ++ name ++ "'"

namespace Value

/-- The kind of a value, as messages name it. -/
def kind : Value → String
  | null => "NoneType"
  | bool _ => "bool"
  | int _ => "int"
  | real _ => "float"
  | text _ | broken _ => "str"
  | bytes _ => "bytes"
  | list _ => "list"
  | map _ => "dict"
  | set _ => "set"
  | day _ => "datetime.date"
  | moment _ => "datetime.datetime"

/-- The value of a text of code points. -/
def ofPoints (ps : List Text.CodePoint) : Value :=
  match Text.CodePoint.string? ps with
  | some s => text s
  | none => broken ps

/-- The outcome of reading an integer literal, whose text is at hand in quotes. -/
def ofLiteral (quotation : String) : Except Text.Literal.Error Int → Except IntError Int
  | .ok i => .ok i
  | .error .malformed => .error (.malformed quotation)
  | .error (.tooLong digits) => .error (.tooLong digits)

/-- The character of a byte, a replacement for one that is not of ASCII. -/
def byteChar (b : UInt8) : Char := if b < 128 then Char.ofNat b.toNat else '\ufffd'

/-- Read a value as an integer : a truth value as 0 or 1, a fraction cut off toward zero, a text or bytes as
a literal. -/
def toInt : Value → Except IntError Int
  | bool b => .ok (if b then 1 else 0)
  | int i => .ok i
  | real .nan => .error .undefined
  | real (.infinity _) => .error .infinite
  | real x => .ok (x.truncate?.getD 0)
  | text s => ofLiteral (Text.quoted s) (Text.Literal.read 10 s.toList)
  | broken ps => ofLiteral (Text.quotedPoints ps) (Text.Literal.readPoints 10 ps)
  | bytes bs => ofLiteral (Text.quotedBytes bs) (Text.Literal.read 10 (bs.map byteChar))
  | v => .error (.kind v.kind)

/-- Whether a value counts as yes : anything but null, no, zero and the empty ones. -/
def truthy : Value → Bool
  | null => false
  | bool b => b
  | int i => i != 0
  | real x => !x.isZero
  | text s => s != ""
  | broken ps => !ps.isEmpty
  | bytes bs => !bs.isEmpty
  | list items | set items => !items.isEmpty
  | map entries => !entries.isEmpty
  | day _ | moment _ => true

/-- The parts of a value that can be taken apart : the items of a list, the characters of a text, the numbers
of bytes, the keys of a map. -/
def parts? : Value → Option (List Value)
  | list items | set items => some items
  | text s => some (s.toList.map fun c => text (String.singleton c))
  | broken ps => some (ps.map fun p => ofPoints [p])
  | bytes bs => some (bs.map fun b => int b.toNat)
  | map entries => some (entries.map Prod.fst)
  | _ => none

/-- The integer that a number is equal to. A truth value is the number 0 or 1. -/
def asInt? : Value → Option Int
  | bool b => some (if b then 1 else 0)
  | int i => some i
  | real x => x.toInt?
  | _ => none

/-- Whether two values are the same key. Numbers of all kinds are the same if they are equal. -/
def sameKey : Value → Value → Bool
  | null, null => true
  | text a, text b => a == b
  | broken a, broken b => a == b
  | bytes a, bytes b => a == b
  | day a, day b => a == b
  | moment a, moment b => a.same b
  | real a, real b => if a.isZero then b.isZero else a != .nan && a == b
  | a, b =>
    match a.asInt?, b.asInt? with
    | some i, some j => i == j
    | _, _ => false

/-- Entries with a key set to a value. A key that is there keeps its place and its form. -/
def setKey (entries : List (Value × Value)) (key value : Value) : List (Value × Value) :=
  match entries with
  | [] => [(key, value)]
  | (k, v) :: rest => if k.sameKey key then (k, value) :: rest else (k, v) :: setKey rest key value

/-- The value of a text key. -/
def lookup? (entries : List (Value × Value)) (key : String) : Option Value :=
  (entries.find? fun e => e.1.sameKey (text key)).map Prod.snd

mutual

/-- A value written out. -/
def literal : Value → String
  | null => "None"
  | bool b => if b then "True" else "False"
  | int i => Text.decimal i
  | real x => x.text
  | text s => Text.quoted s
  | broken ps => Text.quotedPoints ps
  | bytes bs => Text.quotedBytes bs
  | list items => "[" ++ ", ".intercalate (literals items) ++ "]"
  | map entries => "\x7b" ++ ", ".intercalate (entryLiterals entries) ++ "\x7d"
  | set keys => "\x7b" ++ ", ".intercalate (literals keys) ++ "\x7d"
  | day d => d.text
  | moment m => m.text

/-- Values written out, one by one. -/
def literals : List Value → List String
  | [] => []
  | v :: vs => literal v :: literals vs

/-- Entries of a map written out, one by one. -/
def entryLiterals : List (Value × Value) → List String
  | [] => []
  | (k, v) :: es => (literal k ++ ": " ++ literal v) :: entryLiterals es

end

end Value

end Chip8
