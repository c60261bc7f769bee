import Chip8.Machine.Keypad
import Chip8.Text.Lower
import Chip8.Value

/-!
# Naming a key

A key is named by its number, by a hexadecimal literal that begins with `0x`, or by the character of the
keyboard that lies where the key does :

    1 2 3 4        1 2 3 C
    q w e r        4 5 6 D
    a s d f        7 8 9 E
    z x c v        A 0 B F

A digit as a text is a character of the keyboard and as a number a key, so they name different keys.
-/

namespace Chip8

namespace Key

/-- Why a value names no key. -/
inductive Error where
  /-- A truth value. -/
  | bool (b : Bool)
  /-- Neither a number nor a name. -/
  | unknown (v : Value)
  /-- It begins like a hexadecimal literal and is none. The text is in the form it was read in, and in
  quotes. -/
  | malformed (quotation : String)
  /-- The number is no key's. -/
  | outOfRange (k : Int)

/-- Whether a number has more decimal digits than are written out. -/
def isTooLong (k : Int) : Bool := Nat.pow 10 Text.Literal.maxDigits ≤ k.natAbs

/-- The text of an error. -/
def Error.message : Error → String
  | .bool b => "Bad key: " ++ (Value.bool b).literal
  | .unknown v => "Unknown key: " ++ v.literal
  | .malformed quotation => Text.Literal.malformedMessage 16 quotation
  | .outOfRange k =>
    if isTooLong k then Text.Literal.limitMessage none
    else "Key " ++ Text.decimal k ++ " out of range (0..15)"

/-- The character of each key, in the order of the keys. -/
def keyboard : Vector Char 16 :=
  #v['x', '1', '2', '3', 'q', 'w', 'e', 'a', 's', 'd', 'z', 'c', '4', 'r', 'f', 'v']

/-- The key at a character of the keyboard. -/
def ofChar? (c : Char) : Option Key := (List.finRange 16).find? fun key => keyboard.get key == c

/-- The key of a number. -/
def ofInt (k : Int) : Except Error Key :=
  if h : 0 ≤ k ∧ k < 16 then .ok ⟨k.toNat, by omega⟩ else .error (.outOfRange k)

/-- The key that a text names, whatever its case and the blanks around it. -/
def ofText (s : String) : Except Error Key :=
  let name := Text.lowerFrom false (Text.strip s.toList)
  if ['0', 'x'].isPrefixOf name then
    match Text.Literal.read 16 name with
    | .ok k => ofInt k
    | .error _ => .error (.malformed (Text.quoted (String.ofList name)))
  else
    match name with
    | [c] =>
      match ofChar? c with
      | some key => .ok key
      | none => .error (.unknown (.text s))
    | _ => .error (.unknown (.text s))

/-- Why a text with a surrogate in it names no key. -/
def brokenError (ps : List Text.CodePoint) : Error :=
  let stripped := Text.trim (fun p => Text.isBlank p.toChar) ps
  let name := Text.CodePoint.mapRuns (Text.lowerFrom false) stripped
  if (Text.CodePoint.ofString "0x").isPrefixOf name then .malformed (Text.quotedPoints name)
  else .unknown (.broken ps)

/-- The key that a value names. -/
def resolve : Value → Except Error Key
  | .bool b => .error (.bool b)
  | .int k => ofInt k
  | .text s => ofText s
  | .broken ps => .error (brokenError ps)
  | v => .error (.unknown v)

end Key

end Chip8
