/-!
# Bytes as text in base 64

Four letters of an alphabet of 64 stand for three bytes, and equals signs fill up the last four. Characters
that are no letters are passed over, and so is an equals sign that cannot end a group (`Base64.decode?`).
-/

namespace Chip8.Text

namespace Base64

/-- The value of a letter. -/
def digit? (c : Char) : Option Nat :=
  if 'A' ≤ c ∧ c ≤ 'Z' then some (c.toNat - 65)
  else if 'a' ≤ c ∧ c ≤ 'z' then some (c.toNat - 71)
  else if '0' ≤ c ∧ c ≤ '9' then some (c.toNat + 4)
  else if c = '+' then some 62
  else if c = '/' then some 63
  else none

/-- Where the reading of a group stands : how many letters it has, the bits that no byte has yet, and how many
equals signs could end it. -/
structure Group where
  letters : Nat := 0
  bits : Nat := 0
  signs : Nat := 0

/-- A group with one letter more, and the byte that this completes. -/
def Group.push (g : Group) (d : Nat) : Option Nat × Group :=
  match g.letters with
  | 0 => (none, { letters := 1, bits := d })
  | 1 => (some (4 * g.bits + d / 16), { letters := 2, bits := d % 16 })
  | 2 => (some (16 * g.bits + d / 4), { letters := 3, bits := d % 4 })
  | _ => (some (64 * g.bits + d), {})

/-- The bytes of letters behind those of a group. The last group has to be full. -/
def decodeFrom? (g : Group) : List Char → Option (List UInt8)
  | [] => if g.letters = 0 then some [] else none
  | c :: cs =>
    if c = '=' then
      if g.letters < 2 then decodeFrom? g cs
      else if g.letters + g.signs < 3 then decodeFrom? { g with signs := g.signs + 1 } cs
      else some []
    else
      match digit? c with
      | none => decodeFrom? g cs
      | some d =>
        let (byte, g) := g.push d
        (decodeFrom? g cs).map ((byte.map UInt8.ofNat).toList ++ ·)

/-- The bytes of a text. Only characters of ASCII may stand in it. -/
def decode? (s : String) : Option (List UInt8) :=
  if s.toList.all (·.toNat < 128) then decodeFrom? {} s.toList else none

end Base64

end Chip8.Text
