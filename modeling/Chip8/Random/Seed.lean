import Chip8.Random.Sha512
import Chip8.Text.Utf8
import Chip8.Value

/-!
# Seeds of any kind

A generator can be seeded by any number or text. An integer is its own seed, a fraction is one modulo a prime
(`Seed.ofFraction`), and a text is read as a number, with its digest behind it. Nothing is no seed that
could be told : it stands for zero.
-/

namespace Chip8.Seed

/-- The prime `2 ^ 61 - 1`, modulo which equal numbers of all kinds have equal seeds. -/
def prime : Nat := 1 <<< 61 - 1

/-- The seed of the magnitude of a finite fraction. A power of two turns the 61 bits round. -/
def ofMagnitude (mantissa : Nat) (exponent : Int) : Nat :=
  mantissa * 1 <<< (exponent % 61).toNat % prime

/-- A seed with a sign. The seed −1 is not given out. -/
def withSign (negative : Bool) (n : Nat) : Int :=
  let i : Int := if negative then -n else n
  if i = -1 then -2 else i

/-- The seed of a fraction, which is not negative in the end. -/
def ofFraction (x : Binary64) : Int :=
  let i := match x with
    | .nan => 0
    | .infinity negative => withSign negative 314159
    | .finite negative mantissa exponent => withSign negative (ofMagnitude mantissa exponent)
  i % (1 <<< 64 : Nat)

/-- The seed of a text of bytes. -/
def ofBytes (bytes : List UInt8) : Int := Sha512.ofBigEndian (bytes ++ Sha512.digest bytes)

/-- What is said of a value that is no seed. -/
def refusal : String :=
  "The only supported seed types are: None,\nint, float, str, bytes, and bytearray."

/-- The seed that a value stands for. -/
def ofValue? : Value → Option Int
  | .null => some 0
  | .bool b => some (if b then 1 else 0)
  | .int i => some i
  | .real x => some (ofFraction x)
  | .text s => some (ofBytes (Text.Utf8.encode s))
  | .bytes bs => some (ofBytes bs)
  | _ => none

end Chip8.Seed
