/-!
# Bits of integers

The bits of an integer in two's complement, taken together one by one. Of two natural numbers they are the
bits of the numbers, and the bits of a negative number `-(n + 1)` are those of `n` turned over.
-/

namespace Chip8.Bits

/-- The bits of a number that another one has not. -/
def without (m n : Nat) : Nat := m ^^^ (m &&& n)

/-- The bits that both of two integers have. -/
def and : Int → Int → Int
  | .ofNat m, .ofNat n => (m &&& n : Nat)
  | .ofNat m, .negSucc n => without m n
  | .negSucc m, .ofNat n => without n m
  | .negSucc m, .negSucc n => .negSucc (m ||| n)

/-- The bits that one of two integers has. -/
def or : Int → Int → Int
  | .ofNat m, .ofNat n => (m ||| n : Nat)
  | .ofNat m, .negSucc n => .negSucc (without n m)
  | .negSucc m, .ofNat n => .negSucc (without m n)
  | .negSucc m, .negSucc n => .negSucc (m &&& n)

/-- The bits that just one of two integers has. -/
def xor : Int → Int → Int
  | .ofNat m, .ofNat n | .negSucc m, .negSucc n => (m ^^^ n : Nat)
  | .ofNat m, .negSucc n | .negSucc m, .ofNat n => .negSucc (m ^^^ n)

theorem and_natCast (m n : Nat) : and m n = (m &&& n : Nat) := rfl

theorem or_natCast (m n : Nat) : or m n = (m ||| n : Nat) := rfl

theorem xor_natCast (m n : Nat) : xor m n = (m ^^^ n : Nat) := rfl

end Chip8.Bits
