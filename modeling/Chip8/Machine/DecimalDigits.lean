/-!
# Decimal digits by shifting and correcting

A byte is moved bit by bit into three four-bit slots that hold its hundreds, tens and ones. Before
each shift a slot of five or more gets three added, so that doubling it carries into the next slot.
The accumulator holds the value in its bits 0 to 7 and the slots from bit 8 upwards.
-/

namespace Chip8

namespace DecimalDigits

/-- Add three to the slot at bit `shift` if it holds five or more. -/
def correct (acc shift : Nat) : Nat :=
  if acc >>> shift % 16 ≥ 5 then acc + 3 <<< shift else acc

/-- Correct the three slots, then shift. -/
def double (acc : Nat) : Nat := 2 * [8, 12, 16].foldl correct acc

/-- The accumulator after eight shifts. -/
def accumulate (value : Nat) : Nat := (List.range 8).foldl (fun acc _ => double acc) value

end DecimalDigits

/-- The hundreds, tens and ones of the low byte of a value. -/
def decimalDigits (value : Int) : Nat × Nat × Nat :=
  let acc := DecimalDigits.accumulate (value % 256).toNat
  (acc >>> 16 % 16, acc >>> 12 % 16, acc >>> 8 % 16)

end Chip8
