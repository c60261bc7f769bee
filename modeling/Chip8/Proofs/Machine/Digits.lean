import Mathlib.Algebra.Group.Nat.Defs
import Chip8.Machine.DecimalDigits

/-!
# The digits that shifting leaves

The accumulator holds a number below a thousand, one decimal digit in each slot, over a byte of what
is still to be moved in (`DecimalDigits.packed`). To correct a slot touches no other
(`DecimalDigits.correct_slot`), and a digit that is corrected and doubled is the next digit with its
carry (`DecimalDigits.double_corrected`). So one round doubles the number and moves one bit of the
byte into it (`DecimalDigits.double_packed`).

After `k` rounds the number is what the byte has above its lowest `8 - k` bits
(`DecimalDigits.foldl_double`), and after eight it is the byte. So the slots hold the digits that
spell the byte (`decimalDigits_eq`, `spell_decimalDigits`).
-/

namespace Chip8

namespace DecimalDigits

/-- A number below a thousand, digit by digit in the slots, over a byte. -/
def packed (n low : Nat) : Nat := 65536 * (n / 100) + 4096 * (n / 10 % 10) + 256 * (n % 10) + low

theorem packed_digits {h t o : Nat} (ht : t < 10) (ho : o < 10) (low : Nat) :
    packed (100 * h + 10 * t + o) low = 65536 * h + 4096 * t + 256 * o + low := by
  have hhundreds : (100 * h + 10 * t + o) / 100 = h := by omega
  have htens : (100 * h + 10 * t + o) / 10 % 10 = t := by omega
  have hones : (100 * h + 10 * t + o) % 10 = o := by omega
  rw [packed, hhundreds, htens, hones]

/-- A digit as it is corrected. -/
def corrected (d : Nat) : Nat := if 5 ≤ d then d + 3 else d

theorem corrected_lt {d : Nat} (h : d < 10) : corrected d < 16 := by
  unfold corrected
  split <;> omega

/-- The slot at a place is corrected, and what is above and below it stays. -/
theorem correct_slot {acc shift d : Nat} (high low : Nat) (hd : d < 16) (hlow : low < 2 ^ shift)
    (hacc : acc = (16 * high + d) * 2 ^ shift + low) :
    correct acc shift = (16 * high + corrected d) * 2 ^ shift + low := by
  have hslot : acc >>> shift % 16 = d := by
    rw [hacc, Nat.shiftRight_eq_div_pow, Nat.add_comm,
      Nat.add_mul_div_right _ _ (Nat.two_pow_pos shift), Nat.div_eq_of_lt hlow]
    omega
  rw [correct, corrected, hslot, hacc]
  by_cases h : 5 ≤ d
  · rw [if_pos h, if_pos h, Nat.shiftLeft_eq, Nat.add_right_comm, ← Nat.add_mul, Nat.add_assoc]
  · rw [if_neg h, if_neg h]

/-- A corrected digit carries when it is doubled : ten of it are sixteen of its slot. -/
theorem double_corrected {d : Nat} (hd : d < 10) {b : Nat} (hb : b < 2) :
    2 * corrected d + b = 16 * ((2 * d + b) / 10) + (2 * d + b) % 10 := by
  unfold corrected
  split <;> omega

/-- The three slots are corrected one after another, the lowest first. -/
theorem foldl_correct {h t o low : Nat} (hh : h < 10) (ht : t < 10) (ho : o < 10)
    (hlow : low < 256) :
    [8, 12, 16].foldl correct (65536 * h + 4096 * t + 256 * o + low) =
      65536 * corrected h + 4096 * corrected t + 256 * corrected o + low := by
  have hone := corrected_lt ho
  have hten := corrected_lt ht
  have hones : correct (65536 * h + 4096 * t + 256 * o + low) 8 =
      65536 * h + 4096 * t + 256 * corrected o + low :=
    (correct_slot (16 * h + t) low (d := o) (by omega) hlow (by omega)).trans (by omega)
  have htens : correct (65536 * h + 4096 * t + 256 * corrected o + low) 12 =
      65536 * h + 4096 * corrected t + 256 * corrected o + low :=
    (correct_slot h (256 * corrected o + low) (d := t) (by omega) (by omega) (by omega)).trans
      (by omega)
  have hhundreds : correct (65536 * h + 4096 * corrected t + 256 * corrected o + low) 16 =
      65536 * corrected h + 4096 * corrected t + 256 * corrected o + low :=
    (correct_slot 0 (4096 * corrected t + 256 * corrected o + low) (d := h) (by omega) (by omega)
      (by omega)).trans (by omega)
  rw [List.foldl_cons, List.foldl_cons, List.foldl_cons, List.foldl_nil, hones, htens, hhundreds]

/-- One round doubles the number and moves the highest bit of the byte into it. -/
theorem double_packed {n low : Nat} (hn : n < 500) (hlow : low < 256) :
    double (packed n low) = packed (2 * n + 2 * low / 256) (2 * low % 256) := by
  obtain ⟨h, t, o, hh, ht, ho, rfl⟩ : ∃ h t o, h < 5 ∧ t < 10 ∧ o < 10 ∧ n = 100 * h + 10 * t + o :=
    ⟨n / 100, n / 10 % 10, n % 10, by omega, by omega, by omega, by omega⟩
  obtain ⟨bit, rest, hbit, hrest, hdouble⟩ : ∃ bit rest, bit < 2 ∧ rest < 256 ∧
      2 * low = 256 * bit + rest := ⟨2 * low / 256, 2 * low % 256, by omega, by omega, by omega⟩
  -- the carries out of the ones and out of the tens
  obtain ⟨c, hc⟩ : ∃ c, c = (2 * o + bit) / 10 := ⟨_, rfl⟩
  obtain ⟨c', hc'⟩ : ∃ c', c' = (2 * t + c) / 10 := ⟨_, rfl⟩
  have hones := double_corrected ho hbit
  have htens := double_corrected ht (b := c) (by omega)
  have hhundreds := double_corrected (Nat.lt_trans hh (by decide)) (b := c') (by omega)
  rw [packed_digits ht ho, double, foldl_correct (Nat.lt_trans hh (by decide)) ht ho hlow]
  have hnext : 2 * (100 * h + 10 * t + o) + 2 * low / 256 =
      100 * (2 * h + c') + 10 * ((2 * t + c) % 10) + (2 * o + bit) % 10 := by omega
  rw [hnext, packed_digits (Nat.mod_lt _ (by decide)) (Nat.mod_lt _ (by decide))]
  omega

/-- What is in the accumulator after some rounds : the byte's bits that have been moved in, and the
others at the top of the low byte. -/
theorem foldl_double {v : Nat} (hv : v < 256) {k : Nat} (hk : k ≤ 8) :
    (List.range k).foldl (fun acc _ => double acc) v =
      packed (v * 2 ^ k / 256) (v * 2 ^ k % 256) := by
  induction k with
  | zero =>
    rw [packed]
    simp only [List.range_zero, List.foldl_nil]
    omega
  | succ k ih =>
    have hpow : 2 ^ k ≤ 2 ^ 7 := Nat.pow_le_pow_right (by decide) (by omega)
    have hmoved : v * 2 ^ k ≤ 255 * 2 ^ 7 := Nat.mul_le_mul (by omega) hpow
    rw [List.range_succ, List.foldl_append, ih (by omega), List.foldl_cons, List.foldl_nil,
      double_packed (by omega) (by omega), Nat.pow_succ, ← Nat.mul_assoc]
    congr 1 <;> omega

/-- Three decimal digits spell a number. -/
structure Spell (h t o number : Int) : Prop where
  hundreds : 0 ≤ h ∧ h ≤ 9
  tens : 0 ≤ t ∧ t ≤ 9
  ones : 0 ≤ o ∧ o ≤ 9
  number : 100 * h + 10 * t + o = number

end DecimalDigits

open DecimalDigits

/-- The digits are those of the low byte of the value. -/
theorem decimalDigits_eq {v : Int} {n : Nat} (h : v % 256 = n) :
    decimalDigits v = (n / 100, n / 10 % 10, n % 10) := by
  have hn : n < 256 := by omega
  have hacc : accumulate (v % 256).toNat = packed n 0 := by
    rw [h, Int.toNat_natCast, accumulate, foldl_double hn (Nat.le_refl 8)]
    congr 1 <;> omega
  have htens : n / 10 % 10 < 10 := Nat.mod_lt _ (by decide)
  have hones : n % 10 < 10 := Nat.mod_lt _ (by decide)
  have hhundreds : n / 100 < 10 := by omega
  simp only [decimalDigits, hacc, packed, Nat.shiftRight_eq_div_pow, Prod.mk.injEq]
  generalize n / 100 = h, n / 10 % 10 = t, n % 10 = o at *
  omega

theorem spell_decimalDigits (v : Int) :
    Spell (decimalDigits v).1 (decimalDigits v).2.1 (decimalDigits v).2.2 (v % 256) := by
  obtain ⟨n, hn⟩ := Int.eq_ofNat_of_zero_le (Int.emod_nonneg v (by decide : (256 : Int) ≠ 0))
  have hlt : n < 256 := by omega
  rw [decimalDigits_eq hn, hn]
  exact {
    hundreds := by dsimp only; omega
    tens := by dsimp only; omega
    ones := by dsimp only; omega
    number := by dsimp only; omega }

end Chip8
