import Mathlib.Data.String.Defs
import Mathlib.Logic.Function.Basic
import Chip8.Proofs.Text.Literal

/-!
# Numbers told by their texts

A number that is filled up with zeros is read as the number, since zeros in front of digits do not
count (`Text.Literal.Legible.padded`). A minus sign is no digit. So two integers of one text are one
integer, whatever the width that it is filled up to (`Text.zeroPadded_injective`).
-/

namespace Chip8.Text

namespace Literal

variable {base : Nat}

theorem digitValue?_minus : digitValue? base '-' = none := by
  have hdecimal : decimalValue? '-' = none := by decide
  simp [digitValue?, hdecimal]

namespace Legible

variable (h : Legible base)

include h

/-- Zeros in front of digits do not change the number. -/
theorem zeros {cs : List Char} {ds : List Nat} (hdigits : Digits base cs ds) (k : Nat) :
    ∃ ds', Digits base (List.replicate k '0' ++ cs) ds' ∧ value base ds' = value base ds := by
  have hzero : digitValue? base '0' = some 0 := h.digit 0 (Nat.lt_of_lt_of_le Nat.two_pos h.two_le)
  induction k with
  | zero => exact ⟨ds, hdigits, rfl⟩
  | succ k ih =>
    obtain ⟨ds', hdigits', hvalue⟩ := ih
    exact ⟨0 :: ds', .next hzero hdigits', by rw [← hvalue]; simp [value]⟩

/-- A number filled up with zeros is read as the number. -/
theorem padded (width n : Nat) :
    ∃ ds, Digits base ((numeral base n).leftpad width '0') ds ∧ value base ds = n := by
  obtain ⟨ds, hdigits, hvalue, -⟩ := h.digits_numeral n
  obtain ⟨ds', hdigits', hvalue'⟩ := h.zeros hdigits (width - (numeral base n).length)
  exact ⟨ds', hdigits', hvalue'.trans hvalue⟩

theorem eq_of_padded {width m n : Nat}
    (heq : (numeral base m).leftpad width '0' = (numeral base n).leftpad width '0') : m = n := by
  obtain ⟨ds, hdigits, rfl⟩ := h.padded width m
  obtain ⟨ds', hdigits', rfl⟩ := h.padded width n
  have hread := hdigits.read
  rw [heq, hdigits'.read] at hread
  rw [(Prod.mk.inj (Option.some.inj hread)).1]

theorem not_blank_of_padded {width n : Nat} {c : Char}
    (hc : c ∈ (numeral base n).leftpad width '0') : isBlank c = false := by
  rw [List.leftpad, List.mem_append, List.mem_replicate] at hc
  rcases hc with ⟨-, rfl⟩ | hc
  · decide
  · exact h.forall_mem_numeral (p := (isBlank · = false)) (fun _ hd => h.not_blank hd) n c hc

/-- An integer filled up with zeros has no blank in it. -/
theorem not_blank_of_zeroPadded {width : Nat} {i : Int} :
    ∀ c ∈ zeroPadded base width i, isBlank c = false := by
  intro c hc
  cases i with
  | ofNat n => exact h.not_blank_of_padded hc
  | negSucc n =>
    rcases List.mem_cons.mp hc with rfl | hc
    · decide
    · exact h.not_blank_of_padded hc

theorem padded_ne_minus (width n : Nat) (cs : List Char) :
    (numeral base n).leftpad width '0' ≠ '-' :: cs := by
  intro heq
  obtain ⟨ds, hdigits, -⟩ := h.padded width n
  rw [heq] at hdigits
  cases hdigits with
  | one hc | next hc | underscore hc =>
    rw [digitValue?_minus] at hc
    contradiction

end Legible

end Literal

/-- An integer filled up with zeros is told by its text. -/
theorem zeroPadded_injective {base : Nat} (h : Literal.Legible base) (width : Nat) :
    Function.Injective (zeroPadded base width) := by
  intro i j heq
  cases i with
  | ofNat m =>
    cases j with
    | ofNat n => exact congrArg Int.ofNat (h.eq_of_padded heq)
    | negSucc n => exact absurd heq (h.padded_ne_minus _ _ _)
  | negSucc m =>
    cases j with
    | ofNat n => exact absurd heq.symm (h.padded_ne_minus _ _ _)
    | negSucc n =>
      have hsucc : m + 1 = n + 1 := h.eq_of_padded (List.cons.inj heq).2
      exact congrArg Int.negSucc (Nat.succ.inj hsucc)

/-- An integer is told by its text as it is, filled up to no width. -/
theorem signed_injective {base : Nat} (h : Literal.Legible base) :
    Function.Injective (signed base) := by
  have hsigned : signed base = zeroPadded base 0 := by
    ext1 i
    cases i <;> simp [signed, zeroPadded, List.leftpad]
  rw [hsigned]
  exact zeroPadded_injective h 0

theorem hexPadded_injective (width : Nat) : Function.Injective (hexPadded width) := by
  intro i j heq
  have hlist := congrArg String.toList heq
  rw [hexPadded, hexPadded, String.toList_ofList, String.toList_ofList] at hlist
  exact zeroPadded_injective Literal.legible_sixteen width hlist

end Chip8.Text
