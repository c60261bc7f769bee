import Mathlib
import Chip8.Text.Blank
import Chip8.Text.Lower

/-!
# Words in any case

The words of a text format are plain letters, and they are accepted in any case : lower or upper
case, letter by letter (`Text.AnyCase`). A text has such a word for its lower-case form if it is the
word in some case (`Text.lowerFrom_eq_iff`), since no letter of another script has a plain letter for
its lower-case form. The one that has, a sign for a unit, has the letter `k`, which is left out
(`Text.IsPlain`).
-/

namespace Chip8.Text

/-- A lower-case letter that is the lower-case form of no letter but its own upper-case form. -/
def IsPlain (l : Char) : Prop := 'a' ≤ l ∧ l ≤ 'z' ∧ l ≠ 'k'

instance (l : Char) : Decidable (IsPlain l) :=
  inferInstanceAs (Decidable ('a' ≤ l ∧ l ≤ 'z' ∧ l ≠ 'k'))

/-- A text is a word of lower-case letters, each of them in lower or upper case. -/
def AnyCase (cs word : List Char) : Prop := List.Forall₂ (fun c l => c = l ∨ c = l.toUpper) cs word

/-- The runs of letters with a lower-case form : those of ASCII, those whose lower-case forms are not
of ASCII, and the sign that becomes a `k`. -/
theorem runs_cases : ∀ run ∈ lowerRuns.toList, run.2.1 < 128 ∨ 128 ≤ (run.1 : Int) + run.2.2.2 ∨
    (run.1 = run.2.1 ∧ (run.1 : Int) + run.2.2.2 = 'k'.toNat) := by
  decide +kernel

namespace IsPlain

variable {c l : Char}

theorem toNat (h : IsPlain l) : 97 ≤ l.toNat ∧ l.toNat ≤ 122 ∧ l.toNat ≠ 107 :=
  ⟨UInt32.le_iff_toNat_le.mp h.1, UInt32.le_iff_toNat_le.mp h.2.1,
    fun hk => h.2.2 (Char.toNat_inj.mp hk)⟩

theorem isLower (h : IsPlain l) : l.isLower = true := by
  simpa [Char.isLower] using ⟨h.1, h.2.1⟩

theorem toNat_toUpper (h : IsPlain l) : l.toUpper.toNat = l.toNat - 32 := by
  have hletter := h.toNat
  rw [Char.toUpper_eq_of_isLower h.isLower, Char.toNat_ofNat, if_pos (Or.inl (by omega))]

/-- Plain letters are letters of ASCII, in both cases. -/
theorem toNat_le (h : IsPlain l) (hc : c = l ∨ c = l.toUpper) : 65 ≤ c.toNat ∧ c.toNat ≤ 122 := by
  have hletter := h.toNat
  have hupper := h.toNat_toUpper
  rcases hc with rfl | rfl <;> omega

theorem toLower_eq_iff (h : IsPlain l) : c.toLower = l ↔ c = l ∨ c = l.toUpper := by
  have hlow : l.toLower = l := Char.toLower_eq_of_not_isUpper (Char.not_isUpper_of_isLower h.isLower)
  constructor
  · rintro rfl
    by_cases hc : c.isUpper = true
    · rw [Char.toUpper_toLower_eq_toUpper,
        Char.toUpper_eq_of_not_isLower (Char.not_isLower_of_isUpper hc)]
      exact Or.inr rfl
    · exact Or.inl (Char.toLower_eq_of_not_isUpper hc).symm
  · rintro (rfl | rfl)
    · exact hlow
    · rw [Char.toLower_toUpper_eq_toLower, hlow]

end IsPlain

/-- A character is one of the letters of a run. -/
def InRun (run : Nat × Nat × Nat × Int) (c : Char) : Prop :=
  run.1 ≤ c.toNat ∧ c.toNat ≤ run.2.1 ∧ (c.toNat - run.1) % run.2.2.1 = 0

/-- A letter of ASCII has the lower-case form that it has there. Another one is in a run that moves
it, or in none. -/
theorem lowerChar_cases (c : Char) :
    (c.toNat < 128 ∧ lowerChar c = c.toLower) ∨
      (128 ≤ c.toNat ∧ lowerChar c = c) ∨
      (128 ≤ c.toNat ∧ ∃ run ∈ lowerRuns.toList, InRun run c ∧
        lowerChar c = Char.ofNat (c.toNat + run.2.2.2).toNat) := by
  unfold lowerChar
  by_cases hc : c.toNat < 128
  · exact Or.inl ⟨hc, if_pos hc⟩
  · rw [if_neg hc]
    refine Or.inr ?_
    split
    · next first last step offset hfind =>
      have hmem := Array.mem_toList_iff.mpr (Array.mem_of_find?_eq_some hfind)
      have hrun := Array.find?_some hfind
      simp only [Bool.and_eq_true, decide_eq_true_eq] at hrun
      exact Or.inr ⟨Nat.not_lt.mp hc, _, hmem, ⟨hrun.1.1, hrun.1.2, hrun.2⟩, rfl⟩
    · exact Or.inl ⟨Nat.not_lt.mp hc, rfl⟩

theorem toNat_ofNat_cases (n : Nat) : (Char.ofNat n).toNat = n ∨ (Char.ofNat n).toNat = 0 := by
  rw [Char.toNat_ofNat]
  split
  · exact Or.inl rfl
  · exact Or.inr rfl

theorem lowerChar_eq_iff {c l : Char} (hl : IsPlain l) :
    lowerChar c = l ↔ c = l ∨ c = l.toUpper := by
  have hletter := hl.toNat
  have hother (hc : 128 ≤ c.toNat) : ¬ (c = l ∨ c = l.toUpper) := fun h => by
    have hascii := hl.toNat_le h
    omega
  rcases lowerChar_cases c with ⟨-, hlow⟩ | ⟨hc, hlow⟩ | ⟨hc, run, hmem, hin, hlow⟩ <;> rw [hlow]
  · exact hl.toLower_eq_iff
  · exact iff_of_false (fun h => hother hc (Or.inl h)) (hother hc)
  · refine iff_of_false ?_ (hother hc)
    rintro rfl
    have hrun := runs_cases run hmem
    have hk : 'k'.toNat = 107 := rfl
    simp only [InRun] at hin
    rcases toNat_ofNat_cases (c.toNat + run.2.2.2).toNat with hnumber | hnumber <;> omega

/-- The lower-case form of a letter that is treated by itself is not plain. -/
theorem lowerFrom_special {c : Char} (hc : c = 'Σ' ∨ c = 'İ') (inWord : Bool) (cs : List Char) :
    ∃ l ∈ lowerFrom inWord (c :: cs), ¬ IsPlain l := by
  rcases hc with rfl | rfl
  · simp only [lowerFrom, List.mem_append]
    split
    · exact ⟨'ς', by simp, by decide⟩
    · exact ⟨'σ', Or.inl (by decide +kernel), by decide⟩
  · exact ⟨'\u0307', by simp [lowerFrom], by decide⟩

/-- A text has a word of plain letters for its lower-case form if it is the word in some case. -/
theorem lowerFrom_eq_iff {word : List Char} (hword : ∀ l ∈ word, IsPlain l) {cs : List Char}
    (inWord : Bool) : lowerFrom inWord cs = word ↔ AnyCase cs word := by
  induction cs generalizing word inWord with
  | nil => exact eq_comm.trans List.forall₂_nil_left_iff.symm
  | cons c cs ih =>
    by_cases hc : c = 'Σ' ∨ c = 'İ'
    · refine iff_of_false (fun h => ?_) (fun h => ?_)
      · obtain ⟨l, hmem, hl⟩ := lowerFrom_special hc inWord cs
        exact hl (hword l (h ▸ hmem))
      · cases h with
        | cons hletter _ =>
          have hascii := (hword _ List.mem_cons_self).toNat_le hletter
          rcases hc with rfl | rfl <;> exact absurd hascii (by decide)
    · have hlow : lowerFrom inWord (c :: cs) =
          lowerChar c :: lowerFrom (if isCaseIgnorable c then inWord else isCased c) cs := by
        obtain ⟨hsigma, hdot⟩ := not_or.mp hc
        simp [lowerFrom, hsigma, hdot]
      rw [hlow]
      cases word with
      | nil => exact iff_of_false (by simp) (fun h => by cases h)
      | cons l word =>
        obtain ⟨hl, hrest⟩ := List.forall_mem_cons.mp hword
        rw [List.cons.injEq, lowerChar_eq_iff hl, ih hrest, AnyCase, AnyCase, List.forall₂_cons]

theorem not_blank_of_letter {c : Char} (h : 65 ≤ c.toNat ∧ c.toNat ≤ 122) : isBlank c = false := by
  simp only [isBlank, Bool.or_eq_false_iff, Bool.and_eq_false_iff, decide_eq_false_iff_not]
  omega

/-- A word of plain letters has no blank, in any case. -/
theorem AnyCase.letters {cs word : List Char} (h : AnyCase cs word)
    (hword : ∀ l ∈ word, IsPlain l) : ∀ c ∈ cs, isBlank c = false := by
  induction h with
  | nil => simp
  | cons hletter _ ih =>
    obtain ⟨hl, hrest⟩ := List.forall_mem_cons.mp hword
    exact List.forall_mem_cons.mpr ⟨not_blank_of_letter (hl.toNat_le hletter), ih hrest⟩

end Chip8.Text
