import Chip8.Proofs.Text.Lower
import Chip8.Proofs.Text.Words

/-!
# Lower case and blanks

A letter is in lower case if it is its own lower-case form, and the lower-case form of every letter
is (`Text.isLow_lowerChar`). No blank has another lower-case form than itself or is one
(`Text.lowerChar_eq_iff_of_unmoved`), and no blank is a letter that a word could go on from. So a text
has one lower-case form, with the blanks around it or without them (`Text.strip_lowerFrom`), and its
lower-case form has no other (`Text.lowerFrom_lowerFrom`).

The facts about letters are read off the table of lower-case forms, run by run.
-/

namespace Chip8.Text

/-! ## The table -/

/-- The number of the first lower-case form of a run. -/
def lowFirst (run : Nat × Nat × Nat × Int) : Nat := (run.1 + run.2.2.2).toNat

/-- The number of the last lower-case form of a run. -/
def lowLast (run : Nat × Nat × Nat × Int) : Nat := (run.2.1 + run.2.2.2).toNat

/-- The lower-case forms of a run lie outside of every run, or they lie between the letters of one
that leaves out every other. -/
theorem lows_apart {run other : Nat × Nat × Nat × Int} (hrun : run ∈ lowerRuns.toList)
    (hother : other ∈ lowerRuns.toList) :
    lowLast run < other.1 ∨ other.2.1 < lowFirst run ∨
      ((run.2.2.1 = 2 ∨ run.1 = run.2.1) ∧ other.2.2.1 = 2) ∧ (lowFirst run - other.1) % 2 = 1 := by
  have htable : lowerRuns.toList.all (fun run => lowerRuns.toList.all fun other =>
      (lowLast run).blt other.1 || other.2.1.blt (lowFirst run) ||
        ((run.2.2.1.beq 2 || run.1.beq run.2.1) && other.2.2.1.beq 2) &&
          ((lowFirst run - other.1) % 2).beq 1) = true := by
    decide +kernel
  have hpair := List.all_eq_true.mp (List.all_eq_true.mp htable run hrun) other hother
  simpa [or_assoc] using hpair

/-- Characters that are no letter's lower-case form but their own, and have no other. -/
def unmoved : List Char := ['İ', 'ς', '\u0307'] ++ blanks

theorem unmoved_apart {b : Char} (hb : b ∈ unmoved) {run : Nat × Nat × Nat × Int}
    (hrun : run ∈ lowerRuns.toList) :
    (b.toNat < run.1 ∨ run.2.1 < b.toNat) ∧ (lowLast run < b.toNat ∨ b.toNat < lowFirst run) := by
  have htable : lowerRuns.toList.all (fun run => unmoved.all fun b =>
      (b.toNat.blt run.1 || run.2.1.blt b.toNat) &&
        ((lowLast run).blt b.toNat || b.toNat.blt (lowFirst run))) = true := by
    decide +kernel
  have hpair := List.all_eq_true.mp (List.all_eq_true.mp htable run hrun) b hb
  simpa using hpair

theorem not_cased_of_blank {c : Char} (hc : isBlank c = true) : isCased c = false := by
  have htable : blanks.all (fun c =>
      !casedEdges.toList.foldl (fun odd edge => if edge ≤ c.toNat then !odd else odd) false) =
        true := by
    decide +kernel
  have hnot := List.all_eq_true.mp htable c (mem_blanks_iff.mpr hc)
  rw [isCased, inRuns, ← Array.foldl_toList]
  simpa using hnot

/-! ## Letters -/

/-- A character is its own lower-case form. -/
structure IsLow (c : Char) : Prop where
  ne_dot : c ≠ 'İ'
  lowerChar : lowerChar c = c

theorem lowerChar_sigma : lowerChar 'Σ' = 'σ' := by decide +kernel

theorem IsLow.ne_sigma {c : Char} (h : IsLow c) : c ≠ 'Σ' := by
  rintro rfl
  exact absurd (lowerChar_sigma.symm.trans h.lowerChar) (by decide)

theorem isUpper_iff {c : Char} : c.isUpper = true ↔ 65 ≤ c.toNat ∧ c.toNat ≤ 90 := by
  simp [Char.isUpper, UInt32.le_iff_toNat_le, ← Char.toNat_val]

theorem lowerChar_eq_iff_of_unmoved {b c : Char} (hb : b ∈ unmoved) : lowerChar c = b ↔ c = b := by
  have htable : unmoved.all (fun b => !b.isAlpha && (0).blt b.toNat) = true := by decide +kernel
  obtain ⟨halpha, hpos⟩ : b.isAlpha = false ∧ 0 < b.toNat := by
    simpa using List.all_eq_true.mp htable b hb
  rcases lowerChar_cases c with ⟨-, hlow⟩ | ⟨-, hlow⟩ | ⟨-, run, hrun, hin, hlow⟩ <;> rw [hlow]
  · by_cases hc : c.isAlpha = true
    · refine iff_of_false ?_ ?_
      · rintro rfl
        have hletter := Char.isLower_toLower_eq_isAlpha (c := c)
        simp_all [Char.isAlpha]
      · rintro rfl
        simp_all
    · have hupper : ¬ c.isUpper = true := fun h => hc (by simp [Char.isAlpha, h])
      rw [Char.toLower_eq_of_not_isUpper hupper]
  · have hapart := unmoved_apart hb hrun
    simp only [InRun, lowFirst, lowLast] at hin hapart
    refine iff_of_false ?_ ?_
    · rintro rfl
      rcases toNat_ofNat_cases (c.toNat + run.2.2.2).toNat with h | h <;> omega
    · rintro rfl
      omega

theorem isBlank_lowerChar (c : Char) : isBlank (lowerChar c) = isBlank c := by
  have hblank {b : Char} (hb : isBlank b = true) : lowerChar c = b ↔ c = b :=
    lowerChar_eq_iff_of_unmoved (List.mem_append_right _ (mem_blanks_iff.mpr hb))
  refine Bool.eq_iff_iff.mpr ⟨fun h => ?_, fun h => ?_⟩
  · rwa [← (hblank h).mp rfl] at h
  · rwa [(hblank h).mpr rfl]

theorem isLow_of_unmoved {c : Char} (hc : c ∈ unmoved) (hdot : c ≠ 'İ') : IsLow c :=
  ⟨hdot, (lowerChar_eq_iff_of_unmoved hc).mpr rfl⟩

theorem isLow_of_blank {c : Char} (hc : isBlank c = true) : IsLow c :=
  isLow_of_unmoved (List.mem_append_right _ (mem_blanks_iff.mpr hc))
    (by rintro rfl; exact absurd hc (by decide))

/-- The lower-case form of a letter is in lower case. -/
theorem isLow_lowerChar {c : Char} (hdot : c ≠ 'İ') : IsLow (lowerChar c) := by
  refine ⟨fun h => hdot ((lowerChar_eq_iff_of_unmoved (by decide)).mp h), ?_⟩
  rcases lowerChar_cases c with ⟨hc, hlow⟩ | ⟨hc, hlow⟩ | ⟨-, run, hrun, hin, hlow⟩
  · have hascii : c.toLower.toNat < 128 := by
      by_cases hupper : c.isUpper = true
      · have hletter := isUpper_iff.mp hupper
        rw [Char.toLower_eq_of_isUpper hupper]
        rcases toNat_ofNat_cases (c.toNat + 32) with h | h <;> omega
      · rwa [Char.toLower_eq_of_not_isUpper hupper]
    rw [hlow, lowerChar, if_pos hascii, Char.toLower_toLower_eq_toLower]
  · rw [hlow, hlow]
  · rw [hlow]
    have hnumber := toNat_ofNat_cases (c.toNat + run.2.2.2).toNat
    rcases lowerChar_cases (Char.ofNat (c.toNat + run.2.2.2).toNat) with
      ⟨hl, hagain⟩ | ⟨-, hagain⟩ | ⟨hl, other, hother, hin', -⟩
    · have hletters : (0x41, 0x5A, 1, 32) ∈ lowerRuns.toList := by decide +kernel
      have hapart := lows_apart hrun hletters
      simp only [InRun, lowFirst, lowLast] at hin hapart
      rw [hagain, Char.toLower_eq_of_not_isUpper]
      rw [isUpper_iff]
      omega
    · exact hagain
    · have hapart := lows_apart hrun hother
      simp only [InRun, lowFirst, lowLast] at hin hin' hapart
      exfalso
      rcases hapart with h | h | ⟨⟨hstep | hone, hother⟩, hodd⟩
      · omega
      · omega
      · rw [hstep] at hin
        rw [hother] at hin'
        omega
      · rw [hother] at hin'
        omega

/-! ## Texts -/

/-- A character is lowered to characters in lower case, which are blanks if it is one. -/
theorem lowerFrom_cons (inWord : Bool) (c : Char) (cs : List Char) :
    ∃ low inWord', low ≠ [] ∧ (∀ l ∈ low, IsLow l ∧ isBlank l = isBlank c) ∧
      lowerFrom inWord (c :: cs) = low ++ lowerFrom inWord' cs := by
  have hmark {l : Char} (hl : l ∈ ['ς', '\u0307']) : IsLow l :=
    isLow_of_unmoved (List.mem_append_left _ (List.mem_cons_of_mem _ hl)) (by rintro rfl; simp at hl)
  rw [lowerFrom]
  refine ⟨_, _, ?_, ?_, rfl⟩
  · split_ifs <;> simp
  · split_ifs with hsigma hdot
    · simp only [Bool.and_eq_true, decide_eq_true_eq] at hsigma
      obtain rfl := hsigma.1.1
      exact List.forall_mem_singleton.mpr ⟨hmark (by simp), by decide⟩
    · subst hdot
      have hi : IsLow 'i' := ⟨by decide, by decide +kernel⟩
      simp only [List.forall_mem_cons, List.not_mem_nil, false_implies, implies_true, and_true]
      exact ⟨⟨hi, by decide⟩, hmark (by simp), by decide⟩
    · exact List.forall_mem_singleton.mpr ⟨isLow_lowerChar hdot, isBlank_lowerChar c⟩

/-- The lower-case form of a text is in lower case. -/
theorem isLow_of_mem_lowerFrom (inWord : Bool) (cs : List Char) :
    ∀ l ∈ lowerFrom inWord cs, IsLow l := by
  induction cs generalizing inWord with
  | nil => simp [lowerFrom]
  | cons c cs ih =>
    obtain ⟨low, inWord', -, hlow, heq⟩ := lowerFrom_cons inWord c cs
    rw [heq]
    exact List.forall_mem_append.mpr ⟨fun l hl => (hlow l hl).1, ih inWord'⟩

/-- A text in lower case is its own lower-case form. -/
theorem lowerFrom_of_isLow {cs : List Char} (h : ∀ c ∈ cs, IsLow c) (inWord : Bool) :
    lowerFrom inWord cs = cs := by
  induction cs generalizing inWord with
  | nil => rfl
  | cons c cs ih =>
    obtain ⟨hc, hcs⟩ := List.forall_mem_cons.mp h
    simp [lowerFrom, hc.ne_sigma, hc.ne_dot, hc.lowerChar, ih hcs]

theorem lowerFrom_lowerFrom (inWord inWord' : Bool) (cs : List Char) :
    lowerFrom inWord (lowerFrom inWord' cs) = lowerFrom inWord' cs :=
  lowerFrom_of_isLow (isLow_of_mem_lowerFrom inWord' cs) inWord

/-! ## Blanks around a text -/

/-- Blanks are their own lower-case forms, and none is a letter of a word. -/
theorem lowerFrom_blanks {before : List Char} (h : AllBlank before) (cs : List Char) :
    lowerFrom false (before ++ cs) = before ++ lowerFrom false cs := by
  induction before with
  | nil => rfl
  | cons c before ih =>
    obtain ⟨hc, hbefore⟩ := List.forall_mem_cons.mp h
    have hlow := isLow_of_blank hc
    simp [lowerFrom, hlow.ne_sigma, hlow.ne_dot, hlow.lowerChar, not_cased_of_blank hc, ih hbefore]

/-- No letter of a word is found behind a text in the blanks that follow it. -/
theorem cased_append_blanks {after : List Char} (h : AllBlank after) (cs : List Char) :
    ((cs ++ after).dropWhile isCaseIgnorable).head?.any isCased =
      (cs.dropWhile isCaseIgnorable).head?.any isCased := by
  rw [List.dropWhile_append]
  split
  · next hempty =>
    have hnone : (after.dropWhile isCaseIgnorable).head?.any isCased = false := by
      rw [Option.any_eq_false]
      intro c hc
      have hmem := (List.dropWhile_sublist isCaseIgnorable).mem (List.mem_of_mem_head? hc)
      simp [not_cased_of_blank (h c hmem)]
    rw [hnone, List.isEmpty_iff.mp hempty]
    rfl
  · next hne =>
    rw [List.head?_append_of_ne_nil _ (by simpa using hne)]

theorem lowerFrom_append_blanks {after : List Char} (h : AllBlank after) (inWord : Bool)
    (cs : List Char) : lowerFrom inWord (cs ++ after) = lowerFrom inWord cs ++ after := by
  induction cs generalizing inWord with
  | nil => exact lowerFrom_of_isLow (fun c hc => isLow_of_blank (h c hc)) inWord
  | cons c cs ih =>
    simp only [List.cons_append, lowerFrom, cased_append_blanks h, ih, List.append_assoc]

theorem not_blank_of_head_lowerFrom {cs : List Char} (h : ∀ c ∈ cs.head?, isBlank c = false)
    (inWord : Bool) : ∀ c ∈ (lowerFrom inWord cs).head?, isBlank c = false := by
  cases cs with
  | nil => simp [lowerFrom]
  | cons c cs =>
    obtain ⟨low, inWord', hne, hlow, heq⟩ := lowerFrom_cons inWord c cs
    intro l hl
    rw [heq, List.head?_append_of_ne_nil _ hne] at hl
    exact (hlow l (List.mem_of_mem_head? hl)).2.trans (h c rfl)

theorem not_blank_of_last_lowerFrom {cs : List Char} (h : ∀ c ∈ cs.getLast?, isBlank c = false)
    (inWord : Bool) : ∀ c ∈ (lowerFrom inWord cs).getLast?, isBlank c = false := by
  induction cs generalizing inWord with
  | nil => simp [lowerFrom]
  | cons c cs ih =>
    obtain ⟨low, inWord', hne, hlow, heq⟩ := lowerFrom_cons inWord c cs
    intro l hl
    rw [heq] at hl
    cases cs with
    | nil =>
      rw [lowerFrom, List.append_nil] at hl
      exact (hlow l (List.mem_of_getLast? hl)).2.trans (h c rfl)
    | cons d cs =>
      obtain ⟨low', inWord'', hne', -, heq'⟩ := lowerFrom_cons inWord' d cs
      have hrest : lowerFrom inWord' (d :: cs) ≠ [] := by simp [heq', hne']
      rw [List.getLast?_append_of_ne_nil _ hrest] at hl
      exact ih (by simpa using h) inWord' l hl

/-- Without the blanks around it, the lower-case form of a text is that of the text without them. -/
theorem strip_lowerFrom (cs : List Char) :
    strip (lowerFrom false cs) = lowerFrom false (strip cs) := by
  have h := strips_strip cs
  refine strip_eq_iff.mpr
    ⟨?_, not_blank_of_head_lowerFrom h.head false, not_blank_of_last_lowerFrom h.last false⟩
  obtain ⟨before, after, hbefore, hafter, heq⟩ := h.around
  refine ⟨before, after, hbefore, hafter, ?_⟩
  conv => lhs; rw [heq]
  rw [List.append_assoc, lowerFrom_blanks hbefore, lowerFrom_append_blanks hafter,
    List.append_assoc]

/-- Further blanks around a text are taken off as well. -/
theorem strip_around {before after : List Char} (hbefore : AllBlank before)
    (hafter : AllBlank after) (cs : List Char) : strip (before ++ cs ++ after) = strip cs := by
  have h := strips_strip cs
  refine strip_eq_iff.mpr ⟨?_, h.head, h.last⟩
  obtain ⟨inner, inner', hinner, hinner', heq⟩ := h.around
  refine ⟨before ++ inner, inner' ++ after, List.forall_mem_append.mpr ⟨hbefore, hinner⟩,
    List.forall_mem_append.mpr ⟨hinner', hafter⟩, ?_⟩
  conv => lhs; rw [heq]
  simp

end Chip8.Text
