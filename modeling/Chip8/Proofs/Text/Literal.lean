import Mathlib.Algebra.Group.Nat.Defs
import Chip8.Proofs.Text.Words
import Chip8.Text.Literal

/-!
# Decimal literals

A decimal literal is a sign or none and digits of any script, with single underscores between them,
4300 digits at the most (`Text.Literal.Spells`). Exactly these are read, as the numbers that they
spell (`Text.Literal.read_eq_ok_iff`), of words without blanks. A number as it is written in decimal
spells that number, if it is not too long (`Text.Literal.spells_signed`).
-/

namespace Chip8.Text

namespace Literal

/-- Digits of a base with their values, single underscores between some of them. -/
inductive Digits (base : Nat) : List Char → List Nat → Prop
  | one {c : Char} {d : Nat} (hc : digitValue? base c = some d) : Digits base [c] [d]
  | next {c : Char} {d : Nat} {cs : List Char} {ds : List Nat} (hc : digitValue? base c = some d)
    (h : Digits base cs ds) : Digits base (c :: cs) (d :: ds)
  | underscore {c : Char} {d : Nat} {cs : List Char} {ds : List Nat}
    (hc : digitValue? base c = some d) (h : Digits base cs ds) :
    Digits base (c :: '_' :: cs) (d :: ds)

/-- A decimal literal spells a number. -/
inductive Spells : List Char → Int → Prop
  | plain {cs : List Char} {ds : List Nat} (h : Digits 10 cs ds) (hlength : ds.length ≤ maxDigits) :
    Spells cs (value 10 ds)
  | plus {cs : List Char} {ds : List Nat} (h : Digits 10 cs ds) (hlength : ds.length ≤ maxDigits) :
    Spells ('+' :: cs) (value 10 ds)
  | minus {cs : List Char} {ds : List Nat} (h : Digits 10 cs ds) (hlength : ds.length ≤ maxDigits) :
    Spells ('-' :: cs) (-value 10 ds)

/-! ## Digits -/

section Digits

variable {base : Nat}

theorem digitValue?_underscore : digitValue? base '_' = none := by
  have hdecimal : decimalValue? '_' = none := by decide
  simp [digitValue?, hdecimal]

theorem digitValue?_blank {c : Char} (hc : isBlank c = true) : digitValue? base c = none := by
  have htable : blanks.all (fun c => !decide ('a' ≤ c ∧ c ≤ 'z') && !decide ('A' ≤ c ∧ c ≤ 'Z') &&
      (decimalValue? c).isNone) = true := by
    decide +kernel
  obtain ⟨⟨hlower, hupper⟩, hdecimal⟩ : (¬ ('a' ≤ c ∧ c ≤ 'z') ∧ ¬ ('A' ≤ c ∧ c ≤ 'Z')) ∧
      decimalValue? c = none := by
    simpa only [Bool.and_eq_true, Bool.not_eq_true', decide_eq_false_iff_not,
      Option.isNone_iff_eq_none] using List.all_eq_true.mp htable c (mem_blanks_iff.mpr hc)
  simp [digitValue?, hlower, hupper, hdecimal]

/-- After a digit, an underscore is passed over if digits follow it. -/
theorem digitsAfter?_underscore (cs : List Char) :
    digitsAfter? base ('_' :: cs) = digits? base cs := by
  cases cs with
  | nil => rfl
  | cons c cs => rw [digitsAfter?, digits?]

/-- After a digit, further digits are read as at the beginning. -/
theorem digitsAfter?_digit {c : Char} {d : Nat} (hc : digitValue? base c = some d)
    (cs : List Char) : digitsAfter? base (c :: cs) = digits? base (c :: cs) := by
  have hne : c ≠ '_' := by
    rintro rfl
    rw [digitValue?_underscore] at hc
    contradiction
  rw [digitsAfter?, digits?, hc]
  · rfl
  · exact fun h _ => hne h
  · exact fun _ _ h _ => hne h

theorem digitsAfter?_other {c : Char} (hne : c ≠ '_') (hc : digitValue? base c = none)
    (cs : List Char) : digitsAfter? base (c :: cs) = some ([], c :: cs) := by
  rw [digitsAfter?, hc]
  · exact fun h _ => hne h
  · exact fun _ _ h _ => hne h

theorem Digits.read {cs : List Char} {ds : List Nat} (h : Digits base cs ds) :
    digits? base cs = some (ds, []) := by
  have step {c : Char} {d : Nat} (hc : digitValue? base c = some d) {cs : List Char}
      {ds : List Nat} (hafter : digitsAfter? base cs = some (ds, [])) :
      digits? base (c :: cs) = some (d :: ds, []) := by
    simp [digits?, hc, hafter]
  induction h with
  | one hc => exact step hc rfl
  | @next c d cs ds hc h ih =>
    refine step hc ?_
    cases h with
    | one hc' | next hc' | underscore hc' => rw [digitsAfter?_digit hc', ih]
  | underscore hc h ih => exact step hc (by rw [digitsAfter?_underscore, ih])

theorem Digits.of_read : ∀ {cs : List Char} {ds : List Nat},
    digits? base cs = some (ds, []) → Digits base cs ds
  | [], _, h => by simp [digits?] at h
  | [c], ds, h => by
    obtain ⟨d, hc, rfl⟩ : ∃ d, digitValue? base c = some d ∧ [d] = ds := by
      simpa [digits?, digitsAfter?, Option.bind_eq_some_iff] using h
    exact .one hc
  | c :: c' :: cs, ds, h => by
    simp only [digits?, Option.bind_eq_bind, Option.bind_eq_some_iff] at h
    obtain ⟨d, hc, ⟨after, rest⟩, hafter, hds⟩ := h
    obtain ⟨rfl, rfl⟩ : d :: after = ds ∧ rest = [] := by simpa using hds
    by_cases hunder : c' = '_'
    · rw [hunder, digitsAfter?_underscore] at hafter
      exact hunder ▸ .underscore hc (of_read hafter)
    · cases hc' : digitValue? base c' with
      | none => simp [digitsAfter?_other hunder hc'] at hafter
      | some d' => exact .next hc (of_read (digitsAfter?_digit hc' cs ▸ hafter))

end Digits

/-! ## Literals -/

/-- The mark of a base is none in decimal. -/
theorem dropMark_ten (cs : List Char) : dropMark 10 cs = cs := by
  unfold dropMark
  split
  · simp
  · rfl

/-- The number of digits that are read to the end of a text, with the sign that was in front. -/
def unsigned (sign : Int) (cs : List Char) : Except Error Int :=
  match digits? 10 cs with
  | none => .error .malformed
  | some (ds, rest) =>
    if maxDigits < ds.length then .error (.tooLong ds.length)
    else if rest = [] then .ok (sign * value 10 ds)
    else .error .malformed

theorem unsigned_eq_ok_iff {sign i : Int} {cs : List Char} : unsigned sign cs = .ok i ↔
    ∃ ds, Digits 10 cs ds ∧ ds.length ≤ maxDigits ∧ sign * value 10 ds = i := by
  constructor
  · intro h
    unfold unsigned at h
    split at h
    · contradiction
    · next ds rest hread =>
      split at h
      · contradiction
      · next hlength =>
        split at h
        · next hrest =>
          subst hrest
          exact ⟨ds, .of_read hread, Nat.not_lt.mp hlength, Except.ok.inj h⟩
        · contradiction
  · rintro ⟨ds, hdigits, hlength, rfl⟩
    have hshort : ¬ maxDigits < ds.length := Nat.not_lt.mpr hlength
    simp [unsigned, hdigits.read, hshort]

/-- Of a word without blanks, the sign is read and then the digits. -/
theorem read_of_word {word : List Char} (h : ∀ c ∈ word, isBlank c = false) :
    read 10 word = unsigned (sign word).1 (sign word).2 := by
  have hmargin : ∀ c ∈ word, isMargin c = false := fun c hc => by simp [isMargin, h c hc]
  have htrim : trim isMargin ([] ++ word ++ []) = word :=
    trim_of_around isMargin (by simp) (by simp) (fun c hc => hmargin c (List.mem_of_mem_head? hc))
      fun c hc => hmargin c (List.mem_of_getLast? hc)
  rw [List.nil_append, List.append_nil] at htrim
  simp only [read, htrim, dropMark_ten, true_and]
  rfl

theorem sign_of_digits {cs : List Char} {ds : List Nat} (h : Digits 10 cs ds) :
    sign cs = (1, cs) := by
  have hminus : digitValue? 10 '-' = none := by decide
  have hplus : digitValue? 10 '+' = none := by decide
  have hsign {c : Char} {d : Nat} (hc : digitValue? 10 c = some d) : c ≠ '-' ∧ c ≠ '+' :=
    ⟨fun h => by simp [h, hminus] at hc, fun h => by simp [h, hplus] at hc⟩
  cases h with
  | one hc | next hc | underscore hc =>
    exact sign.eq_3 _ (fun _ h => (hsign hc).1 (List.cons.inj h).1)
      fun _ h => (hsign hc).2 (List.cons.inj h).1

/-- A literal spells its digits with its sign. -/
theorem spells_iff {word : List Char} {i : Int} :
    Spells word i ↔ ∃ ds, Digits 10 (sign word).2 ds ∧ ds.length ≤ maxDigits ∧
      (sign word).1 * value 10 ds = i := by
  constructor
  · intro h
    cases h with
    | @plain _ ds h hlength => exact ⟨ds, by rw [sign_of_digits h]; exact ⟨h, hlength, by simp⟩⟩
    | @plus cs ds h hlength => exact ⟨ds, h, hlength, by simp [sign]⟩
    | @minus cs ds h hlength => exact ⟨ds, h, hlength, by simp [sign]⟩
  · rintro ⟨ds, h, hlength, rfl⟩
    unfold sign at h ⊢
    split at h
    · simpa using Spells.minus h hlength
    · simpa using Spells.plus h hlength
    · simpa using Spells.plain h hlength

/-- A word is read as a decimal literal if it is one. -/
theorem read_eq_ok_iff {word : List Char} (h : ∀ c ∈ word, isBlank c = false) {i : Int} :
    read 10 word = .ok i ↔ Spells word i := by
  rw [read_of_word h, unsigned_eq_ok_iff, spells_iff]

/-! ## Written numbers -/

theorem value_append (base : Nat) (ds : List Nat) (d : Nat) :
    value base (ds ++ [d]) = base * value base ds + d := by
  rw [value, List.foldl_append]
  rfl

theorem Digits.append {base : Nat} {cs : List Char} {ds : List Nat} (h : Digits base cs ds)
    {c : Char} {d : Nat} (hc : digitValue? base c = some d) : Digits base (cs ++ [c]) (ds ++ [d]) := by
  induction h with
  | one hc' => exact .next hc' (.one hc)
  | next hc' _ ih => exact .next hc' ih
  | underscore hc' _ ih => exact .underscore hc' ih

/-- The digits of a base are read as they are written. -/
structure Legible (base : Nat) : Prop where
  two_le : 2 ≤ base
  digit : ∀ d < base, digitValue? base (digitChar d) = some d

theorem legible_ten : Legible 10 := ⟨by decide, by decide⟩

theorem legible_sixteen : Legible 16 := ⟨by decide, by decide⟩

/-- The digits of a number as it is written are as many as its characters, and spell it. -/
theorem Legible.digits_numeral {base : Nat} (h : Legible base) (n : Nat) :
    ∃ ds, Digits base (numeral base n) ds ∧ value base ds = n ∧
      ds.length = (numeral base n).length := by
  have hbase := h.two_le
  induction n using Nat.strongRecOn with
  | ind n ih =>
    rw [numeral]
    by_cases hn : base < 2 ∨ n < base
    · rw [if_pos hn]
      exact ⟨[n], .one (h.digit n (by omega)), by simp [value], rfl⟩
    · obtain ⟨ds, hdigits, hvalue, hlength⟩ := ih (n / base) (Nat.div_lt_self (by omega) hbase)
      rw [if_neg hn]
      refine ⟨ds ++ [n % base], hdigits.append (h.digit _ (Nat.mod_lt _ (by omega))), ?_, ?_⟩
      · rw [value_append, hvalue]
        exact Nat.div_add_mod n base
      · simp [hlength]

namespace Legible

variable {base : Nat} (h : Legible base)

include h

/-- What holds of the digits holds of every character of a number as it is written. -/
theorem forall_mem_numeral {p : Char → Prop} (hdigit : ∀ d < base, p (digitChar d)) (n : Nat) :
    ∀ c ∈ numeral base n, p c := by
  have hbase := h.two_le
  induction n using Nat.strongRecOn with
  | ind n ih =>
    rw [numeral]
    split
    · exact List.forall_mem_singleton.mpr (hdigit n (by omega))
    · exact List.forall_mem_append.mpr ⟨ih _ (Nat.div_lt_self (by omega) hbase),
        List.forall_mem_singleton.mpr (hdigit _ (Nat.mod_lt _ (by omega)))⟩

/-- What holds of the digits and of the sign holds of every character of a written number. -/
theorem forall_mem_signed {p : Char → Prop} (hdigit : ∀ d < base, p (digitChar d)) (hsign : p '-')
    (i : Int) : ∀ c ∈ signed base i, p c := by
  cases i with
  | ofNat n => exact h.forall_mem_numeral hdigit n
  | negSucc n => exact List.forall_mem_cons.mpr ⟨hsign, h.forall_mem_numeral hdigit (n + 1)⟩

theorem not_blank {d : Nat} (hd : d < base) : isBlank (digitChar d) = false := by
  by_contra hblank
  have hvalue := h.digit d hd
  rw [digitValue?_blank (by simpa using hblank)] at hvalue
  contradiction

/-- A number as it is written is one word. -/
theorem isWord_signed (i : Int) : IsWord (signed base i) where
  ne_nil := by
    have hnumeral (n : Nat) : numeral base n ≠ [] := by
      rw [numeral]
      split <;> simp
    cases i with
    | ofNat n => exact hnumeral n
    | negSucc n => exact List.cons_ne_nil _ _
  letters := h.forall_mem_signed (fun _ hd => h.not_blank hd) (by decide) i

end Legible

/-- A number has no more digits than the power of ten that is above it. -/
theorem length_numeral_le {n k : Nat} (hk : 0 < k) (h : n < 10 ^ k) : (numeral 10 n).length ≤ k := by
  induction k generalizing n with
  | zero => contradiction
  | succ k ih =>
    rw [numeral]
    split
    · exact Nat.succ_le_succ (Nat.zero_le k)
    · next hn =>
      have hpos : 0 < k := by
        by_contra hzero
        obtain rfl : k = 0 := by omega
        omega
      have hdiv : n / 10 < 10 ^ k := by
        rw [Nat.pow_succ] at h
        omega
      have hlength := ih hpos hdiv
      simp only [List.length_append, List.length_singleton]
      omega

/-- A number as it is written spells that number. -/
theorem spells_signed {i : Int} (h : i.natAbs < 10 ^ maxDigits) : Spells (signed 10 i) i := by
  have hmax : 0 < maxDigits := by decide
  cases i with
  | ofNat n =>
    obtain ⟨ds, hdigits, rfl, hlength⟩ := legible_ten.digits_numeral n
    exact .plain hdigits (hlength ▸ length_numeral_le hmax h)
  | negSucc n =>
    obtain ⟨ds, hdigits, hvalue, hlength⟩ := legible_ten.digits_numeral (n + 1)
    have hspells := Spells.minus hdigits (hlength ▸ length_numeral_le hmax h)
    rw [hvalue] at hspells
    exact hspells

end Literal

end Chip8.Text
