import Mathlib.Data.List.TakeWhile
import Chip8.Text.Blank

/-!
# Words and the blanks around them

A text is spaced when it is told as its words with blanks between and around them (`Text.Spaced`).
Every text is, in one way only, and its words are those that are read (`Text.words_eq_iff`). The
blanks at the ends of a text belong to no word, so a text has the words that it has without them
(`Text.words_strip`), and what is left without them neither begins nor ends with one
(`Text.strip_eq_iff`).
-/

namespace Chip8.Text

/-- Nothing but blanks. -/
def AllBlank (cs : List Char) : Prop := ∀ c ∈ cs, isBlank c = true

-- the list is gone through, not all characters there are
instance (cs : List Char) : Decidable (AllBlank cs) := List.decidableBAll _ _

/-- A word : at least one character, and no blank. -/
structure IsWord (word : List Char) : Prop where
  ne_nil : word ≠ []
  letters : ∀ c ∈ word, isBlank c = false

instance (word : List Char) : Decidable (IsWord word) :=
  decidable_of_iff (word ≠ [] ∧ word.all (!isBlank ·) = true)
    ⟨fun h => ⟨h.1, by simpa using h.2⟩, fun h => ⟨h.ne_nil, by simpa using h.letters⟩⟩

/-- A text is made of words, with blanks around them and at least one between two of them. -/
inductive Spaced : List (List Char) → List Char → Prop
  | nil {blanks : List Char} (hblanks : AllBlank blanks) : Spaced [] blanks
  | cons {before word rest : List Char} {words : List (List Char)} (hbefore : AllBlank before)
    (hword : IsWord word) (hrest : ∀ c ∈ rest.head?, isBlank c = true) (h : Spaced words rest) :
    Spaced (word :: words) (before ++ word ++ rest)

/-- The blanks, one by one. -/
def blanks : List Char :=
  ['\t', '\n', '\x0b', '\x0c', '\r', '\x1c', '\x1d', '\x1e', '\x1f', ' ', '\u0085', '\u00a0',
    '\u1680', '\u2000', '\u2001', '\u2002', '\u2003', '\u2004', '\u2005', '\u2006', '\u2007',
    '\u2008', '\u2009', '\u200a', '\u2028', '\u2029', '\u202f', '\u205f', '\u3000']

theorem mem_blanks_iff {c : Char} : c ∈ blanks ↔ isBlank c = true := by
  constructor
  · exact fun h => (by decide : AllBlank blanks) c h
  · intro h
    have hnumber : c.toNat ∈ blanks.map Char.toNat := by
      simp only [isBlank, Bool.or_eq_true, Bool.and_eq_true, decide_eq_true_eq] at h
      simp only [blanks, List.map_cons, List.map_nil, Char.reduceToNat, List.mem_cons]
      omega
    obtain ⟨b, hb, hnumber⟩ := List.mem_map.mp hnumber
    exact Char.toNat_inj.mp hnumber ▸ hb

namespace AllBlank

theorem nil : AllBlank [] := fun _ h => absurd h List.not_mem_nil

theorem cons {c : Char} {cs : List Char} (hc : isBlank c = true) (h : AllBlank cs) :
    AllBlank (c :: cs) := List.forall_mem_cons.mpr ⟨hc, h⟩

end AllBlank

/-! ## Reading words -/

theorem wordsFrom_blanks {blanks : List Char} (h : AllBlank blanks) (cs : List Char) :
    wordsFrom [] (blanks ++ cs) = wordsFrom [] cs := by
  induction blanks with
  | nil => rfl
  | cons b blanks ih =>
    rw [List.cons_append, wordsFrom, if_pos (h b (by simp)), if_pos rfl]
    exact ih fun c hc => h c (List.mem_cons_of_mem b hc)

theorem wordsFrom_letters {word : List Char} (h : ∀ c ∈ word, isBlank c = false)
    (begun cs : List Char) :
    wordsFrom begun (word ++ cs) = wordsFrom (word.reverse ++ begun) cs := by
  induction word generalizing begun with
  | nil => rfl
  | cons c word ih =>
    have hc : ¬ isBlank c = true := by simp [h c (by simp)]
    rw [List.cons_append, wordsFrom, if_neg hc, ih fun d hd => h d (List.mem_cons_of_mem c hd)]
    simp

/-- A word that has begun ends where the text ends or goes on with a blank. -/
theorem wordsFrom_ended {begun rest : List Char} (hbegun : begun ≠ [])
    (hrest : ∀ c ∈ rest.head?, isBlank c = true) :
    wordsFrom begun rest = begun.reverse :: wordsFrom [] rest := by
  cases rest with
  | nil => rw [wordsFrom, if_neg hbegun, wordsFrom, if_pos rfl]
  | cons c rest =>
    have hc : isBlank c = true := hrest c rfl
    rw [wordsFrom, if_pos hc, if_neg hbegun, wordsFrom, if_pos hc, if_pos rfl]

theorem words_of_spaced {words : List (List Char)} {cs : List Char} (h : Spaced words cs) :
    Text.words cs = words := by
  induction h with
  | nil hblanks =>
    have hread := wordsFrom_blanks hblanks []
    rw [List.append_nil] at hread
    rw [Text.words, hread, wordsFrom, if_pos rfl]
  | @cons before word rest words hbefore hword hrest h ih =>
    have hbegun : word.reverse ≠ [] := by simpa using hword.ne_nil
    rw [Text.words, List.append_assoc, wordsFrom_blanks hbefore, wordsFrom_letters hword.letters,
      List.append_nil, wordsFrom_ended hbegun hrest, List.reverse_reverse]
    exact congrArg (word :: ·) ih

namespace Spaced

variable {words : List (List Char)} {cs : List Char}

theorem isWord (h : Spaced words cs) : ∀ w ∈ words, IsWord w := by
  induction h with
  | nil => simp
  | cons _ hword _ _ ih => exact List.forall_mem_cons.mpr ⟨hword, ih⟩

theorem allBlank (h : Spaced [] cs) : AllBlank cs := by
  cases h with
  | nil hblanks => exact hblanks

/-- A blank in front is around the words. -/
theorem blank {c : Char} (hc : isBlank c = true) (h : Spaced words cs) : Spaced words (c :: cs) := by
  cases h with
  | nil hblanks => exact .nil (.cons hc hblanks)
  | cons hbefore hword hrest h => exact .cons (.cons hc hbefore) hword hrest h

/-- A word in front, with a blank behind it or nothing. -/
theorem word {word : List Char} (hword : IsWord word) (hrest : ∀ c ∈ cs.head?, isBlank c = true)
    (h : Spaced words cs) : Spaced (word :: words) (word ++ cs) :=
  .cons .nil hword hrest h

/-- Words with one space in front of each but the first. -/
theorem join {word : List Char} (hword : IsWord word) (hwords : ∀ w ∈ words, IsWord w) :
    Spaced (word :: words) (word ++ words.flatMap (' ' :: ·)) := by
  induction words generalizing word with
  | nil => exact .word hword (by simp) (.nil .nil)
  | cons next words ih =>
    obtain ⟨hnext, hrest⟩ := List.forall_mem_cons.mp hwords
    exact .word hword (by simp; decide) ((ih hnext hrest).blank (by decide))

end Spaced

/-- A text is made of the words that are read from it, with what there is of a word that has begun
before it in front. -/
theorem spaced_wordsFrom {begun : List Char} (hbegun : ∀ c ∈ begun, isBlank c = false)
    (cs : List Char) : Spaced (wordsFrom begun cs) (begun.reverse ++ cs) := by
  induction cs generalizing begun with
  | nil =>
    by_cases hne : begun = []
    · rw [wordsFrom, if_pos hne, hne]
      exact .nil .nil
    · rw [wordsFrom, if_neg hne]
      exact .word ⟨by simpa using hne, by simpa using hbegun⟩ (by simp) (.nil .nil)
  | cons c cs ih =>
    rw [wordsFrom]
    by_cases hc : isBlank c = true
    · have hrest : Spaced (wordsFrom [] cs) (c :: cs) := (ih (by simp)).blank hc
      rw [if_pos hc]
      by_cases hne : begun = []
      · rw [if_pos hne, hne]
        exact hrest
      · rw [if_neg hne]
        exact .word ⟨by simpa using hne, by simpa using hbegun⟩ (by simpa using hc) hrest
    · rw [if_neg hc]
      have hletters : ∀ d ∈ c :: begun, isBlank d = false := by simpa [hc] using hbegun
      have h := ih hletters
      rwa [List.reverse_cons, List.append_assoc] at h

/-- The words that are read from a text are those it is made of. -/
theorem words_eq_iff {cs : List Char} {words : List (List Char)} :
    Text.words cs = words ↔ Spaced words cs :=
  ⟨fun h => h ▸ spaced_wordsFrom (by simp) cs, words_of_spaced⟩

/-! ## Without the blanks at the ends -/

section Trim

variable {α : Type} (drop : α → Bool)

theorem dropWhile_append_of_head {before rest : List α} (hbefore : ∀ x ∈ before, drop x = true)
    (hrest : ∀ x ∈ rest.head?, drop x = false) : (before ++ rest).dropWhile drop = rest := by
  rw [List.dropWhile_append_of_pos hbefore]
  cases rest with
  | nil => rfl
  | cons x rest => exact List.dropWhile_cons_of_neg (by simp [hrest x rfl])

theorem not_drop_of_head_dropWhile {x : α} (xs : List α) (h : x ∈ (xs.dropWhile drop).head?) :
    drop x = false := by
  have hhead := List.head?_dropWhile_not drop xs
  rw [Option.mem_def.mp h] at hhead
  exact hhead

/-- What is left of a list stood between items that were dropped. -/
theorem exists_trim (xs : List α) : ∃ before after, (∀ x ∈ before, drop x = true) ∧
    (∀ x ∈ after, drop x = true) ∧ xs = before ++ trim drop xs ++ after := by
  let rest := xs.dropWhile drop
  refine ⟨xs.takeWhile drop, (rest.reverse.takeWhile drop).reverse, fun x => List.mem_takeWhile_imp,
    fun x hx => List.mem_takeWhile_imp (List.mem_reverse.mp hx), ?_⟩
  rw [List.append_assoc, trim, ← List.reverse_append, List.takeWhile_append_dropWhile,
    List.reverse_reverse, List.takeWhile_append_dropWhile]

/-- What stands between items that are dropped is left, if its ends are none of them. -/
theorem trim_of_around {before core after : List α} (hbefore : ∀ x ∈ before, drop x = true)
    (hafter : ∀ x ∈ after, drop x = true) (hhead : ∀ x ∈ core.head?, drop x = false)
    (hlast : ∀ x ∈ core.getLast?, drop x = false) :
    trim drop (before ++ core ++ after) = core := by
  by_cases hcore : core = []
  · have hall : ∀ x ∈ before ++ core ++ after, drop x = true := by
      simpa [hcore, or_imp, forall_and] using ⟨hbefore, hafter⟩
    rw [trim, List.dropWhile_eq_nil_iff.mpr hall, hcore]
    rfl
  · have hfront : ∀ x ∈ (core ++ after).head?, drop x = false := by
      obtain ⟨x, core, rfl⟩ := List.exists_cons_of_ne_nil hcore
      exact hhead
    have hback : ∀ x ∈ core.reverse.head?, drop x = false := by
      rwa [List.head?_reverse]
    have hrest : ∀ x ∈ after.reverse, drop x = true :=
      fun x hx => hafter x (List.mem_reverse.mp hx)
    rw [trim, List.append_assoc, dropWhile_append_of_head drop hbefore hfront,
      List.reverse_append, dropWhile_append_of_head drop hrest hback, List.reverse_reverse]

theorem not_drop_of_last_trim {x : α} (xs : List α) (h : x ∈ (trim drop xs).getLast?) :
    drop x = false := by
  rw [trim, List.getLast?_reverse] at h
  exact not_drop_of_head_dropWhile drop _ h

theorem not_drop_of_head_trim {x : α} (xs : List α) (h : x ∈ (trim drop xs).head?) :
    drop x = false := by
  -- what is dropped at the end leaves the head, unless it is all there is
  obtain ⟨before, hrest⟩ := List.dropWhile_suffix drop (l := (xs.dropWhile drop).reverse)
  have hfront : xs.dropWhile drop = trim drop xs ++ before.reverse := by
    rw [trim, ← List.reverse_append, hrest, List.reverse_reverse]
  refine not_drop_of_head_dropWhile drop xs ?_
  rw [hfront, List.head?_append, Option.mem_def.mp h]
  rfl

end Trim

/-- A text is another one with blanks around it, which has none at its own ends. -/
structure Strips (cs core : List Char) : Prop where
  around : ∃ before after, AllBlank before ∧ AllBlank after ∧ cs = before ++ core ++ after
  head : ∀ c ∈ core.head?, isBlank c = false
  last : ∀ c ∈ core.getLast?, isBlank c = false

theorem strips_strip (cs : List Char) : Strips cs (strip cs) where
  around := exists_trim isBlank cs
  head _ h := not_drop_of_head_trim isBlank cs h
  last _ h := not_drop_of_last_trim isBlank cs h

theorem strip_eq_iff {cs core : List Char} : strip cs = core ↔ Strips cs core := by
  refine ⟨fun h => h ▸ strips_strip cs, fun h => ?_⟩
  obtain ⟨before, after, hbefore, hafter, rfl⟩ := h.around
  exact trim_of_around isBlank hbefore hafter h.head h.last

/-- A text begins, without the blanks around it, with its first character that is none. -/
theorem head_strip {blanks : List Char} (hblanks : AllBlank blanks) {c : Char}
    (hc : isBlank c = false) (cs : List Char) : (strip (blanks ++ c :: cs)).head? = some c := by
  have hnone {blanks : List Char} (h : AllBlank blanks) : blanks.find? (!isBlank ·) = none :=
    List.find?_eq_none.mpr fun b hb => by simp [h b hb]
  have hfirst : (blanks ++ c :: cs).find? (!isBlank ·) = some c := by
    rw [List.find?_append, hnone hblanks, Option.none_or]
    exact List.find?_cons_of_pos (by simp [hc])
  obtain ⟨⟨before, after, hbefore, hafter, hcs⟩, hhead, -⟩ := strips_strip (blanks ++ c :: cs)
  generalize strip (blanks ++ c :: cs) = core at *
  rw [hcs, List.find?_append, List.find?_append, hnone hbefore, hnone hafter, Option.none_or,
    Option.or_none] at hfirst
  cases core with
  | nil => exact hfirst
  | cons d core => rwa [List.find?_cons_of_pos (by simp [hhead d rfl])] at hfirst

namespace Spaced

variable {words : List (List Char)} {cs : List Char}

theorem blanks {before : List Char} (hbefore : AllBlank before) (h : Spaced words cs) :
    Spaced words (before ++ cs) := by
  induction before with
  | nil => exact h
  | cons c before ih =>
    obtain ⟨hc, hbefore⟩ := List.forall_mem_cons.mp hbefore
    exact (ih hbefore).blank hc

/-- Blanks behind are around the words. -/
theorem trailing {after : List Char} (hafter : AllBlank after) (h : Spaced words cs) :
    Spaced words (cs ++ after) := by
  induction h with
  | nil hblanks => exact .nil (List.forall_mem_append.mpr ⟨hblanks, hafter⟩)
  | @cons before word rest words hbefore hword hrest h ih =>
    rw [List.append_assoc]
    refine .cons hbefore hword ?_ ih
    cases rest with
    | nil => exact fun c hc => hafter c (List.mem_of_mem_head? hc)
    | cons c rest => exact hrest

end Spaced

/-- The blanks at the ends of a text belong to no word. -/
theorem words_strip (cs : List Char) : words (strip cs) = words cs := by
  obtain ⟨before, after, hbefore, hafter, hcs⟩ := (strips_strip cs).around
  have hcore : Spaced (words (strip cs)) (strip cs) := words_eq_iff.mp rfl
  have h : Spaced (words (strip cs)) cs := by
    conv => rhs; rw [hcs]
    rw [List.append_assoc]
    exact (hcore.trailing hafter).blanks hbefore
  exact (words_eq_iff.mpr h).symm

end Chip8.Text
