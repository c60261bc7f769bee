import Mathlib.Data.List.Basic
import Chip8.Proofs.Machine.Sprite

/-!
# The picture of a screen

A screen is drawn as text, one line for each row of cells with a line break between two lines. With
one more line break at its end a picture is made of pieces of one length, a row and the break behind
it (`Screen.picture_break`). So the column and the row of a cell tell its place in the text
(`Screen.getElem?_picture`), and every other place is a line break (`Screen.getElem?_break`).

Hence a cell that is turned over changes one character and no other (`Screen.picture_toggle`), and
the screen is read off its picture (`Screen.ofPicture_picture`). All of this together is
`Screen.pictures_are_faithful`.
-/

namespace Chip8

/-! ## Pieces of one length -/

section Pieces

variable {α β : Type}

/-- Pieces with a separator between two of them are pieces with a separator behind each, but for the
last separator. -/
theorem intercalate_append_singleton (sep : α) :
    ∀ {pieces : List (List α)}, pieces ≠ [] →
      [sep].intercalate pieces ++ [sep] = pieces.flatMap (· ++ [sep])
  | [_], _ => by simp
  | piece :: next :: pieces, _ => by
    rw [List.intercalate_cons_cons, List.append_assoc,
      intercalate_append_singleton sep (List.cons_ne_nil next pieces), List.flatMap_cons,
      List.flatMap_cons, List.flatMap_cons]

/-- Of pieces of one length, an item is found by the number of its piece and its place in it. -/
theorem getElem?_flatMap_of_length {f : β → List α} {width : Nat} {xs : List β}
    (hlength : ∀ x ∈ xs, (f x).length = width) {k : Nat} (hk : k < width) (n : Nat) :
    (xs.flatMap f)[width * n + k]? = xs[n]?.bind fun x => (f x)[k]? := by
  induction xs generalizing n with
  | nil => simp
  | cons x xs ih =>
    obtain ⟨hx, hxs⟩ := List.forall_mem_cons.mp hlength
    rw [List.flatMap_cons]
    cases n with
    | zero =>
      rw [Nat.mul_zero, Nat.zero_add, List.getElem?_append_left (by omega)]
      rfl
    | succ n =>
      have hplace : width * (n + 1) + k = (f x).length + (width * n + k) := by
        rw [Nat.mul_succ, hx]
        omega
      rw [hplace, List.getElem?_append_right (by omega), Nat.add_sub_cancel_left, ih hxs n,
        List.getElem?_cons_succ]

end Pieces

namespace Screen

/-! ## Places in a picture -/

theorem length_row (s : Screen) {y : Nat} (hy : y < height) : (row s.toList y).length = width := by
  simp only [row, height, width, List.length_map, List.length_take, List.length_drop,
    Vector.length_toList] at *
  omega

theorem getElem?_row (s : Screen) {x y : Nat} (hx : x < width) (hy : y < height) :
    (row s.toList y)[x]? = some (ink (s.lit x y)) := by
  have hcell : (cell x y).val = y * 64 + x := by
    simp only [cell, width, height] at *
    omega
  have hplace : y * width + x < 2048 := by
    simp only [width, height] at *
    omega
  rw [row, List.getElem?_map, List.getElem?_take_of_lt hx, List.getElem?_drop,
    List.getElem?_eq_getElem (by simpa using hplace)]
  simp [lit, hcell, width]

/-- With a line break at its end, a picture is its rows with a line break behind each of them. -/
theorem picture_break (s : Screen) :
    s.picture.toList ++ ['\n'] = (List.range height).flatMap fun y => row s.toList y ++ ['\n'] := by
  have hrows : (List.range height).map (row s.toList) ≠ [] := by simp [height]
  rw [picture, render, String.toList_ofList, intercalate_append_singleton _ hrows, List.flatMap_map]

theorem length_picture (s : Screen) : s.picture.toList.length = 2079 := by
  have hlength := congrArg List.length s.picture_break
  have hrows : (List.range height).map (fun y => (row s.toList y ++ ['\n']).length) =
      List.replicate 32 65 := by
    rw [List.map_congr_left (g := fun _ => 65)]
    · rfl
    · intro y hy
      rw [List.length_append, s.length_row (List.mem_range.mp hy)]
      rfl
  rw [List.length_append, List.length_flatMap, hrows] at hlength
  exact Nat.succ.inj hlength

/-- Where a picture has not ended, its characters are those of a row and of the break behind it. -/
theorem getElem?_line (s : Screen) {k y : Nat} (hk : k ≤ 64) (hy : y < height)
    (hin : 65 * y + k < 2079) :
    s.picture.toList[65 * y + k]? = (row s.toList y ++ ['\n'])[k]? := by
  have hpieces : ∀ y ∈ List.range height, (row s.toList y ++ ['\n']).length = 65 := fun y hy => by
    rw [List.length_append, s.length_row (List.mem_range.mp hy)]
    rfl
  have hfound := getElem?_flatMap_of_length hpieces (Nat.lt_succ_of_le hk) y
  rw [← picture_break, List.getElem?_append_left (by rwa [length_picture]),
    List.getElem?_range hy] at hfound
  exact hfound

/-- A cell has its character at the place that its column and its row tell. -/
theorem getElem?_picture (s : Screen) {x y : Nat} (hx : x < 64) (hy : y < 32) :
    s.picture.toList[65 * y + x]? = some (ink (s.lit x y)) := by
  rw [s.getElem?_line (by omega) hy (by omega),
    List.getElem?_append_left (by rwa [s.length_row hy]), s.getElem?_row hx hy]

theorem getElem?_break (s : Screen) {y : Nat} (hy : y < 31) :
    s.picture.toList[65 * y + 64]? = some '\n' := by
  have hrow := s.length_row (y := y) (by simp only [height]; omega)
  rw [s.getElem?_line (by omega) (by simp only [height]; omega) (by omega),
    List.getElem?_append_right (by rw [hrow]; decide), hrow]
  rfl

/-- A text is the picture of a screen if it has the length of a picture, the characters of the cells
at their places and line breaks between the lines. -/
theorem eq_picture {s : Screen} {text : List Char} (hlength : text.length = 2079)
    (hcells : ∀ x y : Nat, x < 64 → y < 32 → text[65 * y + x]? = some (ink (s.lit x y)))
    (hbreaks : ∀ y < 31, text[65 * y + 64]? = some '\n') : text = s.picture.toList := by
  refine List.ext_getElem? fun p => ?_
  obtain ⟨y, k, hk, rfl⟩ : ∃ y k, k ≤ 64 ∧ p = 65 * y + k := ⟨p / 65, p % 65, by omega, by omega⟩
  by_cases hin : 65 * y + k < 2079
  · by_cases hcell : k < 64
    · rw [hcells k y hcell (by omega), s.getElem?_picture hcell (by omega)]
    · obtain rfl : k = 64 := by omega
      have hy : y < 31 := by omega
      rw [hbreaks y hy, s.getElem?_break hy]
  · rw [List.getElem?_eq_none (by omega), List.getElem?_eq_none (by rw [length_picture]; omega)]

/-! ## What a picture tells -/

/-- Turning over a cell changes the character of the cell and no other. -/
theorem picture_toggle (s : Screen) (x y : Int) :
    (s.toggle (cell x y)).picture.toList =
      s.picture.toList.set (65 * (y % 32).toNat + (x % 64).toNat) (ink (!s.lit x y)) := by
  refine (eq_picture ?_ (fun a b ha hb => ?_) fun b hb => ?_).symm
  · rw [List.length_set, length_picture]
  · rw [List.getElem?_set, s.getElem?_picture ha hb, length_picture]
    have hlit : (s.toggle (cell x y)).lit a b =
        if cell x y = cell a b then !s.lit x y else s.lit a b := s.get_toggle _ _
    have hplace : cell x y = cell a b ↔ 65 * (y % 32).toNat + (x % 64).toNat = 65 * b + a := by
      rw [cell_eq_iff]
      omega
    rw [hlit]
    by_cases hcell : cell x y = cell a b
    · rw [if_pos (hplace.mp hcell), if_pos (by omega), if_pos hcell]
    · rw [if_neg (mt hplace.mpr hcell), if_neg hcell]
  · rw [List.getElem?_set_ne (by omega), s.getElem?_break hb]

/-- The screen that a text is read as : a cell is lit if there is ink at its place. -/
def ofPicture (text : String) : Screen :=
  Vector.ofFn fun c : Fin 2048 => text.toList[65 * (c.val / 64) + c.val % 64]? == some '#'

theorem beq_some_ink (isLit : Bool) : (some (ink isLit) == some '#') = isLit := by
  cases isLit <;> rfl

/-- A screen is read off its picture. -/
theorem ofPicture_picture (s : Screen) : ofPicture s.picture = s := by
  ext k hk
  have hcell : (cell (k % 64 : Nat) (k / 64 : Nat)).val = k := by
    simp only [cell]
    omega
  have hfound := s.getElem?_picture (Nat.mod_lt k (by decide)) (y := k / 64) (by omega)
  rw [ofPicture, Vector.getElem_ofFn, hfound, beq_some_ink]
  simp only [lit, Fin.getElem_fin, hcell]

theorem picture_injective : Function.Injective picture := fun s t h => by
  rw [← ofPicture_picture s, h, ofPicture_picture]

/-- A text draws a screen : it has 32 lines of 64 characters with a line break between two lines, and
the character at the place of a cell tells whether the cell is lit. -/
structure Draws (text : List Char) (s : Screen) : Prop where
  lines : ∃ lines : List (List Char), lines.length = 32 ∧
    (∀ line ∈ lines, line.length = 64 ∧ '\n' ∉ line) ∧ text = ['\n'].intercalate lines
  cells : ∀ x y : Nat, x < 64 → y < 32 →
    text[65 * y + x]? = some (if s.lit x y then '#' else '.')

theorem not_mem_row (frame : List Bool) (y : Nat) : '\n' ∉ row frame y := by
  have hink : ∀ isLit, ink isLit ≠ '\n' := by decide
  intro hmem
  obtain ⟨isLit, -, hbreak⟩ := List.mem_map.mp hmem
  exact hink isLit hbreak

theorem draws_picture (s : Screen) : Draws s.picture.toList s where
  lines := by
    refine ⟨(List.range height).map (row s.toList), by simp [height], fun line hline => ?_, ?_⟩
    · obtain ⟨y, hy, rfl⟩ := List.mem_map.mp hline
      exact ⟨s.length_row (List.mem_range.mp hy), not_mem_row _ y⟩
    · rw [picture, render, String.toList_ofList]
  cells _ _ hx hy := s.getElem?_picture hx hy

/-- The text that a machine shows draws its screen, and turning over a cell, at whatever coordinates,
changes the character of that cell alone. The screen is read off the text, so two machines show the
same text if their screens are the same and not otherwise. -/
theorem pictures_are_faithful :
    (∀ m : Machine, Draws m.screen.picture.toList m.screen ∧
      ofPicture m.screen.picture = m.screen ∧
      ∀ x y : Int, (m.screen.toggle (cell x y)).picture.toList =
        m.screen.picture.toList.set (65 * (y % 32).toNat + (x % 64).toNat)
          (if m.screen.lit x y then '.' else '#')) ∧
      ∀ m n : Machine, m.screen.picture = n.screen.picture ↔ m.screen = n.screen := by
  refine ⟨fun m => ⟨draws_picture m.screen, ofPicture_picture m.screen, fun x y => ?_⟩,
    fun m n => picture_injective.eq_iff⟩
  rw [picture_toggle]
  cases m.screen.lit x y <;> rfl

end Screen

end Chip8
