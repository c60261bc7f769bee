import Mathlib.Data.List.Nodup
import Chip8.Proofs.Machine.Effect

/-!
# Sprites

A sprite has a place and rows of eight cells each, and it covers the cells of the screen that its
bits are set for, round both edges (`Sprite.covers`). To draw it is to turn over the cells that it
covers (`Screen.flip`) : no cell is met twice, since a sprite is less wide and less high than the
screen (`Machine.drawn_eq_flip`).

So of a number of sprites a cell meets those that cover it, and what it shows in the end is told by
whether their number is odd (`Screen.lit_flipAll`), whatever their order.
-/

namespace Chip8

theorem decide_odd_succ (n : Nat) : decide ((n + 1) % 2 = 1) = !decide (n % 2 = 1) := by
  rw [← decide_not, decide_eq_decide]
  omega

/-- Rows of eight cells, and the place of the first cell of the first row. -/
structure Sprite where
  x : Int
  y : Int
  rows : List UInt8

namespace Sprite

/-- Whether a sprite covers the cell in column `x` and row `y`. Its cells lie to the right of its
place and below it, the most significant bit of a row first. -/
def covers (p : Sprite) (x y : Int) : Bool :=
  let column := (x - p.x) % 64
  let row := (y - p.y) % 32
  column < 8 && p.rows[row.toNat]?.any fun bits => bits.toNat.testBit (7 - column.toNat)

/-- The same rows at the same place, one way or another round the edges. -/
def SamePlace (p q : Sprite) : Prop :=
  p.x % 64 = q.x % 64 ∧ p.y % 32 = q.y % 32 ∧ p.rows = q.rows

theorem SamePlace.covers {p q : Sprite} (h : p.SamePlace q) (x y : Int) :
    p.covers x y = q.covers x y := by
  obtain ⟨hx, hy, hrows⟩ := h
  have hcolumn : (x - p.x) % 64 = (x - q.x) % 64 := by omega
  have hrow : (y - p.y) % 32 = (y - q.y) % 32 := by omega
  simp only [Sprite.covers, hcolumn, hrow, hrows]

theorem covers_congr (p : Sprite) {x y x' y' : Int} (hx : x % 64 = x' % 64)
    (hy : y % 32 = y' % 32) : p.covers x y = p.covers x' y' := by
  have hcolumn : (x - p.x) % 64 = (x' - p.x) % 64 := by omega
  have hrow : (y - p.y) % 32 = (y' - p.y) % 32 := by omega
  simp only [covers, hcolumn, hrow]

end Sprite

namespace Screen

/-- Two pairs of coordinates name one cell if they differ by turns round the edges. -/
theorem cell_eq_iff {x y x' y' : Int} :
    cell x y = cell x' y' ↔ x % 64 = x' % 64 ∧ y % 32 = y' % 32 := by
  simp only [cell, Fin.mk.injEq]
  omega

/-- Every cell has a column and a row. -/
theorem exists_cell (c : Fin 2048) : ∃ x y, cell x y = c := by
  refine ⟨(c.val % 64 : Nat), (c.val / 64 : Nat), ?_⟩
  simp only [cell, Fin.ext_iff]
  omega

theorem ext_lit {s t : Screen} (h : ∀ x y, s.lit x y = t.lit x y) : s = t := by
  ext k hk
  obtain ⟨x, y, hcell⟩ := exists_cell ⟨k, hk⟩
  have hlit := h x y
  simp only [lit, hcell] at hlit
  exact hlit

/-! ## Turning over what sprites cover -/

/-- The screen with the cells turned over that a sprite covers. -/
def flip (s : Screen) (p : Sprite) : Screen :=
  Vector.ofFn fun c : Fin 2048 => s.get c ^^ p.covers (c.val % 64 : Nat) (c.val / 64 : Nat)

/-- The screen after sprites, one after another. -/
def flipAll (s : Screen) (sprites : List Sprite) : Screen := sprites.foldl flip s

theorem lit_flip (s : Screen) (p : Sprite) (x y : Int) :
    (s.flip p).lit x y = (s.lit x y ^^ p.covers x y) := by
  have hplace : p.covers ((cell x y).val % 64 : Nat) ((cell x y).val / 64 : Nat) =
      p.covers x y := by
    refine p.covers_congr ?_ ?_
    · simp only [cell]
      omega
    · simp only [cell]
      omega
  rw [lit, flip, Fin.getElem_fin, Vector.getElem_ofFn, Fin.eta, hplace]
  rfl

/-- A cell meets the sprites that cover it. -/
theorem lit_flipAll (sprites : List Sprite) (s : Screen) (x y : Int) :
    (s.flipAll sprites).lit x y = (s.lit x y ^^ decide (sprites.countP (·.covers x y) % 2 = 1)) := by
  induction sprites generalizing s with
  | nil => simp [flipAll]
  | cons p sprites ih =>
    have hrest := ih (s.flip p)
    rw [lit_flip] at hrest
    rw [flipAll, List.foldl_cons, ← flipAll, hrest, List.countP_cons]
    cases p.covers x y with
    | true => rw [if_pos rfl, decide_odd_succ, Bool.xor_assoc, Bool.true_xor]
    | false => rw [if_neg Bool.false_ne_true, Bool.xor_false, Nat.add_zero]

theorem get_toggle (s : Screen) (c d : Fin 2048) :
    (s.toggle c).get d = if c = d then !s.get c else s.get d := by
  show (s.toggle c)[d] = if c = d then !s[c] else s[d]
  simp only [toggle, Fin.getElem_fin, Vector.getElem_set, Fin.ext_iff]

/-- Cells turned over one after another show whether the number of their turns is odd. -/
theorem lit_toggleAll (cells : List (Fin 2048)) (s : Screen) (x y : Int) :
    (s.toggleAll cells).1.lit x y = (s.lit x y ^^ decide (cells.count (cell x y) % 2 = 1)) := by
  induction cells generalizing s with
  | nil => simp [toggleAll]
  | cons c cells ih =>
    have htoggle : (s.toggle c).lit x y = if c = cell x y then !s.lit x y else s.lit x y := by
      refine (s.get_toggle c (cell x y)).trans ?_
      split
      · next hcell => rw [hcell]; rfl
      · rfl
    rw [toggleAll, ih, htoggle, List.count_cons]
    by_cases h : c = cell x y
    · rw [if_pos h, if_pos (by simpa using h), decide_odd_succ, Bool.not_xor, Bool.xor_not]
    · rw [if_neg h, if_neg (by simpa using h), Nat.add_zero]

/-- Of cells that are all different, one is lit when its turn comes if one is lit at first. -/
theorem toggleAll_met_iff {cells : List (Fin 2048)} (hcells : cells.Nodup) (s : Screen) :
    (s.toggleAll cells).2 = true ↔ ∃ c ∈ cells, s.get c = true := by
  induction cells generalizing s with
  | nil => simp [toggleAll]
  | cons c cells ih =>
    obtain ⟨hc, hrest⟩ := List.nodup_cons.mp hcells
    -- the cell just turned over does not come again
    have hkept : ∀ d ∈ cells, (s.toggle c).get d = s.get d := fun d hd => by
      rw [get_toggle, if_neg (ne_of_mem_of_not_mem hd hc).symm]
    rw [toggleAll, Bool.or_eq_true, ih hrest, List.exists_mem_cons_iff]
    refine or_congr_right (exists_congr fun d => and_congr_right fun hd => ?_)
    rw [hkept d hd]

end Screen

namespace Machine

/-- The sprite of a number of rows that begins at the index. -/
def spriteAt (m : Machine) (x y : Int) (rows : Nat) : Sprite where
  x := x
  y := y
  rows := (List.range rows).map fun row => m.memory.byte (m.index.toNat + row)

theorem mem_spriteColumns {bits : UInt8} {column : Nat} :
    column ∈ spriteColumns bits ↔ column < 8 ∧ bits.toNat.testBit (7 - column) = true := by
  simp [spriteColumns]

theorem covers_spriteAt (m : Machine) (x y : Int) (rows : Nat) (x' y' : Int) :
    (m.spriteAt x y rows).covers x' y' = true ↔
      (x' - x) % 64 < 8 ∧ (y' - y) % 32 < rows ∧
        (m.memory.byte (m.index.toNat + ((y' - y) % 32).toNat)).toNat.testBit
          (7 - ((x' - x) % 64).toNat) = true := by
  have hrow : ((y' - y) % 32).toNat < rows ↔ (y' - y) % 32 < rows := by omega
  simp only [Sprite.covers, spriteAt, Bool.and_eq_true, List.getElem?_map, ← hrow]
  refine and_congr decide_eq_true_iff ?_
  by_cases h : ((y' - y) % 32).toNat < rows
  · simp [h]
  · simp [h]

/-- A sprite is at a cell if it covers it. -/
theorem mem_spriteCells {m : Machine} {x y : Int} {rows : Nat} (hrows : rows ≤ 32) {x' y' : Int} :
    Screen.cell x' y' ∈ m.spriteCells x y rows ↔ (m.spriteAt x y rows).covers x' y' = true := by
  simp only [spriteCells, List.mem_flatMap, List.mem_range, List.mem_map, mem_spriteColumns,
    covers_spriteAt, Screen.cell_eq_iff]
  constructor
  · rintro ⟨row, hrow, column, ⟨hcolumn, hbit⟩, hx, hy⟩
    have hcolumn' : (x' - x) % 64 = column := by omega
    have hrow' : (y' - y) % 32 = row := by omega
    rw [hcolumn', hrow']
    exact ⟨by omega, by omega, hbit⟩
  · rintro ⟨hcolumn, hrow, hbit⟩
    exact ⟨((y' - y) % 32).toNat, by omega, ((x' - x) % 64).toNat, ⟨by omega, hbit⟩, by omega,
      by omega⟩

/-- A sprite meets no cell twice. -/
theorem nodup_spriteCells (m : Machine) (x y : Int) {rows : Nat} (hrows : rows ≤ 32) :
    (m.spriteCells x y rows).Nodup := by
  rw [spriteCells, List.nodup_flatMap]
  refine ⟨fun row _ => ?_, ?_⟩
  · refine (List.nodup_range.filter _).map_on fun column hcolumn column' hcolumn' hcell => ?_
    have hlow := (mem_spriteColumns.mp hcolumn).1
    have hlow' := (mem_spriteColumns.mp hcolumn').1
    rw [Screen.cell_eq_iff] at hcell
    omega
  · refine List.nodup_range.pairwise_of_forall_ne fun row hrow row' hrow' hne => ?_
    intro c hc hc'
    obtain ⟨column, -, rfl⟩ := List.mem_map.mp hc
    obtain ⟨column', -, hcell⟩ := List.mem_map.mp hc'
    rw [List.mem_range] at hrow hrow'
    rw [Screen.cell_eq_iff] at hcell
    omega

/-- The sprite that an instruction draws. -/
def sprite (m : Machine) (i : Instruction) : Sprite :=
  m.spriteAt (m.reg i.vx) (m.reg i.vy) i.n.toNat

/-- A sprite that an instruction draws is no higher than the screen. -/
theorem rows_le {i : Instruction} (hi : i.InRange) : i.n.toNat ≤ 32 := by
  have hn := hi.n
  omega

/-- What is drawn are the cells that the sprite covers. -/
theorem drawn_eq_flip (m : Machine) {i : Instruction} (hi : i.InRange) :
    (m.drawn i).1 = m.screen.flip (m.sprite i) := by
  have hrows := rows_le hi
  refine Screen.ext_lit fun x y => ?_
  rw [drawn, Screen.lit_toggleAll, Screen.lit_flip, (m.nodup_spriteCells _ _ hrows).count]
  by_cases hcovers : (m.sprite i).covers x y = true
  · rw [if_pos ((mem_spriteCells hrows).mpr hcovers), hcovers]
    rfl
  · rw [if_neg (mt (mem_spriteCells hrows).mp hcovers), Bool.eq_false_iff.mpr hcovers]
    rfl

/-- What is drawn meets a lit cell if the sprite covers one. -/
theorem drawn_met_iff (m : Machine) {i : Instruction} (hi : i.InRange) :
    (m.drawn i).2 = true ↔ ∃ x y, (m.sprite i).covers x y = true ∧ m.screen.lit x y = true := by
  have hrows := rows_le hi
  rw [drawn, Screen.toggleAll_met_iff (m.nodup_spriteCells _ _ hrows)]
  constructor
  · rintro ⟨c, hc, hlit⟩
    obtain ⟨x, y, rfl⟩ := Screen.exists_cell c
    exact ⟨x, y, (mem_spriteCells hrows).mp hc, hlit⟩
  · rintro ⟨x, y, hcovers, hlit⟩
    exact ⟨Screen.cell x y, (mem_spriteCells hrows).mpr hcovers, hlit⟩

end Machine

end Chip8
