import Chip8.Machine.Memory

/-!
# Rows of cells

A row is a list whose cells are read and written by index. An index may be any integer, a negative
one is counted from the end, and one that names no cell is answered with nothing (`Row.read?`,
`Row.write?`). A slice is pulled into the row instead, and putting other cells in its place can
change the length of the row (`Row.slice`, `Row.splice`).

A vector is a row that keeps its length. Reads and writes within its bounds are those of the
vector (`Row.read?_toList`, `Row.write?_toList`), and so are slices of memory (`Row.slice_memory`,
`Row.splice_memory`).
-/

namespace Chip8

namespace Row

variable {α : Type} {n : Nat}

/-- The place that an index names in a row of a given length. -/
def place? (length : Nat) (i : Int) : Option Nat :=
  if 0 ≤ i ∧ i < length then some i.toNat
  else if -length ≤ i ∧ i < 0 then some (i + length).toNat
  else none

/-- The cell that an index names. -/
def read? (xs : List α) (i : Int) : Option α := (place? xs.length i).bind fun k => xs[k]?

/-- The row with another value in the cell that an index names. -/
def write? (xs : List α) (i : Int) (x : α) : Option (List α) :=
  (place? xs.length i).map fun k => xs.set k x

/-- Where the bound of a slice lies, pulled into a row of a given length. -/
def bound (length : Nat) (i : Int) : Nat :=
  min length (if i < 0 then i + length else i).toNat

/-- The cells from one index up to another. -/
def slice (xs : List α) (a b : Int) : List α :=
  (xs.take (bound xs.length b)).drop (bound xs.length a)

/-- The row with other cells in the place of those from one index up to another. -/
def splice (xs : List α) (a b : Int) (ys : List α) : List α :=
  xs.take (bound xs.length a) ++ ys ++
    xs.drop (max (bound xs.length a) (bound xs.length b))

theorem place?_natCast {k : Nat} (h : k < n) : place? n k = some k := by
  have hk : 0 ≤ (k : Int) ∧ (k : Int) < n := by omega
  rw [place?, if_pos hk, Int.toNat_natCast]

theorem bound_natCast {k : Nat} (h : k ≤ n) : bound n k = k := by
  have hk : ¬ (k : Int) < 0 := by omega
  rw [bound, if_neg hk, Int.toNat_natCast]
  exact Nat.min_eq_right h

theorem bound_zero : bound n 0 = 0 := bound_natCast n.zero_le

/-! ## Vectors -/

theorem read?_toList (v : Vector α n) {i : Int} {k : Fin n} (h : i = k.val) :
    read? v.toList i = some v[k] := by
  rw [read?, h, Vector.length_toList, place?_natCast k.isLt, Option.bind_some,
    List.getElem?_eq_getElem (by simp), Vector.getElem_toList]
  rfl

theorem write?_toList (v : Vector α n) {i : Int} {k : Fin n} (h : i = k.val) (x : α) :
    write? v.toList i x = some (v.set k x).toList := by
  rw [write?, h, Vector.length_toList, place?_natCast k.isLt, Option.map_some, Vector.toList_set]

theorem slice_zero (xs : List α) {k : Nat} (h : k ≤ xs.length) : slice xs 0 k = xs.take k := by
  rw [slice, bound_natCast h, bound_zero, List.drop_zero]

theorem splice_zero (xs : List α) {k : Nat} (h : k ≤ xs.length) (ys : List α) :
    splice xs 0 k ys = ys ++ xs.drop k := by
  rw [splice, bound_natCast h, bound_zero, List.take_zero, List.nil_append, Nat.zero_max]

/-! ## Memory -/

theorem getElem_eq_byte (m : Memory) {k : Nat} (h : k < 4096) : m[k] = m.byte k := by
  simp [Memory.byte, h]

theorem read?_memory (m : Memory) {i : Int} (h : 0 ≤ i ∧ i < 4096) :
    read? m.toList i = some (m.byte i.toNat) := by
  have hi : i = (⟨i.toNat, by omega⟩ : Fin 4096).val := (Int.toNat_of_nonneg h.1).symm
  rw [read?_toList m hi, Fin.getElem_fin, getElem_eq_byte m]

/-- A slice of memory is its bytes. -/
theorem slice_memory (m : Memory) {a b : Int} {k : Nat} (ha : 0 ≤ a) (hk : b = a + k)
    (hb : b ≤ 4096) : slice m.toList a b = (List.range k).map fun j => m.byte (a.toNat + j) := by
  obtain ⟨a, rfl⟩ := Int.eq_ofNat_of_zero_le ha
  have hb' : bound 4096 b = a + k := by
    rw [hk, ← Int.natCast_add]
    exact bound_natCast (by omega)
  rw [slice, Vector.length_toList, hb', bound_natCast (by omega), Int.toNat_natCast]
  refine List.ext_getElem (by simp; omega) fun j h₁ h₂ => ?_
  have hj : j < k := by simpa using h₂
  simp [getElem_eq_byte m (show a + j < 4096 by omega)]

/-- Bytes spliced into memory are written there. -/
theorem splice_memory (m : Memory) (bytes : List UInt8) {a b : Int} (ha : 0 ≤ a)
    (hlength : b = a + bytes.length) (hb : b ≤ 4096) :
    splice m.toList a b bytes = (m.write a.toNat bytes).toList := by
  obtain ⟨a, rfl⟩ := Int.eq_ofNat_of_zero_le ha
  have hb' : bound 4096 b = a + bytes.length := by
    rw [hlength, ← Int.natCast_add]
    exact bound_natCast (by omega)
  have htake : (m.toList.take a).length = a := by simp; omega
  have hleft : (m.toList.take a ++ bytes).length = a + bytes.length := by simp; omega
  rw [splice, Vector.length_toList, hb', bound_natCast (by omega), Int.toNat_natCast]
  refine List.ext_getElem (by simp; omega) fun j h₁ h₂ => ?_
  have hj : j < 4096 := by simpa using h₂
  rw [Vector.getElem_toList, getElem_eq_byte _ hj, Memory.byte_write, ← getElem_eq_byte m hj]
  rcases Nat.lt_or_ge j a with hlow | hlow
  · have hout : ¬ (a ≤ j ∧ j < a + bytes.length ∧ j < Memory.size) := by omega
    rw [if_neg hout, List.getElem_append_left (by omega), List.getElem_append_left (by omega)]
    simp
  rcases Nat.lt_or_ge j (a + bytes.length) with hhigh | hhigh
  · have hin : a ≤ j ∧ j < a + bytes.length ∧ j < Memory.size := ⟨hlow, hhigh, hj⟩
    have hget : j - a < bytes.length := by omega
    rw [if_pos hin, List.getElem_append_left (by omega), List.getElem_append_right (by omega)]
    simp [htake, hget]
  · have hout : ¬ (a ≤ j ∧ j < a + bytes.length ∧ j < Memory.size) := by omega
    have hidx : a + bytes.length + (j - (a + bytes.length)) = j := by omega
    rw [if_neg hout, List.getElem_append_right (by omega)]
    simp [hleft, hidx]

end Row

end Chip8
