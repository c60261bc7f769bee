import Chip8.Fault

/-!
# Memory

4096 bytes, with the sixteen glyphs of the font at the bottom (`Memory.powerOn`) and programs
above `Memory.programStart`. `Memory.check` is the one range test of the machine : an access is
allowed if its first address is not negative and its last lies below 4096. A refused one names
the lowest address outside memory that the access starts at or runs into.
-/

namespace Chip8

/-- The bytes of the memory. -/
abbrev Memory := Vector UInt8 4096

namespace Memory

/-- The number of bytes. -/
def size : Nat := 4096

/-- Where a program is loaded and starts. -/
def programStart : Nat := 0x200

/-- The bytes left for a program. -/
def capacity : Nat := size - programStart

/-- The rows of a glyph. -/
def glyphSize : Nat := 5

/-- The glyphs of the sixteen hexadecimal digits, five rows each. -/
def font : List UInt8 :=
  [0xF0, 0x90, 0x90, 0x90, 0xF0,
    0x20, 0x60, 0x20, 0x20, 0x70,
    0xF0, 0x10, 0xF0, 0x80, 0xF0,
    0xF0, 0x10, 0xF0, 0x10, 0xF0,
    0x90, 0x90, 0xF0, 0x10, 0x10,
    0xF0, 0x80, 0xF0, 0x10, 0xF0,
    0xF0, 0x80, 0xF0, 0x90, 0xF0,
    0xF0, 0x10, 0x20, 0x40, 0x40,
    0xF0, 0x90, 0xF0, 0x90, 0xF0,
    0xF0, 0x90, 0xF0, 0x10, 0xF0,
    0xF0, 0x90, 0xF0, 0x90, 0x90,
    0xE0, 0x90, 0xE0, 0x90, 0xE0,
    0xF0, 0x80, 0x80, 0x80, 0xF0,
    0xE0, 0x90, 0x90, 0x90, 0xE0,
    0xF0, 0x80, 0xF0, 0x80, 0xF0,
    0xF0, 0x80, 0xF0, 0x80, 0x80]

/-- The byte at an address, zero outside memory. -/
def byte (m : Memory) (a : Nat) : UInt8 := m[a]?.getD 0

/-- The memory with bytes written from an address upwards. What would fall outside is left out. -/
def write (m : Memory) (a : Nat) : List UInt8 → Memory
  | [] => m
  | b :: bs => write (m.setIfInBounds a b) (a + 1) bs

theorem byte_setIfInBounds (m : Memory) (a k : Nat) (b : UInt8) :
    byte (m.setIfInBounds a b) k = if a = k ∧ k < size then b else m.byte k := by
  by_cases hk : k < 4096 <;> by_cases ha : a = k <;> simp [byte, size, hk, ha]

/-- A write changes the bytes from its address on, as far as memory goes, and no other. -/
theorem byte_write (m : Memory) (bytes : List UInt8) (a k : Nat) :
    (m.write a bytes).byte k =
      if a ≤ k ∧ k < a + bytes.length ∧ k < size then bytes.getD (k - a) 0 else m.byte k := by
  induction bytes generalizing m a with
  | nil =>
    have : ¬ (a ≤ k ∧ k < a) := by omega
    simp [write, ← and_assoc, this]
  | cons b bs ih =>
    rw [write, ih, byte_setIfInBounds]
    by_cases h : a = k
    · subst h
      have : ¬ a + 1 ≤ a := by omega
      simp [this]
    · have hlen : a + 1 + bs.length = a + (bs.length + 1) := by omega
      by_cases hk : a + 1 ≤ k
      · have hsub : k - a = (k - (a + 1)) + 1 := by omega
        have : a ≤ k := by omega
        simp [h, hk, hlen, hsub, this]
      · have : ¬ a ≤ k := by omega
        simp [h, hk, this]

/-- Zeros, with the font at the bottom. -/
def powerOn : Memory := write (Vector.replicate 4096 0) 0 font

/-- Refuse an access of `length` bytes that does not lie inside memory. -/
def check (address length : Int) (purpose : String) : Except Fault Unit :=
  if address < 0 then .error (.memory address purpose)
  else if address + length > size then .error (.memory (max address size) purpose)
  else .ok ()

end Memory

end Chip8
