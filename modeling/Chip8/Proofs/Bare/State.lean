import Mathlib.Tactic.Simps.Basic
import Chip8.Proofs.Bare.Row
import Chip8.Proofs.Run.Cycle

/-!
# The bare machine

The state of a bare machine is nothing but integers and rows, with the source of the random bytes
and the count of the beeps (`Bare.State`). Nothing in its type keeps a row at its length, a
register at a byte or the depth of the call stack at the number of its cells. That they are kept
there is a matter of the programs that change the state (`Bare.State.Bounded`).

A machine is a bare state (`Bare.State.of`), and one within bounds is a bare state within bounds
(`Bare.State.bounded_of`).
-/

namespace Chip8

namespace Bare

/-- A key event, its key a plain number. -/
structure Event where
  tick : Int
  key : Int
  pressed : Bool

/-- The state of a bare machine. -/
structure State (ρ : Type) where
  memory : List UInt8
  pc : Int
  registers : List Int
  index : Int
  stack : List Int
  depth : Int
  keys : List Bool
  delay : Int
  sound : Int
  screen : List Bool
  tick : Int
  pending : List Event
  source : ρ
  beeps : Nat

variable {ρ : Type}

/-- An event with the number of its key. -/
def Event.of (e : KeyEvent) : Event := ⟨e.tick, e.key.val, e.pressed⟩

namespace State

/-- The rows and numbers of a machine. -/
@[simps]
def of (m : Machine) (source : ρ) (beeps : Nat) : State ρ where
  memory := m.memory.toList
  pc := m.pc
  registers := m.registers.toList
  index := m.index
  stack := (m.stack.slots.map fun a => (a.toNat : Int)).toList
  depth := m.stack.depth.val
  keys := m.keys.toList
  delay := m.delay
  sound := m.sound
  screen := m.screen.toList
  tick := m.tick
  pending := m.pending.map .of
  source
  beeps

/-- Every field as it is when the machine is switched on, the font at the bottom of memory. -/
def powerOn (source : ρ) (beeps : Nat) : State ρ where
  memory := Row.splice (List.replicate 4096 0) 0 Memory.font.length Memory.font
  pc := 0x200
  registers := List.replicate 16 0
  index := 0
  stack := List.replicate 16 0
  depth := 0
  keys := List.replicate 16 false
  delay := 0
  sound := 0
  screen := List.replicate (64 * 32) false
  tick := 0
  pending := []
  source
  beeps

theorem of_powerOn (source : ρ) (beeps : Nat) :
    of .powerOn source beeps = powerOn source beeps := by
  have hmemory : Row.splice (List.replicate 4096 0) 0 Memory.font.length Memory.font =
      (Memory.write (Vector.replicate 4096 0) 0 Memory.font).toList :=
    Row.splice_memory (Vector.replicate 4096 0) _ (by decide) (by decide) (by decide)
  have hstack : (CallStack.empty.slots.map fun a => (a.toNat : Int)).toList =
      List.replicate 16 0 := by simp [CallStack.empty]
  simp only [of, powerOn, Machine.powerOn, Memory.powerOn, hstack, hmemory]
  rfl

/-! ## Bounds -/

/-- What holds of a bare machine in use : the lengths of its rows and the bounds of its numbers. -/
structure Bounded (s : State ρ) : Prop where
  memory : s.memory.length = 4096
  registers : s.registers.length = 16
  bytes : ∀ v ∈ s.registers, 0 ≤ v ∧ v ≤ 255
  stack : s.stack.length = 16
  depth : 0 ≤ s.depth ∧ s.depth ≤ 16
  live : ∀ a ∈ s.stack.take s.depth.toNat, 2 ≤ a ∧ a ≤ 4096
  keys : s.keys.length = 16
  screen : s.screen.length = 2048
  pc : 0 ≤ s.pc ∧ s.pc ≤ 4350
  index : 0 ≤ s.index ∧ s.index ≤ 65535
  delay : 0 ≤ s.delay ∧ s.delay ≤ 255
  sound : 0 ≤ s.sound ∧ s.sound ≤ 255
  tick : 0 ≤ s.tick
  sorted : s.pending.Pairwise fun a b => a.tick ≤ b.tick
  pending : ∀ e ∈ s.pending, 0 ≤ e.key ∧ e.key ≤ 15

/-- A machine within bounds is a bare machine within bounds. -/
theorem bounded_of {m : Machine} (h : m.Bounded) (source : ρ) (beeps : Nat) :
    (of m source beeps).Bounded where
  memory := m.memory.length_toList
  registers := m.registers.length_toList
  bytes v hv := by
    have := h.mem hv
    omega
  stack := by simp [of]
  depth := by
    have := m.stack.depth.isLt
    simp only [of]
    omega
  live a ha := by
    simp only [of, Int.toNat_natCast, Vector.toList_map, ← List.map_take, List.mem_map] at ha
    obtain ⟨address, haddress, rfl⟩ := ha
    have := h.live address haddress
    omega
  keys := m.keys.length_toList
  screen := m.screen.length_toList
  pc := h.pc
  index := h.index
  delay := by
    have := h.delay
    simp only [of]
    omega
  sound := by
    have := h.sound
    simp only [of]
    omega
  tick := h.tick
  sorted := List.pairwise_map.mpr h.pending
  pending e he := by
    obtain ⟨event, -, rfl⟩ := List.mem_map.mp he
    have := event.key.isLt
    simp only [Event.of]
    omega

end State

end Bare

/-- The bare state of an interpreter. -/
def Interpreter.bare {ρ : Type} (it : Interpreter ρ) : Bare.State ρ :=
  .of it.machine it.source it.beeps

end Chip8
