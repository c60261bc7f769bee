import Chip8.Proofs.Machine.Effect

/-!
# Bounds that instructions keep

Registers and timers hold bytes after an instruction if they did before
(`Machine.HoldsBytes.effect`), whatever the program counter. If an instruction was fetched from
memory, the machine stays within narrower bounds (`Machine.Bounded.effect`) : the farthest jump
goes to `0x0FFF` plus the largest byte, and a return address lies behind a word of memory, so no
address comes near the 65536 at which the machine would begin again at zero.
-/

namespace Chip8

namespace Bits

theorem and_byte {a b : Int} (ha : 0 ≤ a ∧ a < 256) (hb : 0 ≤ b ∧ b < 256) :
    0 ≤ and a b ∧ and a b < 256 := by
  obtain ⟨m, rfl⟩ := Int.eq_ofNat_of_zero_le ha.1
  obtain ⟨n, rfl⟩ := Int.eq_ofNat_of_zero_le hb.1
  have := Nat.and_lt_two_pow (n := 8) m (y := n) (by omega)
  rw [and_natCast]
  omega

theorem or_byte {a b : Int} (ha : 0 ≤ a ∧ a < 256) (hb : 0 ≤ b ∧ b < 256) :
    0 ≤ or a b ∧ or a b < 256 := by
  obtain ⟨m, rfl⟩ := Int.eq_ofNat_of_zero_le ha.1
  obtain ⟨n, rfl⟩ := Int.eq_ofNat_of_zero_le hb.1
  have := Nat.or_lt_two_pow (n := 8) (x := m) (y := n) (by omega) (by omega)
  rw [or_natCast]
  omega

theorem xor_byte {a b : Int} (ha : 0 ≤ a ∧ a < 256) (hb : 0 ≤ b ∧ b < 256) :
    0 ≤ xor a b ∧ xor a b < 256 := by
  obtain ⟨m, rfl⟩ := Int.eq_ofNat_of_zero_le ha.1
  obtain ⟨n, rfl⟩ := Int.eq_ofNat_of_zero_le hb.1
  have := Nat.xor_lt_two_pow (n := 8) (x := m) (y := n) (by omega) (by omega)
  rw [xor_natCast]
  omega

end Bits

namespace Machine

theorem lowByte_byte (v : Int) : 0 ≤ lowByte v ∧ lowByte v < 256 := by
  unfold lowByte
  omega

theorem toNat_byte (b : UInt8) : 0 ≤ (b.toNat : Int) ∧ (b.toNat : Int) < 256 := by
  have := b.toNat_lt
  omega

namespace HoldsBytes

variable {m : Machine} (h : m.HoldsBytes)

include h

theorem put (r : Register) {v : Int} (hv : 0 ≤ v ∧ v < 256) : (m.put r v).HoldsBytes where
  reg s := by
    rw [reg_put]
    split
    · exact hv
    · exact h.reg s
  delay := h.delay
  sound := h.sound

theorem putFlag (flag : Option Bool) : (m.putFlag flag).HoldsBytes := by
  cases flag with
  | none => exact h
  | some flag => exact h.put _ (by cases flag <;> simp)

theorem result? {i : Instruction} (hi : i.InRange) (random : UInt8) :
    ∀ v ∈ m.result? i random, 0 ≤ v ∧ v < 256 := by
  have hx := h.reg i.vx
  have hy := h.reg i.vy
  intro v hv
  unfold Machine.result? at hv
  cases hop : i.op <;> simp only [hop, Option.mem_def, reduceCtorEq, Option.some_inj,
    Option.map_eq_some_iff] at hv
  case ldImm => exact hv ▸ hi.nn
  case addImm | addReg | subReg | subnReg | shl => exact hv ▸ lowByte_byte _
  case ldReg => exact hv ▸ hy
  case or => exact hv ▸ Bits.or_byte hx hy
  case and => exact hv ▸ Bits.and_byte hx hy
  case xor => exact hv ▸ Bits.xor_byte hx hy
  case shr => omega
  case rnd => exact hv ▸ toNat_byte _
  case ldKey =>
    obtain ⟨key, -, rfl⟩ := hv
    omega
  case ldVxDt => exact hv ▸ h.delay

theorem reg_effect {i : Instruction} (hi : i.InRange) (random : UInt8) (r : Register) :
    0 ≤ (m.effect i random).reg r ∧ (m.effect i random).reg r < 256 := by
  unfold Machine.reg Machine.effect Machine.nextRegisters
  split
  · rw [Fin.getElem_fin, Vector.getElem_ofFn]
    split
    · exact toNat_byte _
    · exact h.reg r
  · have hput : ((m.result? i random).elim m (m.put i.vx)).HoldsBytes := by
      cases hv : m.result? i random with
      | none => exact h
      | some v => exact h.put _ (h.result? hi random v hv)
    exact (hput.putFlag _).reg r

/-- An instruction leaves bytes where there were bytes. -/
theorem effect {i : Instruction} (hi : i.InRange) (random : UInt8) :
    (m.effect i random).HoldsBytes where
  reg := h.reg_effect hi random
  delay := by
    dsimp only [Machine.effect]
    split
    · exact h.reg _
    · exact h.delay
  sound := by
    dsimp only [Machine.effect]
    split
    · exact h.reg _
    · exact h.sound

theorem tickTimers : m.tickTimers.HoldsBytes where
  reg := h.reg
  delay := by
    have := h.delay
    dsimp only [Machine.tickTimers]
    split <;> omega
  sound := by
    have := h.sound
    dsimp only [Machine.tickTimers]
    split <;> omega

end HoldsBytes

/-- The bounds of a machine that runs programs from memory. -/
structure Bounded (m : Machine) : Prop extends m.HoldsBytes where
  pc : 0 ≤ m.pc ∧ m.pc ≤ 4350
  index : 0 ≤ m.index ∧ m.index ≤ 65535
  live : ∀ a ∈ m.stack.live, 2 ≤ a.toNat ∧ a.toNat ≤ 4096
  tick : 0 ≤ m.tick
  pending : m.pending.Pairwise fun a b => a.tick ≤ b.tick

namespace Bounded

variable {m : Machine} (h : m.Bounded)

include h

/-- The program counter is past a word of memory. -/
theorem nextPc (hpc : 2 ≤ m.pc ∧ m.pc ≤ 4096) {i : Instruction} (hi : i.InRange) :
    0 ≤ m.nextPc i ∧ m.nextPc i ≤ 4350 := by
  have hnnn := hi.nnn
  have hbase := h.reg .base
  unfold Machine.nextPc wordSize
  split
  · cases hp : m.stack.pop? with
    | none => simp; omega
    | some p =>
      obtain ⟨a, rest⟩ := p
      have hlive := CallStack.live_of_pop? hp
      have := h.live a (hlive ▸ by simp)
      simp
      omega
  all_goals omega

theorem nextIndex {i : Instruction} (hi : i.InRange) :
    0 ≤ m.nextIndex i ∧ m.nextIndex i ≤ 65535 := by
  have hnnn := hi.nnn
  have hx := h.reg i.vx
  have hindex := h.index
  unfold Machine.nextIndex Memory.glyphSize
  split <;> omega

theorem nextStack (hpc : 2 ≤ m.pc ∧ m.pc ≤ 4096) (i : Instruction) :
    ∀ a ∈ (m.nextStack i).live, 2 ≤ a.toNat ∧ a.toNat ≤ 4096 := by
  unfold Machine.nextStack
  split
  · cases hp : m.stack.pop? with
    | none => exact h.live
    | some p =>
      obtain ⟨a, rest⟩ := p
      have hlive := CallStack.live_of_pop? hp
      exact fun a ha => h.live a (hlive ▸ List.mem_append_left _ ha)
  · cases hp : m.stack.push? m.pc with
    | none => exact h.live
    | some stack =>
      intro a ha
      rw [Option.getD_some, CallStack.live_of_push? hp, List.mem_append, List.mem_singleton] at ha
      rcases ha with ha | rfl
      · exact h.live a ha
      · have := CallStack.toNat_address m.pc
        omega
  · exact h.live

/-- A fetched instruction keeps the machine in bounds. -/
theorem effect (hpc : 2 ≤ m.pc ∧ m.pc ≤ 4096) {i : Instruction} (hi : i.InRange)
    (random : UInt8) : (m.effect i random).Bounded where
  toHoldsBytes := h.toHoldsBytes.effect hi random
  pc := h.nextPc hpc hi
  index := h.nextIndex hi
  live := h.nextStack hpc i
  tick := h.tick
  pending := h.pending

end Bounded

end Machine

end Chip8
