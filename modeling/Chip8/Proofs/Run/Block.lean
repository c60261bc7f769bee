import Chip8.Proofs.Bare.Histories
import Chip8.Proofs.Isa.Words
import Chip8.Proofs.Run.Straight

/-!
# Blocks of registers in memory

The first registers, up to one that the instruction names, go to memory at the index or come back
from there. What a store leaves is `Machine.Saves`, what a load leaves `Machine.Recalls`, and both
leave the index, since nothing but memory or the registers changes.

A load of no more registers finds in memory what the store has put there, whatever was done to the
registers since (`Machine.Saves.reg_of_recalls`). A store behind a load puts back the bytes that
were there (`Machine.Recalls.memory_of_saves`). A block that does not lie inside memory is refused
before any of it is moved. `Interpreter.blocks_are_restored` says all of this of every machine that
operations lead to, wherever its index points : the block may lie over the font, over the program
and over the instruction itself.
-/

namespace Chip8

namespace Instruction

/-- Store the registers up to one. -/
def storing (last : Register) : Instruction := { op := .storeRegs, x := last.val }

/-- Load the registers up to one. -/
def loading (last : Register) : Instruction := { op := .loadRegs, x := last.val }

theorem x_of_register (last : Register) : 0 ≤ (last.val : Int) ∧ (last.val : Int) < 16 := by omega

theorem straight_storing (last : Register) : (storing last).op ∈ Opcode.straight := by
  show Opcode.storeRegs ∈ Opcode.straight
  decide

theorem straight_loading (last : Register) : (loading last).op ∈ Opcode.straight := by
  show Opcode.loadRegs ∈ Opcode.straight
  decide

theorem decode_storing (last : Register) : decode (storing last).encode = .ok (storing last) :=
  decode_encode_of_register rfl (x_of_register last)

end Instruction

namespace Memory

/-- A memory is known by its bytes. -/
theorem eq_of_byte {m m' : Memory} (h : ∀ a, m.byte a = m'.byte a) : m = m' := by
  apply Vector.ext
  intro a ha
  have hbyte := h a
  simp only [byte, Vector.getElem?_eq_getElem ha, Option.getD_some] at hbyte
  exact hbyte

end Memory

namespace Machine

/-- A byte keeps a number that is one. -/
theorem toNat_ofInt_of_byte {v : Int} (h : 0 ≤ v ∧ v < 256) :
    ((UInt8.ofInt v).toNat : Int) = v := by
  rw [UInt8.ofInt, UInt8.toNat_ofNat']
  omega

variable {m : Machine} {last : Register}

/-- The registers up to one are in memory at the index, and nothing else has changed. Only the
program counter is left open. -/
structure Saves (m : Machine) (last : Register) (next : Machine) : Prop where
  bytes : ∀ r ≤ last, ((next.memory.byte (m.index.toNat + r)).toNat : Int) = m.reg r
  others : ∀ a, ¬ (m.index.toNat ≤ a ∧ a ≤ m.index.toNat + last) →
    next.memory.byte a = m.memory.byte a
  frame : next = { m with memory := next.memory, pc := next.pc }

/-- The registers up to one are the bytes in memory at the index, and nothing else has changed. Only
the program counter is left open. -/
structure Recalls (m : Machine) (last : Register) (next : Machine) : Prop where
  bytes : ∀ r ≤ last, next.reg r = (m.memory.byte (m.index.toNat + r)).toNat
  others : ∀ r, last < r → next.reg r = m.reg r
  frame : next = { m with registers := next.registers, pc := next.pc }

theorem length_stored_storing (m : Machine) (last : Register) :
    (m.stored (.storing last)).length = last + 1 := by
  simp only [stored, Instruction.storing, registersUpTo, List.length_map, List.length_take,
    Vector.length_toList]
  omega

theorem getD_stored_storing (m : Machine) {r : Register} (hr : r ≤ last) :
    (m.stored (.storing last)).getD r 0 = UInt8.ofInt (m.reg r) := by
  have hr' : r.val ≤ last.val := hr
  have hlt : r.val < last.val + 1 := by omega
  simp [stored, Instruction.storing, registersUpTo, reg, hlt]

/-- What an instruction that stores registers leaves, if they hold bytes and the block lies inside
memory. -/
theorem saves_effect (hbytes : ∀ r, 0 ≤ m.reg r ∧ m.reg r < 256)
    (hend : m.index.toNat + last ≤ 4095) : m.Saves last (m.effect (.storing last) 0) where
  bytes r hr := by
    have hr' : r.val ≤ last.val := hr
    have hin : m.index.toNat ≤ m.index.toNat + r ∧
        m.index.toNat + r < m.index.toNat + (m.stored (.storing last)).length ∧
        m.index.toNat + r < Memory.size := by
      rw [length_stored_storing, Memory.size]
      omega
    show (((m.memory.write _ _).byte _).toNat : Int) = _
    rw [Memory.byte_write, if_pos hin, Nat.add_sub_cancel_left, m.getD_stored_storing hr,
      toNat_ofInt_of_byte (hbytes r)]
  others a ha := by
    show (m.memory.write _ _).byte a = _
    rw [Memory.byte_write, length_stored_storing, if_neg]
    omega
  frame := rfl

/-- What an instruction that loads registers leaves. -/
theorem recalls_effect (m : Machine) (last : Register) :
    m.Recalls last (m.effect (.loading last) 0) := by
  have hreg (r : Register) : (m.effect (.loading last) 0).reg r =
      if (r.val : Int) ≤ last.val then ((m.memory.byte (m.index.toNat + r)).toNat : Int)
      else m.reg r := by
    show (Vector.ofFn _)[r] = _
    rw [Fin.getElem_fin, Vector.getElem_ofFn]
    rfl
  exact {
    bytes := fun r hr => by
      have hr' : r.val ≤ last.val := hr
      rw [hreg, if_pos (by omega)]
    others := fun r hr => by
      have hr' : last.val < r.val := hr
      rw [hreg, if_neg (by omega)]
    frame := by
      simp only [effect, stored, nextIndex, nextStack, nextScreen, Instruction.loading]
      rfl }

/-- A load finds what a store of no fewer registers has put there. -/
theorem Saves.reg_of_recalls {saved later loaded : Machine} (hsaves : m.Saves last saved)
    (hmemory : later.memory = saved.memory) (hindex : later.index = m.index) {last' : Register}
    (hlast : last' ≤ last) (hrecalls : later.Recalls last' loaded) :
    ∀ r ≤ last', loaded.reg r = m.reg r := by
  intro r hr
  rw [hrecalls.bytes r hr, hmemory, hindex, hsaves.bytes r (Fin.le_trans hr hlast)]

/-- A store behind a load of the same registers puts back what was there. -/
theorem Recalls.memory_of_saves {loaded saved : Machine} (hrecalls : m.Recalls last loaded)
    (hsaves : loaded.Saves last saved) : saved.memory = m.memory := by
  have hmemory : loaded.memory = m.memory := by rw [hrecalls.frame]
  have hindex : loaded.index = m.index := by rw [hrecalls.frame]
  apply Memory.eq_of_byte
  intro a
  by_cases hin : m.index.toNat ≤ a ∧ a ≤ m.index.toNat + last
  · -- the byte of a register that was loaded
    have hlt : a - m.index.toNat < 16 := by omega
    let r : Register := ⟨a - m.index.toNat, hlt⟩
    have hr : r ≤ last := by
      show a - m.index.toNat ≤ last.val
      omega
    have hplace : m.index.toNat + r.val = a := by
      show m.index.toNat + (a - m.index.toNat) = a
      omega
    have hbyte := hsaves.bytes r hr
    rw [hrecalls.bytes r hr, hindex, hplace] at hbyte
    exact UInt8.toNat_inj.mp (by omega)
  · rw [hsaves.others a (by rw [hindex]; exact hin), hmemory]

/-- Registers that were loaded over bytes hold bytes. -/
theorem Recalls.holdsBytes {loaded : Machine} (h : m.HoldsBytes)
    (hrecalls : m.Recalls last loaded) : loaded.HoldsBytes where
  reg r := by
    by_cases hr : r ≤ last
    · rw [hrecalls.bytes r hr]
      exact toNat_byte _
    · rw [hrecalls.others r (Fin.not_le.mp hr)]
      exact h.reg r
  delay := by
    rw [hrecalls.frame]
    exact h.delay
  sound := by
    rw [hrecalls.frame]
    exact h.sound

end Machine

namespace Interpreter

variable {ρ : Type} [ByteSource ρ] {it : Interpreter ρ} {a : Nat} {last : Register}

omit [ByteSource ρ] in
theorem decode_index (it : Interpreter ρ) (index : Int) :
    ({ it with machine := { it.machine with index } } : Interpreter ρ).decode = it.decode := rfl

theorem performs_storing (h : it.machine.HoldsBytes) (hindex : it.machine.index = a)
    (hend : a + last.val ≤ 4095) : it.Performs (.storing last) (it.machine.Saves last) := by
  have hr : it.machine.refusal (.storing last) = none :=
    Memory.fault?_eq_none_iff.mpr (by simp only [Instruction.storing]; omega)
  refine performs_of_straight (Instruction.straight_storing last) (Instruction.x_of_register last)
    (by simp [Instruction.storing]) (fun _ => h) hr fun pc => ?_
  let here : Machine := { it.machine with pc }
  have hend' : here.index.toNat + last.val ≤ 4095 := by
    show it.machine.index.toNat + last.val ≤ 4095
    omega
  have hsaves : here.Saves last _ := Machine.saves_effect h.reg hend'
  exact ⟨hsaves.bytes, hsaves.others, hsaves.frame⟩

theorem performs_loading (hindex : it.machine.index = a) (hend : a + last.val ≤ 4095) :
    it.Performs (.loading last) (it.machine.Recalls last) := by
  have hr : it.machine.refusal (.loading last) = none :=
    Memory.fault?_eq_none_iff.mpr (by simp only [Instruction.loading]; omega)
  refine performs_of_straight (Instruction.straight_loading last) (Instruction.x_of_register last)
    (by simp [Instruction.loading]) (fun hop => by contradiction) hr fun pc => ?_
  have hrecalls := Machine.recalls_effect { it.machine with pc } last
  exact ⟨hrecalls.bytes, hrecalls.others, hrecalls.frame⟩

theorem refuses_storing (h : it.machine.HoldsBytes) (hindex : it.machine.index = a)
    (hend : 4095 < a + last.val) :
    it.Refuses (.storing last) (.memory (max a 4096) "register store") := by
  refine refuses_of_straight (Instruction.straight_storing last) (Instruction.x_of_register last)
    (by simp [Instruction.storing]) (fun _ => h) ?_
  show Memory.fault? it.machine.index (last.val + 1) "register store" = _
  rw [hindex]
  exact Memory.fault?_of_end (by omega) (by omega)

theorem refuses_loading (hindex : it.machine.index = a) (hend : 4095 < a + last.val) :
    it.Refuses (.loading last) (.memory (max a 4096) "register load") := by
  refine refuses_of_straight (Instruction.straight_loading last) (Instruction.x_of_register last)
    (by simp [Instruction.loading]) (fun hop => by contradiction) ?_
  show Memory.fault? it.machine.index (last.val + 1) "register load" = _
  rw [hindex]
  exact Memory.fault?_of_end (by omega) (by omega)

/-- Whatever operations lead to a machine and wherever its index points, a block of registers is
stored or loaded as a whole if it lies inside memory, and refused with nothing changed if it does
not. A load of no more registers than were stored at the same place gives them back, and a store
behind a load of the same registers leaves memory as it was. On the bare machine, where nothing
keeps the lengths of the rows, every call does the same. -/
theorem blocks_are_restored (source : ρ) (ops : List Operation) (a : Nat) (last : Register) :
    let it := (play Operation.on ops (powerOn source)).2
    let here : Interpreter ρ := { it with machine := { it.machine with index := a } }
    let m := here.machine
    (a + last.val ≤ 4095 →
      here.Performs (.storing last) (m.Saves last) ∧
      here.Performs (.loading last) (m.Recalls last) ∧
      (∀ saved, m.Saves last saved → ∀ later : Interpreter ρ,
        later.machine.memory = saved.memory → later.machine.index = saved.index →
        ∀ last' ≤ last, later.Performs (.loading last') fun loaded =>
          later.machine.Recalls last' loaded ∧ ∀ r ≤ last', loaded.reg r = m.reg r) ∧
      ∀ loaded, m.Recalls last loaded → ∀ later : Interpreter ρ, later.machine = loaded →
        later.Performs (.storing last) fun saved =>
          loaded.Saves last saved ∧ saved.memory = m.memory) ∧
    (4095 < a + last.val →
      here.Refuses (.storing last) (.memory (max a 4096) "register store") ∧
      here.Refuses (.loading last) (.memory (max a 4096) "register load")) ∧
    ∀ c : Call, (Bare.perform Bare.wrap c).run here.bare = along bare (c.on.run here) := by
  intro it here m
  have hit : it.machine.HoldsBytes := (bounded_play source ops).toHoldsBytes
  have h : here.machine.HoldsBytes := ⟨hit.reg, hit.delay, hit.sound⟩
  have hindex : here.machine.index = a := rfl
  refine ⟨fun hend => ⟨performs_storing h hindex hend, performs_loading hindex hend, ?_, ?_⟩,
    fun hend => ⟨refuses_storing h hindex hend, refuses_loading hindex hend⟩,
    fun c => Bare.run_perform h c⟩
  · intro saved hsaves later hmemory hsame last' hlast
    have hat : later.machine.index = a := by rw [hsame, hsaves.frame]
    have hle : last'.val ≤ last.val := hlast
    refine (performs_loading hat (by omega)).imp fun loaded hrecalls => ⟨hrecalls, ?_⟩
    exact hsaves.reg_of_recalls hmemory hat hlast hrecalls
  · rintro loaded hrecalls later rfl
    have hat : later.machine.index = a := by rw [hrecalls.frame]
    refine (performs_storing (hrecalls.holdsBytes h) hat hend).imp fun saved hsaves => ?_
    exact ⟨hsaves, hrecalls.memory_of_saves hsaves⟩

/-- A store at its own word, which is gone with it, and one that would go on behind memory. -/
theorem restored_over_own_word :
    let it := (play Operation.on [.load [0xF1, 0x55]] (powerOn (CyclicTape.ofList []))).2
    let atWord : Interpreter _ := { it with machine := { it.machine with index := 0x200 } }
    let behind : Interpreter _ := { it with machine := { it.machine with index := 4095 } }
    (∃ done, atWord.cycle = .ok done ∧ done.next.machine.pc = 0x202 ∧
      (done.next.machine.memory.byte 0x200).toNat = 0) ∧
      Operation.cycle.on.run behind = .error (.fault (.memory 4096 "register store")) behind := by
  intro it atWord behind
  have hfetch : it.machine.fetch = .ok (Instruction.storing 1).encode := by decide +kernel
  have hword : it.decode = .ok (.storing 1) :=
    decode_of_fetch hfetch (Instruction.decode_storing 1)
  have hd (index : Int) := (it.decode_index index).trans hword
  obtain ⟨hinside, -⟩ := blocks_are_restored (CyclicTape.ofList []) [.load [0xF1, 0x55]] 0x200 1
  obtain ⟨-, hbehind, -⟩ := blocks_are_restored (CyclicTape.ofList []) [.load [0xF1, 0x55]] 4095 1
  obtain ⟨next, log, hc, hsaves, hpc⟩ := (hinside (by decide)).1.cycle (hd _)
  have hat : atWord.machine.pc = 0x200 := by decide +kernel
  have hzero : atWord.machine.reg 0 = 0 := by decide +kernel
  have hbyte := hsaves.bytes 0 (by decide)
  refine ⟨⟨_, hc, hpc.trans (by rw [hat]; rfl), ?_⟩, (hbehind (by decide)).1.cycle (hd _)⟩
  have hplace : ((next.memory.byte 0x200).toNat : Int) = atWord.machine.reg 0 := hbyte
  show (next.memory.byte 0x200).toNat = 0
  omega

end Interpreter

end Chip8
