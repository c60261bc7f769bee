import Chip8.Proofs.Machine.Digits
import Chip8.Proofs.Run.Block
import Chip8.Proofs.Run.Font

/-!
# Decimal digits in memory

A register goes to memory as its three decimal digits, one byte each, from the index on. What this
leaves is `Machine.SavesDigits` : the digits spell the register, and nothing but these three bytes
has changed. A load of at least three registers from there has the digits in the first three
(`Machine.SavesDigits.spell_of_recalls`).

The three bytes lie inside memory if the index is 4093 at most, and otherwise the instruction is
refused before any of them is written. A load behind it reads further than three bytes if it is for
more registers, so next to the end of memory it can be refused though the digits are there
(`Interpreter.digits_at_end_of_memory`). `Interpreter.digits_are_stored_and_loaded` has all of this
for every machine that operations lead to.
-/

namespace Chip8

open DecimalDigits (Spell)

namespace Instruction

/-- Store the digits of a register. -/
def storingDigits (x : Register) : Instruction := { op := .ldBcd, x := x.val }

theorem straight_storingDigits (x : Register) : (storingDigits x).op ∈ Opcode.straight := by
  show Opcode.ldBcd ∈ Opcode.straight
  decide

theorem vx_storingDigits (x : Register) : (storingDigits x).vx = x := by
  have hval := Register.val_ofField (x_of_register x)
  apply Fin.ext
  show (Register.ofField x.val).val = x.val
  omega

end Instruction

namespace Machine

variable {m : Machine} {x : Register}

/-- The digits of a register are in memory at the index, and nothing else has changed. Only the
program counter is left open. -/
structure SavesDigits (m : Machine) (x : Register) (next : Machine) : Prop where
  digits : Spell (next.memory.byte m.index.toNat).toNat
    (next.memory.byte (m.index.toNat + 1)).toNat (next.memory.byte (m.index.toNat + 2)).toNat
    (m.reg x)
  others : ∀ a, ¬ (m.index.toNat ≤ a ∧ a ≤ m.index.toNat + 2) →
    next.memory.byte a = m.memory.byte a
  frame : next = { m with memory := next.memory, pc := next.pc }

/-- What an instruction that stores digits leaves, if the register holds a byte and the digits lie
inside memory. -/
theorem savesDigits_effect (hbyte : 0 ≤ m.reg x ∧ m.reg x < 256) (hend : m.index.toNat ≤ 4093) :
    m.SavesDigits x (m.effect (.storingDigits x) 0) := by
  have hspell := spell_decimalDigits (m.reg x)
  obtain ⟨⟨h, t, o⟩, hdigits⟩ : ∃ d, decimalDigits (m.reg x) = d := ⟨_, rfl⟩
  have hnumber : m.reg x % 256 = m.reg x := Int.emod_eq_of_lt hbyte.1 hbyte.2
  rw [hdigits, hnumber] at hspell
  have hstored : m.stored (.storingDigits x) = [.ofNat h, .ofNat t, .ofNat o] := by
    let d := decimalDigits (m.reg (Instruction.storingDigits x).vx)
    have hd : d = (h, t, o) := by rw [← hdigits, ← Instruction.vx_storingDigits x]
    show [UInt8.ofNat d.1, .ofNat d.2.1, .ofNat d.2.2] = _
    rw [hd]
  have hwritten (a : Nat) : (m.effect (.storingDigits x) 0).memory.byte a =
      if m.index.toNat ≤ a ∧ a < m.index.toNat + 3 ∧ a < 4096 then
        [UInt8.ofNat h, .ofNat t, .ofNat o].getD (a - m.index.toNat) 0
      else m.memory.byte a := by
    show (m.memory.write _ (m.stored _)).byte a = _
    rw [hstored]
    exact Memory.byte_write _ _ _ _
  have hdigit {d : Nat} (hd : (0 : Int) ≤ d ∧ (d : Int) ≤ 9) : (UInt8.ofNat d).toNat = d := by
    rw [UInt8.toNat_ofNat']
    omega
  exact {
    digits := by
      rw [hwritten, hwritten, hwritten, if_pos (by omega), if_pos (by omega), if_pos (by omega),
        Nat.sub_self, Nat.add_sub_cancel_left, Nat.add_sub_cancel_left]
      show Spell (UInt8.ofNat h).toNat (UInt8.ofNat t).toNat (UInt8.ofNat o).toNat _
      rw [hdigit hspell.hundreds, hdigit hspell.tens, hdigit hspell.ones]
      exact hspell
    others := fun a ha => by rw [hwritten, if_neg (by omega)]
    frame := rfl }

/-- A load of at least three registers finds the digits. -/
theorem SavesDigits.spell_of_recalls {saved later loaded : Machine} (hsaves : m.SavesDigits x saved)
    (hmemory : later.memory = saved.memory) (hindex : later.index = saved.index) {last : Register}
    (hlast : 2 ≤ last) (hrecalls : later.Recalls last loaded) :
    Spell (loaded.reg 0) (loaded.reg 1) (loaded.reg 2) (m.reg x) := by
  have hplace : later.index = m.index := by rw [hindex, hsaves.frame]
  have hreg {r : Register} (hr : r ≤ 2) :
      loaded.reg r = (saved.memory.byte (m.index.toNat + r)).toNat := by
    rw [hrecalls.bytes r (Fin.le_trans hr hlast), hmemory, hplace]
  rw [hreg (by decide), hreg (by decide), hreg (by decide)]
  exact hsaves.digits

end Machine

namespace Interpreter

variable {ρ : Type} [ByteSource ρ] {it : Interpreter ρ} {x : Register}

theorem performs_storingDigits (h : it.machine.Bounded) (hend : it.machine.index ≤ 4093) :
    it.Performs (.storingDigits x) (it.machine.SavesDigits x) := by
  have hindex := h.index
  have hr : it.machine.refusal (.storingDigits x) = none :=
    Memory.fault?_eq_none_iff.mpr (by omega)
  refine performs_of_straight (Instruction.straight_storingDigits x) (Instruction.x_of_register x)
    (by simp [Instruction.storingDigits]) (fun hop => by contradiction) hr fun pc => ?_
  let here : Machine := { it.machine with pc }
  have hplace : here.index.toNat ≤ 4093 := by
    show it.machine.index.toNat ≤ 4093
    omega
  have hsaves : here.SavesDigits x _ := Machine.savesDigits_effect (h.reg x) hplace
  exact ⟨hsaves.digits, hsaves.others, hsaves.frame⟩

theorem refuses_storingDigits (h : it.machine.Bounded) (hend : 4093 < it.machine.index) :
    it.Refuses (.storingDigits x) (.memory (max it.machine.index 4096) "BCD write") := by
  refine refuses_of_straight (Instruction.straight_storingDigits x) (Instruction.x_of_register x)
    (by simp [Instruction.storingDigits]) (fun hop => by contradiction) ?_
  show Memory.fault? it.machine.index 3 "BCD write" = _
  exact Memory.fault?_of_end h.index.1 (by omega)

/-- Any integer has the three digits of its low byte. Whatever operations lead to a machine, the
digits of a register are stored at the index as a whole if they lie inside memory, and refused with
nothing changed if they do not. A load of at least three registers has them in the first three, if
all that it loads lies inside memory. -/
theorem digits_are_stored_and_loaded (source : ρ) (ops : List Operation) (x : Register) :
    let it := (play Operation.on ops (powerOn source)).2
    let m := it.machine
    (∀ v : Int, ∃ h t o, decimalDigits v = (h, t, o) ∧ Spell h t o (v % 256)) ∧
    (m.index ≤ 4093 →
      it.Performs (.storingDigits x) (m.SavesDigits x) ∧
      ∀ saved, m.SavesDigits x saved → ∀ later : Interpreter ρ,
        later.machine.memory = saved.memory → later.machine.index = saved.index →
        ∀ last : Register, 2 ≤ last → m.index + last.val ≤ 4095 →
          later.Performs (.loading last) fun loaded =>
            Spell (loaded.reg 0) (loaded.reg 1) (loaded.reg 2) (m.reg x)) ∧
    (4093 < m.index →
      it.Refuses (.storingDigits x) (.memory (max m.index 4096) "BCD write")) := by
  intro it m
  have h : m.Bounded := bounded_play source ops
  have hindex := h.index
  refine ⟨fun v => ⟨_, _, _, rfl, spell_decimalDigits v⟩, fun hend => ?_,
    fun hend => refuses_storingDigits h hend⟩
  refine ⟨performs_storingDigits h hend, ?_⟩
  intro saved hsaves later hmemory hsame last hlast hfits
  have hat : later.machine.index = (m.index.toNat : Nat) := by
    rw [hsame, hsaves.frame]
    show m.index = _
    omega
  refine (performs_loading hat (by omega)).imp fun loaded hrecalls => ?_
  exact hsaves.spell_of_recalls hmemory hsame hlast hrecalls

/-- A program that is about to store the digits of 123 in the last three bytes of memory, and then to
load four registers from there. -/
def atLastPlace : Interpreter CyclicTape :=
  (play Operation.on [.load [0x65, 0x7B, 0xAF, 0xFD, 0xF5, 0x33, 0xF3, 0x65], .cycle, .cycle]
    (powerOn (CyclicTape.ofList []))).2

theorem atLastPlace_eq :
    let value : Instruction := { op := .ldImm, x := 5, nn := 123 }
    let point : Instruction := { op := .ldI, nnn := 4093 }
    atLastPlace = ((left ((Operation.load [0x65, 0x7B, 0xAF, 0xFD, 0xF5, 0x33, 0xF3, 0x65]).on.run
      (powerOn (CyclicTape.ofList [])))).advance.executed value).advance.executed point := by
  intro value point
  let loaded := left ((Operation.load [0x65, 0x7B, 0xAF, 0xFD, 0xF5, 0x33, 0xF3, 0x65]).on.run
    (powerOn (CyclicTape.ofList [])))
  have hbytes : loaded.machine.HoldsBytes := Operation.holdsBytes _ .powerOn
  have hvalue : left (Operation.cycle.on.run loaded) = loaded.advance.executed value :=
    left_cycle_of_fetch (i := value) hbytes (by decide +kernel) rfl
  have hpoint : left (Operation.cycle.on.run (loaded.advance.executed value)) =
      (loaded.advance.executed value).advance.executed point :=
    left_cycle_of_fetch (i := point) (hvalue ▸ Operation.holdsBytes _ hbytes) (by decide +kernel)
      rfl
  show left (Operation.cycle.on.run (left (Operation.cycle.on.run loaded))) = _
  rw [hvalue, hpoint]

theorem index_atLastPlace : atLastPlace.machine.index = 4093 := by
  rw [atLastPlace_eq]
  decide +kernel

theorem reg_atLastPlace : atLastPlace.machine.reg 5 = 123 := by
  rw [atLastPlace_eq]
  decide +kernel

/-- The digits are stored in the last three bytes of memory and loaded from there. -/
theorem digits_of_last_place :
    ∃ saved, atLastPlace.execute (.storingDigits 5) =
        .ok ⟨.running, { atLastPlace with machine := saved }, []⟩ ∧
      ∃ loaded, ({ atLastPlace with machine := saved } : Interpreter _).execute (.loading 2) =
          .ok ⟨.running, { atLastPlace with machine := loaded }, []⟩ ∧
        Spell (loaded.reg 0) (loaded.reg 1) (loaded.reg 2) 123 := by
  obtain ⟨-, hfits, -⟩ := digits_are_stored_and_loaded (CyclicTape.ofList [])
    [.load [0x65, 0x7B, 0xAF, 0xFD, 0xF5, 0x33, 0xF3, 0x65], .cycle, .cycle] 5
  have hindex := index_atLastPlace
  obtain ⟨hstore, hload⟩ := hfits (Int.le_of_eq hindex)
  obtain ⟨saved, hexecute, hsaves, -⟩ := hstore.alone
  have hend : atLastPlace.machine.index + ((2 : Register).val : Int) ≤ 4095 := by
    rw [hindex]
    decide
  obtain ⟨loaded, hloaded, hspell, -⟩ :=
    (hload saved hsaves { atLastPlace with machine := saved } rfl rfl 2 (Fin.le_refl 2) hend).alone
  rw [← reg_atLastPlace]
  exact ⟨saved, hexecute, loaded, hloaded, hspell⟩

/-- A load of four registers behind the same digits would go on behind memory. It is refused, and
the first three registers do not have the digits. -/
theorem digits_at_end_of_memory :
    atLastPlace.machine.index ≤ 4093 ∧ atLastPlace.decode = .ok (.storingDigits 5) ∧
      ∃ done, atLastPlace.cycle = .ok done ∧ done.next.decode = .ok (.loading 3) ∧
        Operation.cycle.on.run done.next =
          .error (.fault (.memory 4096 "register load")) done.next ∧
        ¬ Spell (done.next.machine.reg 0) (done.next.machine.reg 1) (done.next.machine.reg 2)
          (atLastPlace.machine.reg 5) := by
  have hindex := index_atLastPlace
  have hstore : atLastPlace.decode = .ok (.storingDigits 5) := by
    refine decode_of_fetch ?_
      (Instruction.decode_encode_of_register rfl (Instruction.x_of_register 5))
    rw [atLastPlace_eq]
    decide +kernel
  have h : atLastPlace.machine.HoldsBytes := (bounded_play _ _).toHoldsBytes
  obtain ⟨done, hc, hnext⟩ := cycle_of_decode h hstore (by rw [atLastPlace_eq]; decide +kernel)
  have hload : done.next.decode = .ok (.loading 3) := by
    refine decode_of_fetch ?_
      (Instruction.decode_encode_of_register rfl (Instruction.x_of_register 3))
    rw [hnext, atLastPlace_eq]
    decide +kernel
  have hplace : done.next.machine.index = (4093 : Nat) := by rw [hnext]; exact hindex
  have hzero : done.next.machine.reg 0 = 0 ∧ done.next.machine.reg 1 = 0 ∧
      done.next.machine.reg 2 = 0 := by
    rw [hnext, atLastPlace_eq]
    decide +kernel
  refine ⟨Int.le_of_eq hindex, hstore, done, hc, hload,
    (refuses_loading hplace (by decide)).cycle hload, fun hspell => ?_⟩
  have hnumber := hspell.number
  rw [hzero.1, hzero.2.1, hzero.2.2, reg_atLastPlace] at hnumber
  contradiction

end Interpreter

end Chip8
