import Chip8.Proofs.Run.Collision
import Chip8.Proofs.Run.Straight

/-!
# Reading a sprite

A sprite is read from memory, one byte for each row, from the index on (`Machine.ReadsRow`). The
check before it looks at the two ends of these addresses alone. As long as there is a row, this is
enough : the check refuses the sprite if one of its rows lies outside memory, and only then
(`Memory.fault?_ne_none_iff`).

A sprite without rows reads nothing, but the check goes by the address that it begins at and
refuses it if that lies behind the end of memory (`Memory.fault?_zero_ne_none_iff`). Anywhere else
it is drawn, which clears the flag and does nothing more (`Machine.effect_of_no_rows`).
`Interpreter.sprites_fault_by_their_ends` says so of every machine that operations lead to.
-/

namespace Chip8

namespace Memory

variable {address length : Int} {purpose : String}

/-- An access of one byte or more is refused if one of its bytes lies outside memory. -/
theorem fault?_ne_none_iff (h : 0 < length) : fault? address length purpose ≠ none ↔
    ∃ a, (address ≤ a ∧ a < address + length) ∧ ¬ (0 ≤ a ∧ a ≤ 4095) := by
  rw [Ne, fault?_eq_none_iff]
  constructor
  · intro hends
    by_cases hlow : 0 ≤ address
    · -- the last byte lies behind the end
      exact ⟨address + length - 1, by omega, by omega⟩
    · exact ⟨address, by omega, by omega⟩
  · rintro ⟨a, hin, hout⟩ hends
    omega

/-- An access of no byte is refused by the address that it begins at. -/
theorem fault?_zero_ne_none_iff (h : 0 ≤ address) :
    fault? address 0 purpose ≠ none ↔ 4096 < address := by
  rw [Ne, fault?_eq_none_iff]
  omega

end Memory

namespace Machine

variable (m : Machine) {i : Instruction}

/-- The addresses that the rows of a sprite are read from. -/
def ReadsRow (i : Instruction) (a : Int) : Prop := m.index ≤ a ∧ a < m.index + i.n

/-- A sprite without rows meets no cell, so it clears the flag and changes nothing else. -/
theorem effect_of_no_rows (hop : i.op = .drw) (hn : i.n = 0) (random : UInt8) :
    m.effect i random = m.put .flag 0 := by
  have hdrawn : m.drawn i = (m.screen, false) := by
    rw [drawn, hn]
    rfl
  have hpc : m.nextPc i = m.pc := m.nextPc_of_straight (by rw [hop]; decide)
  simp only [effect, hpc, nextRegisters, nextIndex, nextStack, nextScreen, stored, result?, flag?,
    hop, hdrawn]
  rfl

end Machine

namespace Interpreter

variable {ρ : Type} [ByteSource ρ] {it : Interpreter ρ} {i : Instruction}

/-- A cycle at an instruction that draws ends in the fault of the check, if there is one. -/
theorem cycle_eq_fault_iff_of_drw (h : it.machine.HoldsBytes) (hd : it.decode = .ok i)
    (hop : i.op = .drw) {f : Fault} : it.cycle = .error (.fault f) ↔
      Memory.fault? it.machine.index i.n "sprite read" = some f := by
  have hr : it.advance.machine.refusal i = Memory.fault? it.machine.index i.n "sprite read" := by
    rw [Machine.refusal, hop]
    rfl
  rw [cycle_eq_fault_iff h, hd, ← hr]
  simp

/-- It ends in a memory fault if the check refuses the sprite. -/
theorem memory_fault_iff_of_drw (h : it.machine.HoldsBytes) (hd : it.decode = .ok i)
    (hop : i.op = .drw) :
    (∃ address purpose, it.cycle = .error (.fault (.memory address purpose))) ↔
      Memory.fault? it.machine.index i.n "sprite read" ≠ none := by
  simp only [cycle_eq_fault_iff_of_drw h hd hop]
  constructor
  · rintro ⟨address, purpose, hfault⟩
    rw [hfault]
    exact Option.some_ne_none _
  · intro hne
    obtain ⟨f, hfault⟩ := Option.ne_none_iff_exists'.mp hne
    obtain ⟨address, rfl⟩ := Memory.exists_of_fault? hfault
    exact ⟨address, _, hfault⟩

/-- The fault has the end of memory, or the index if that lies further on. -/
theorem fault_of_drw (h : it.machine.Bounded) (hd : it.decode = .ok i) (hop : i.op = .drw)
    {f : Fault} (hc : it.cycle = .error (.fault f)) :
    f = .memory (max it.machine.index 4096) "sprite read" := by
  have hf := (cycle_eq_fault_iff_of_drw h.toHoldsBytes hd hop).mp hc
  have hout : 4096 < it.machine.index + i.n := by
    by_contra hin
    rw [Memory.fault?_eq_none_iff.mpr ⟨h.index.1, by omega⟩] at hf
    contradiction
  rw [Memory.fault?_of_end h.index.1 hout] at hf
  exact (Option.some.inj hf).symm

/-- Up to the end of memory, a sprite without rows is drawn and clears the flag. -/
theorem performs_of_no_rows (h : it.machine.Bounded) (hi : i.InRange) (hop : i.op = .drw)
    (hn : i.n = 0) (hend : it.machine.index ≤ 4096) : it.Performs i fun next =>
      next = ({ it.machine with pc := next.pc } : Machine).put .flag 0 := by
  have hr := it.machine.refusal_of_drw hop h.index.1 (by omega)
  refine performs_of_straight (by rw [hop]; decide) hi.x hi.y (fun _ => h.toHoldsBytes) hr
    fun pc => ?_
  rw [Machine.effect_of_no_rows _ hop hn]
  rfl

/-- Whatever operations lead to a machine that is about to draw : a sprite with rows ends in a
memory fault if one of them lies outside memory, and only then. A sprite without rows reads nothing,
and ends in a memory fault if the index lies behind the end of memory. There is no other way for the
cycle to fail, and it leaves the machine as it was. A sprite without rows that does not fail clears
the flag and moves the program counter on, and that is all. -/
theorem sprites_fault_by_their_ends (source : ρ) (ops : List Operation) {i : Instruction}
    (hd : (play Operation.on ops (powerOn source)).2.decode = .ok i) (hop : i.op = .drw) :
    let it := (play Operation.on ops (powerOn source)).2
    let m := it.machine
    let faults := ∃ address purpose, it.cycle = .error (.fault (.memory address purpose))
    (0 < i.n → (faults ↔ ∃ a, m.ReadsRow i a ∧ ¬ (0 ≤ a ∧ a ≤ 4095))) ∧
    (i.n = 0 → (faults ↔ 4096 < m.index)) ∧
    (∀ e left, Operation.cycle.on.run it = .error e left →
      e = .fault (.memory (max m.index 4096) "sprite read") ∧ left = it) ∧
    (i.n = 0 → m.index ≤ 4096 → ∃ log, it.cycle =
      .ok ⟨.running, { it with machine := ({ m with pc := m.pc + 2 } : Machine).put .flag 0 },
        log⟩) := by
  intro it m faults
  have h : m.Bounded := bounded_play source ops
  have hfaults : faults ↔ Memory.fault? m.index i.n "sprite read" ≠ none :=
    memory_fault_iff_of_drw h.toHoldsBytes hd hop
  refine ⟨fun hrows => ?_, fun hn => ?_, fun e left herror => ?_, fun hn hend => ?_⟩
  · rw [hfaults]
    exact Memory.fault?_ne_none_iff hrows
  · rw [hfaults, hn]
    exact Memory.fault?_zero_ne_none_iff h.index.1
  · obtain rfl := Operation.left_of_error h.toHoldsBytes herror
    simp only [Operation.on, EStateM.run] at herror
    cases hc : it.cycle with
    | ok done => simp [hc, finish] at herror
    | error halt =>
      obtain ⟨f, rfl⟩ := cycle_eq_error h.toHoldsBytes hc
      rw [hc, fault_of_drw h hd hop hc] at herror
      exact ⟨(EStateM.Result.error.inj herror).1.symm, rfl⟩
  · obtain ⟨next, log, hc, hnext, hpc⟩ :=
      (performs_of_no_rows h (inRange_of_decode hd) hop hn hend).cycle hd
    rw [hpc] at hnext
    exact ⟨log, hnext ▸ hc⟩

/-- The second of two rows lies behind the end of memory. -/
theorem fault_of_second_row :
    let it := (play Operation.on [.load [0xAF, 0xFF, 0xD0, 0x02], .cycle]
      (powerOn (CyclicTape.ofList []))).2
    let i : Instruction := { op := .drw, n := 2 }
    it.decode = .ok i ∧ it.machine.index = 4095 ∧
      ∃ address purpose, it.cycle = .error (.fault (.memory address purpose)) := by
  intro it i
  let point : Instruction := { op := .ldI, nnn := 4095 }
  let loaded := left
    ((Operation.load [0xAF, 0xFF, 0xD0, 0x02]).on.run (powerOn (CyclicTape.ofList [])))
  have hloaded : loaded.machine.HoldsBytes := Operation.holdsBytes _ .powerOn
  have hpoint : it = loaded.advance.executed point := by
    show left (Operation.cycle.on.run loaded) = _
    exact left_cycle_of_fetch (i := point) hloaded (by decide +kernel) rfl
  have hd : it.decode = .ok i :=
    decode_of_fetch (by rw [hpoint]; decide +kernel) i.decode_encode
  have hindex : it.machine.index = 4095 := by
    rw [hpoint]
    decide +kernel
  refine ⟨hd, hindex, ?_⟩
  obtain ⟨hrows, -⟩ := sprites_fault_by_their_ends (CyclicTape.ofList [])
    [.load [0xAF, 0xFF, 0xD0, 0x02], .cycle] hd rfl
  have hread : it.machine.ReadsRow i 4096 := by
    rw [Machine.ReadsRow, hindex]
    decide
  exact (hrows (by decide)).mpr ⟨4096, hread, by decide⟩

/-- A program that moves the index behind memory and draws a sprite without rows there. Nothing is
read outside memory, and the cycle ends in a memory fault. -/
theorem fault_of_no_rows :
    let it := (play Operation.on
      [.load [0xAF, 0xFF, 0x60, 0x02, 0xF0, 0x1E, 0xD0, 0x00], .cycle, .cycle, .cycle]
      (powerOn (CyclicTape.ofList []))).2
    let i : Instruction := { op := .drw }
    it.decode = .ok i ∧ (¬ ∃ a, it.machine.ReadsRow i a ∧ ¬ (0 ≤ a ∧ a ≤ 4095)) ∧
      Operation.cycle.on.run it = .error (.fault (.memory 4097 "sprite read")) it := by
  intro it i
  let point : Instruction := { op := .ldI, nnn := 4095 }
  let value : Instruction := { op := .ldImm, nn := 2 }
  let move : Instruction := { op := .addI }
  let loaded := left ((Operation.load [0xAF, 0xFF, 0x60, 0x02, 0xF0, 0x1E, 0xD0, 0x00]).on.run
    (powerOn (CyclicTape.ofList [])))
  let pointed := loaded.advance.executed point
  let valued := pointed.advance.executed value
  let moved := valued.advance.executed move
  have hloaded : loaded.machine.HoldsBytes := Operation.holdsBytes _ .powerOn
  have hpoint : left (Operation.cycle.on.run loaded) = pointed :=
    left_cycle_of_fetch (i := point) hloaded (by decide +kernel) rfl
  have hpointed : pointed.machine.HoldsBytes := hpoint ▸ Operation.holdsBytes _ hloaded
  have hvalue : left (Operation.cycle.on.run pointed) = valued :=
    left_cycle_of_fetch (i := value) hpointed (by decide +kernel) rfl
  have hvalued : valued.machine.HoldsBytes := hvalue ▸ Operation.holdsBytes _ hpointed
  have hmove : left (Operation.cycle.on.run valued) = moved :=
    left_cycle_of_fetch (i := move) hvalued (by decide +kernel) rfl
  have hmoved : moved.machine.HoldsBytes := hmove ▸ Operation.holdsBytes _ hvalued
  have hit : it = moved := by
    show left (Operation.cycle.on.run (left (Operation.cycle.on.run
      (left (Operation.cycle.on.run loaded))))) = _
    rw [hpoint, hvalue, hmove]
  rw [hit]
  have hd : moved.decode = .ok i := decode_of_fetch (by decide +kernel) i.decode_encode
  refine ⟨hd, ?_, ?_⟩
  · rintro ⟨a, ⟨hlow, hhigh⟩, -⟩
    have hnone : a < moved.machine.index := by
      rw [← Int.add_zero moved.machine.index]
      exact hhigh
    omega
  · have hfault : moved.cycle = .error (.fault (.memory 4097 "sprite read")) :=
      (cycle_eq_fault_iff_of_drw hmoved hd rfl).mpr (by decide +kernel)
    simp only [Operation.on, EStateM.run, hfault]
    rfl

end Interpreter

end Chip8
