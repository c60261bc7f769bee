import Chip8.Proofs.Run.Font

/-!
# What a cycle leaves as it was

An instruction writes to a few parts of the machine, and its operands say where : the addresses that
it stores at (`Instruction.StoresAt`) and the registers that it sets (`Instruction.Sets`).
Everything else is the frame, and the effect of an instruction leaves it as it was
(`Machine.Frame`, `Machine.frame_effect`).

A cycle has the frame of the instruction that it completes, and takes no random byte but for a
random number. One that still waits for a key changes nothing at all
(`Interpreter.cycle_of_stalled`). `Interpreter.cycles_keep_the_frame` says so of every machine that
operations lead to.
-/

namespace Chip8

namespace Opcode

/-- The operations that put a result into their first register. -/
def assigning : List Opcode :=
  [ldImm, addImm, ldReg, or, and, xor, addReg, subReg, subnReg, shr, shl, rnd, ldKey, ldVxDt]

/-- The operations that set the flag. -/
def flagging : List Opcode := [addReg, subReg, subnReg, shr, shl, drw]

end Opcode

namespace Instruction

/-- The addresses that an instruction stores at, from the index on : those of three decimal digits,
or of the registers up to its operand. -/
def StoresAt (i : Instruction) (index a : Int) : Prop :=
  (i.op = .ldBcd ∧ index ≤ a ∧ a ≤ index + 2) ∨
    (i.op = .storeRegs ∧ index ≤ a ∧ a ≤ index + i.x)

/-- The registers that an instruction sets : its first one, those up to it, or the flag. -/
def Sets (i : Instruction) (r : Register) : Prop :=
  (i.op ∈ Opcode.assigning ∧ (r.val : Int) = i.x) ∨
    (i.op = .loadRegs ∧ (r.val : Int) ≤ i.x) ∨
    (i.op ∈ Opcode.flagging ∧ r = .flag)

end Instruction

/-- A machine has in common with the one before an instruction what the instruction does not write.
Only the program counter is left open. -/
structure Machine.Frame (i : Instruction) (m next : Machine) : Prop where
  memory : ∀ a : Nat, ¬ i.StoresAt m.index a → next.memory.byte a = m.memory.byte a
  registers : ∀ r, ¬ i.Sets r → next.reg r = m.reg r
  index : i.op ∉ [.ldI, .addI, .ldFont] → next.index = m.index
  depth : i.op ∉ [.call, .ret] → next.stack.depth = m.stack.depth
  /-- A call fills the first free slot, and a return empties none. -/
  slots : ∀ k : Fin 16, ¬ (i.op = .call ∧ k.val = m.stack.depth.val) →
    next.stack.slots[k] = m.stack.slots[k]
  delay : i.op ≠ .ldDt → next.delay = m.delay
  sound : i.op ≠ .ldSt → next.sound = m.sound
  screen : i.op ∉ [.cls, .drw] → next.screen = m.screen
  keys : next.keys = m.keys
  tick : next.tick = m.tick
  pending : next.pending = m.pending

namespace CallStack

/-- A push leaves every slot but the first free one. -/
theorem slots_of_push? {s t : CallStack} {address : Int} (h : s.push? address = some t) {k : Fin 16}
    (hk : k.val ≠ s.depth.val) : t.slots[k] = s.slots[k] := by
  unfold push? at h
  split at h
  · next hd =>
    obtain rfl := Option.some.inj h
    exact Vector.getElem_set_ne hd k.isLt (Ne.symm hk)
  · contradiction

/-- A pop leaves every slot. -/
theorem slots_of_pop? {s t : CallStack} {address : UInt16} (h : s.pop? = some (address, t)) :
    t.slots = s.slots := by
  unfold pop? at h
  split at h
  · contradiction
  · obtain ⟨-, rfl⟩ := Prod.mk.inj (Option.some.inj h)
    rfl

end CallStack

namespace Machine

variable (m : Machine) {i : Instruction} (random : UInt8)

/-! ## The parts of a frame -/

theorem storesAt_of_covers (hindex : 0 ≤ m.index) {a : Nat}
    (h : Completed.Covers ⟨m, i⟩ a) : i.StoresAt m.index a := by
  obtain ⟨hfrom, hto⟩ := h
  dsimp only [Completed.width] at hfrom hto
  split at hto
  · next hop => exact Or.inl ⟨hop, by omega, by omega⟩
  · next hop => exact Or.inr ⟨hop, by omega, by omega⟩
  · omega

theorem byte_effect_of_not_storesAt (hindex : 0 ≤ m.index) {a : Nat}
    (h : ¬ i.StoresAt m.index a) :
    (m.effect i random).memory.byte a = m.memory.byte a := by
  have hcovers : ¬ Completed.Covers ⟨m, i⟩ a := mt (m.storesAt_of_covers hindex) h
  have hlength := Completed.length_stored_le ⟨m, i⟩
  show (m.memory.write m.index.toNat (m.stored i)).byte a = _
  rw [Memory.byte_write, if_neg]
  rintro ⟨hfrom, hto, -⟩
  exact hcovers ⟨hfrom, Nat.lt_of_lt_of_le hto (Nat.add_le_add_left hlength _)⟩

theorem result?_eq_none (h : i.op ∉ Opcode.assigning) : m.result? i random = none := by
  unfold result?
  cases hop : i.op <;> simp [hop, Opcode.assigning] at h ⊢

theorem flag?_eq_none (h : i.op ∉ Opcode.flagging) : m.flag? i = none := by
  unfold flag?
  cases hop : i.op <;> simp [hop, Opcode.flagging] at h ⊢

/-- An instruction that sets no register leaves the registers. -/
theorem reg_effect_of_not_sets (hi : i.InRange) {r : Register} (h : ¬ i.Sets r) :
    (m.effect i random).reg r = m.reg r := by
  obtain ⟨hresult, hload, hflag⟩ : ¬ (i.op ∈ Opcode.assigning ∧ (r.val : Int) = i.x) ∧
      ¬ (i.op = .loadRegs ∧ (r.val : Int) ≤ i.x) ∧ ¬ (i.op ∈ Opcode.flagging ∧ r = .flag) := by
    simpa only [Instruction.Sets, not_or] using h
  have hput : ((m.result? i random).elim m (m.put i.vx)).reg r = m.reg r := by
    cases hv : m.result? i random with
    | none => rfl
    | some v =>
      have hop : i.op ∈ Opcode.assigning := by
        by_contra hop
        rw [m.result?_eq_none random hop] at hv
        contradiction
      have hx := Register.val_ofField hi.x
      have hr : i.vx ≠ r := by
        rintro rfl
        exact hresult ⟨hop, hx⟩
      exact (reg_put _ _ _ _).trans (if_neg hr)
  have hputFlag : (((m.result? i random).elim m (m.put i.vx)).putFlag (m.flag? i)).reg r =
      m.reg r := by
    cases hv : m.flag? i with
    | none => exact hput
    | some flag =>
      have hop : i.op ∈ Opcode.flagging := by
        by_contra hop
        rw [m.flag?_eq_none hop] at hv
        contradiction
      have hr : Register.flag ≠ r := fun hr => hflag ⟨hop, hr.symm⟩
      exact ((reg_put _ _ _ _).trans (if_neg hr)).trans hput
  show (m.nextRegisters i random)[r] = m.reg r
  unfold nextRegisters
  split
  · next hop =>
    have hr : ¬ (r.val : Int) ≤ i.x := fun hr => hload ⟨hop, hr⟩
    rw [Fin.getElem_fin, Vector.getElem_ofFn, if_neg hr]
  · exact hputFlag

theorem nextIndex_of_not_mem (h : i.op ∉ [Opcode.ldI, .addI, .ldFont]) :
    m.nextIndex i = m.index := by
  unfold nextIndex
  cases hop : i.op <;> simp [hop] at h ⊢

theorem nextScreen_of_not_mem (h : i.op ∉ [Opcode.cls, .drw]) : m.nextScreen i = m.screen := by
  unfold nextScreen
  cases hop : i.op <;> simp [hop] at h ⊢

theorem nextStack_of_not_mem (h : i.op ∉ [Opcode.call, .ret]) : m.nextStack i = m.stack := by
  unfold nextStack
  cases hop : i.op <;> simp [hop] at h ⊢

theorem slots_nextStack {k : Fin 16} (h : ¬ (i.op = .call ∧ k.val = m.stack.depth.val)) :
    (m.nextStack i).slots[k] = m.stack.slots[k] := by
  unfold nextStack
  split
  · cases hp : m.stack.pop? with
    | none => rfl
    | some p =>
      obtain ⟨address, rest⟩ := p
      exact congrArg (·[k]) (CallStack.slots_of_pop? hp)
  · next hop =>
    cases hp : m.stack.push? m.pc with
    | none => rfl
    | some stack => exact CallStack.slots_of_push? hp fun hk => h ⟨hop, hk⟩
  · rfl

/-- The effect of an instruction leaves its frame. -/
theorem frame_effect (hindex : 0 ≤ m.index) (hi : i.InRange) :
    m.Frame i (m.effect i random) where
  memory _ h := m.byte_effect_of_not_storesAt random hindex h
  registers _ h := m.reg_effect_of_not_sets random hi h
  index h := m.nextIndex_of_not_mem h
  depth h := congrArg CallStack.depth (m.nextStack_of_not_mem h)
  slots _ h := m.slots_nextStack h
  delay h := if_neg h
  sound h := if_neg h
  screen h := m.nextScreen_of_not_mem h
  keys := rfl
  tick := rfl
  pending := rfl

/-- An instruction that waits for a key goes back to where it is, and that is all. -/
theorem effect_of_stalls (h : m.stalls i = true) :
    m.effect i random = { m with pc := m.pc - wordSize } := by
  obtain ⟨hop, hkey⟩ : i.op = .ldKey ∧ m.keys.lowest? = none := by
    simpa [stalls] using h
  simp only [effect, stored, nextPc, nextRegisters, result?, flag?, nextIndex, nextStack,
    nextScreen, hop, hkey]
  rfl

end Machine

namespace Interpreter

variable {ρ : Type} [ByteSource ρ]

/-- A completed cycle that still waits for a key leaves the interpreter as it was. -/
theorem cycle_of_stalled {it : Interpreter ρ} (h : it.machine.Bounded) {done : Cycled ρ}
    (hc : it.cycle = .ok done) (hstalled : done.state = .stalled) : done.next = it := by
  obtain ⟨i, -, -, hstate, hnext⟩ := cycle_eq_ok h.toHoldsBytes hc
  have hstalls : it.advance.machine.stalls i = true := by
    rw [hstate, stateAfter] at hstalled
    by_contra hstalls
    rw [if_neg hstalls] at hstalled
    contradiction
  have hop : i.op = .ldKey := by
    simpa using (Bool.and_eq_true_iff.mp hstalls).1
  have hdraw : it.advance.draw i = (0, it.source) := if_neg (by simp [hop])
  have hpc : it.advance.machine.pc - wordSize = it.machine.pc := by
    rw [pc_advance h, wordSize]
    omega
  rw [hnext, executed, hdraw, Machine.effect_of_stalls _ _ hstalls, hpc]
  rfl

/-- Whatever operations lead to a machine, a cycle that it completes changes nothing but what the
instruction at the program counter writes. Only a random number takes a byte of the source. A cycle
that waits for a key changes nothing. -/
theorem cycles_keep_the_frame (source : ρ) (ops : List Operation) {done : Cycled ρ}
    (hc : (play Operation.on ops (powerOn source)).2.cycle = .ok done) :
    let it := (play Operation.on ops (powerOn source)).2
    ∃ i, Instruction.decode it.machine.word = .ok i ∧
      it.machine.Frame i done.next.machine ∧
      (i.op ≠ .rnd → done.next.source = it.source) ∧
      done.next.beeps = it.beeps ∧ done.next.settings = it.settings ∧
      (done.state = .stalled → done.next = it) := by
  intro it
  have h : it.machine.Bounded := bounded_play source ops
  obtain ⟨i, hd, -, -, hnext⟩ := cycle_eq_ok h.toHoldsBytes hc
  have hframe := it.advance.machine.frame_effect (it.advance.draw i).1 h.index.1
    (inRange_of_decode hd)
  rw [hnext]
  refine ⟨i, (decode_eq_ok hd).2.2, ?_, fun hop => ?_, rfl, rfl, fun hstalled => ?_⟩
  · -- the program counter has moved on before the instruction, and it is in no frame
    exact ⟨hframe.memory, hframe.registers, hframe.index, hframe.depth, hframe.slots, hframe.delay,
      hframe.sound, hframe.screen, hframe.keys, hframe.tick, hframe.pending⟩
  · show (it.advance.draw i).2 = it.source
    rw [draw, if_neg hop]
    rfl
  · rw [← hnext]
    exact cycle_of_stalled h hc hstalled

/-- A program that stores its first registers at the bottom of memory. -/
theorem frame_of_stored_registers :
    let it := (play Operation.on [.load [0xF3, 0x55]] (powerOn (CyclicTape.ofList []))).2
    ∃ done, it.cycle = .ok done ∧
      ∃ i, Instruction.decode it.machine.word = .ok i ∧ it.machine.Frame i done.next.machine := by
  intro it
  let store : Instruction := { op := .storeRegs, x := 3 }
  have hbytes : it.machine.HoldsBytes := (bounded_play _ _).toHoldsBytes
  have hfetch : it.machine.fetch = .ok store.encode := by decide +kernel
  obtain ⟨done, hc, -⟩ := cycle_of_decode hbytes (decode_of_fetch hfetch store.decode_encode)
    (by decide +kernel)
  obtain ⟨i, hword, hframe, -⟩ :=
    cycles_keep_the_frame (CyclicTape.ofList []) [.load [0xF3, 0x55]] hc
  exact ⟨done, hc, i, hword, hframe⟩

end Interpreter

end Chip8
