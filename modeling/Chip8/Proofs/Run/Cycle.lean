import Chip8.Proofs.Machine.Bounds
import Chip8.Run.Interpreter

/-!
# One cycle

A cycle of a machine that holds bytes ends in a fault or leaves the effect of the instruction at
the program counter (`Interpreter.cycle_eq`). It never misuses the machine, and the bounds of the
machine hold after it as before (`Interpreter.holdsBytes_cycle`, `Interpreter.bounded_cycle`).
-/

namespace Chip8

namespace Machine

/-- The word at the program counter, the first byte the high one. -/
def word (m : Machine) : Nat :=
  256 * (m.memory.byte m.pc.toNat).toNat + (m.memory.byte (m.pc.toNat + 1)).toNat

theorem word_lt (m : Machine) : m.word < 65536 := by
  have := (m.memory.byte m.pc.toNat).toNat_lt
  have := (m.memory.byte (m.pc.toNat + 1)).toNat_lt
  unfold word
  omega

theorem lowBits_word (m : Machine) : lowBits 16 m.word = m.word := by
  have := m.word_lt
  show ((m.word : Int) % 65536).toNat = m.word
  omega

theorem fetch_eq (m : Machine) :
    m.fetch = (Memory.fault? m.pc 2 "fetch").elim (.ok m.word) .error := by
  rw [fetch, Memory.check_eq]
  cases Memory.fault? m.pc 2 "fetch" <;> rfl

end Machine

namespace Interpreter

variable {ρ : Type}

/-- An instruction that is decoded was fetched from memory. -/
theorem decode_eq_ok {it : Interpreter ρ} {i : Instruction} (h : it.decode = .ok i) :
    0 ≤ it.machine.pc ∧ it.machine.pc ≤ 4094 ∧ Instruction.decode it.machine.word = .ok i := by
  rw [decode, Machine.fetch_eq] at h
  cases hf : Memory.fault? it.machine.pc 2 "fetch" with
  | some f => simp [hf, bind, Except.bind] at h
  | none =>
    have hpc := Memory.fault?_eq_none_iff.mp hf
    refine ⟨hpc.1, by omega, ?_⟩
    cases hd : Instruction.decode it.machine.word with
    | ok j => simpa [hf, hd, bind, Except.bind, pure, Except.pure] using h
    | error e => simp [hf, hd, bind, Except.bind, throw, throwThe, MonadExceptOf.throw] at h

/-- An interpreter decodes the word that it fetches. -/
theorem decode_of_fetch {it : Interpreter ρ} {w : Nat} (hfetch : it.machine.fetch = .ok w)
    {i : Instruction} (hd : Instruction.decode w = .ok i) : it.decode = .ok i := by
  rw [decode, hfetch]
  simp only [bind, Except.bind, hd]
  rfl

/-- A word that is no operation's is a fault at the program counter. -/
theorem decode_of_unknown {it : Interpreter ρ} {w : Nat} (hfetch : it.machine.fetch = .ok w)
    {e : UnknownWord} (hd : Instruction.decode w = .error e) :
    it.decode = .error (.decode e.word it.machine.pc) := by
  rw [decode, hfetch]
  simp only [bind, Except.bind, hd]
  rfl

theorem inRange_of_decode {it : Interpreter ρ} {i : Instruction} (h : it.decode = .ok i) :
    i.InRange :=
  Instruction.Decoded.inRange ⟨_, (decode_eq_ok h).2.2⟩

/-- The mask on the program counter does nothing to one within bounds. -/
theorem pc_advance {it : Interpreter ρ} (h : it.machine.Bounded) :
    it.advance.machine.pc = it.machine.pc + 2 := by
  have := h.pc
  simp only [advance, wordSize]
  omega

/-- A decoded instruction takes up two bytes of memory, so no mask moves the program counter behind
it. -/
theorem advance_of_decode {it : Interpreter ρ} {i : Instruction} (hd : it.decode = .ok i) :
    it.advance = { it with machine := { it.machine with pc := it.machine.pc + 2 } } := by
  obtain ⟨hlow, hhigh, -⟩ := decode_eq_ok hd
  have hpc : (it.machine.pc + wordSize) % 65536 = it.machine.pc + 2 := by
    rw [wordSize]
    omega
  rw [advance, hpc]

variable [ByteSource ρ]

/-- The interpreter after an instruction that is not refused. -/
def executed (it : Interpreter ρ) (i : Instruction) : Interpreter ρ :=
  { it with machine := it.machine.effect i (it.draw i).1, source := (it.draw i).2 }

/-- How an instruction ends that is not refused. -/
def stateAfter (it : Interpreter ρ) (i : Instruction) : CycleState :=
  if it.machine.stalls i then .stalled else .running

theorem execute_eq {it : Interpreter ρ} (h : it.machine.HoldsBytes) {i : Instruction}
    (hi : i.InRange) : it.execute i =
      (it.machine.refusal i).elim (.ok ⟨it.stateAfter i, it.executed i, keyLog it.machine i⟩)
        fun f => .error (.fault f) := by
  simp only [execute, Machine.execute_eq h hi]
  cases it.machine.refusal i <;> rfl

/-- A cycle executes the instruction at the program counter, and then traces it. -/
theorem cycle_eq_execute {it : Interpreter ρ} {i : Instruction} (hd : it.decode = .ok i) :
    it.cycle = (it.advance.execute i).map fun done =>
      { done with log := done.log ++ done.next.trace (.executed done.state i) it.machine.pc } := by
  simp only [cycle, hd, Except.mapError_ok, bind, Except.bind]
  cases it.advance.execute i <;> rfl

/-- A cycle ends in a fault of its fetch, its word or its instruction, or it is completed. -/
theorem cycle_eq {it : Interpreter ρ} (h : it.machine.HoldsBytes) : it.cycle =
    match it.decode with
    | .error f => .error (.fault f)
    | .ok i =>
      (it.advance.machine.refusal i).elim
        (.ok ⟨it.advance.stateAfter i, it.advance.executed i,
          keyLog it.advance.machine i ++ (it.advance.executed i).trace
            (.executed (it.advance.stateAfter i) i) it.machine.pc⟩)
        fun f => .error (.fault f) := by
  have hadvance : it.advance.machine.HoldsBytes := ⟨h.reg, h.delay, h.sound⟩
  unfold cycle
  cases hd : it.decode with
  | error f => rfl
  | ok i =>
    simp only [Except.mapError_ok, bind, Except.bind, execute_eq hadvance (inRange_of_decode hd)]
    cases it.advance.machine.refusal i <;> rfl

theorem cycle_eq_ok {it : Interpreter ρ} (h : it.machine.HoldsBytes) {done : Cycled ρ}
    (hc : it.cycle = .ok done) : ∃ i, it.decode = .ok i ∧ it.advance.machine.refusal i = none ∧
      done.state = it.advance.stateAfter i ∧ done.next = it.advance.executed i := by
  rw [cycle_eq h] at hc
  cases hd : it.decode with
  | error f => simp [hd] at hc
  | ok i =>
    cases hr : it.advance.machine.refusal i with
    | some f => simp [hd, hr] at hc
    | none =>
      simp only [hd, hr, Option.elim_none, Except.ok.injEq] at hc
      exact ⟨i, rfl, hr, hc ▸ rfl, hc ▸ rfl⟩

/-- A cycle is completed if its instruction is not refused. -/
theorem cycle_of_decode {it : Interpreter ρ} (h : it.machine.HoldsBytes) {i : Instruction}
    (hd : it.decode = .ok i) (hr : it.advance.machine.refusal i = none) :
    ∃ done, it.cycle = .ok done ∧ done.next = it.advance.executed i := by
  rw [cycle_eq h, hd]
  simp only [hr, Option.elim_none]
  exact ⟨_, rfl, rfl⟩

/-- A cycle faults if nothing can be decoded, or if what is decoded is refused. -/
theorem cycle_eq_fault_iff {it : Interpreter ρ} (h : it.machine.HoldsBytes) {f : Fault} :
    it.cycle = .error (.fault f) ↔ it.decode = .error f ∨
      ∃ i, it.decode = .ok i ∧ it.advance.machine.refusal i = some f := by
  rw [cycle_eq h]
  cases hd : it.decode with
  | error e => simp
  | ok i => cases hr : it.advance.machine.refusal i <;> simp [hr]

/-- A cycle that is not completed ends in a fault. -/
theorem cycle_eq_error {it : Interpreter ρ} (h : it.machine.HoldsBytes) {halt : Halt ρ}
    (hc : it.cycle = .error halt) : ∃ f, halt = .fault f := by
  rw [cycle_eq h] at hc
  cases hd : it.decode with
  | error f => exact ⟨f, by simpa [hd, eq_comm] using hc⟩
  | ok i =>
    cases hr : it.advance.machine.refusal i with
    | some f => exact ⟨f, by simpa [hd, hr, eq_comm] using hc⟩
    | none => simp [hd, hr] at hc

theorem holdsBytes_cycle {it : Interpreter ρ} (h : it.machine.HoldsBytes) {done : Cycled ρ}
    (hc : it.cycle = .ok done) : done.next.machine.HoldsBytes := by
  obtain ⟨i, hd, -, -, hnext⟩ := cycle_eq_ok h hc
  have hadvance : it.advance.machine.HoldsBytes := ⟨h.reg, h.delay, h.sound⟩
  rw [hnext]
  exact hadvance.effect (inRange_of_decode hd) _

theorem bounded_cycle {it : Interpreter ρ} (h : it.machine.Bounded) {done : Cycled ρ}
    (hc : it.cycle = .ok done) : done.next.machine.Bounded := by
  obtain ⟨i, hd, -, -, hnext⟩ := cycle_eq_ok h.toHoldsBytes hc
  have hpc := pc_advance h
  have hfetched := decode_eq_ok hd
  have hadvance : it.advance.machine.Bounded :=
    ⟨⟨h.reg, h.delay, h.sound⟩, by omega, h.index, h.live, h.tick, h.pending⟩
  rw [hnext]
  exact hadvance.effect (by omega) (inRange_of_decode hd) _

end Interpreter

end Chip8
