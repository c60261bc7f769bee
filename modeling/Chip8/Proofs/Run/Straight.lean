import Chip8.Proofs.History

/-!
# Instructions that go straight on

Most instructions neither jump nor skip, wait or take a random byte (`Opcode.straight`). Whether
one of them is refused, and what it does, does not depend on the program counter, so it does the
same by itself and in the cycle at its word (`Interpreter.Performs`,
`Interpreter.performs_of_straight`), and it is refused by both or by neither
(`Interpreter.Refuses`, `Interpreter.refuses_of_straight`).

No bounds of the machine are asked for. Only an instruction that stores registers needs them to hold
bytes.
-/

namespace Chip8

namespace Opcode

/-- The operations that go on with the next instruction, whatever the machine holds, and take no
random byte. -/
def straight : List Opcode :=
  [nop, cls, ldImm, addImm, ldReg, or, and, xor, addReg, subReg, shr, subnReg, shl, ldI, drw,
    ldVxDt, ldDt, ldSt, addI, ldFont, ldBcd, storeRegs, loadRegs]

end Opcode

namespace Machine

variable (m : Machine) {i : Instruction} (hop : i.op ∈ Opcode.straight)

include hop

theorem nextPc_of_straight : m.nextPc i = m.pc := by
  unfold nextPc skips
  cases h : i.op <;> first | rfl | simp [h, Opcode.straight] at hop

theorem refusal_of_straight (pc : Int) : ({ m with pc } : Machine).refusal i = m.refusal i := by
  unfold refusal
  cases h : i.op <;> first | rfl | simp [h, Opcode.straight] at hop

end Machine

namespace Interpreter

variable {ρ : Type} [ByteSource ρ]

/-- An instruction is executed without a wait, by itself and in the cycle at its word, and `P` holds
of the machine after it. Only the cycle moves the program counter on. -/
structure Performs (it : Interpreter ρ) (i : Instruction) (P : Machine → Prop) : Prop where
  alone : ∃ next, it.execute i = .ok ⟨.running, { it with machine := next }, []⟩ ∧ P next ∧
    next.pc = it.machine.pc
  cycle : it.decode = .ok i → ∃ next log,
    it.cycle = .ok ⟨.running, { it with machine := next }, log⟩ ∧ P next ∧
      next.pc = it.machine.pc + 2

/-- An instruction is refused with a fault, by itself and in the cycle at its word, and the
interpreter is left as it was. -/
structure Refuses (it : Interpreter ρ) (i : Instruction) (f : Fault) : Prop where
  alone : ∀ decoded : i.Decoded, (Call.execute i decoded).on.run it = .error (.fault f) it
  cycle : it.decode = .ok i → Operation.cycle.on.run it = .error (.fault f) it

/-- What holds of the machine after an instruction can be replaced by what follows from it. -/
theorem Performs.imp {it : Interpreter ρ} {i : Instruction} {P Q : Machine → Prop}
    (h : it.Performs i P) (hPQ : ∀ next, P next → Q next) : it.Performs i Q where
  alone := by
    obtain ⟨next, hexecute, hnext, hpc⟩ := h.alone
    exact ⟨next, hexecute, hPQ next hnext, hpc⟩
  cycle hd := by
    obtain ⟨next, log, hc, hnext, hpc⟩ := h.cycle hd
    exact ⟨next, log, hc, hPQ next hnext, hpc⟩

variable {it : Interpreter ρ} {i : Instruction} (hop : i.op ∈ Opcode.straight)
  (hx : 0 ≤ i.x ∧ i.x < 16) (hy : 0 ≤ i.y ∧ i.y < 16)

include hop hx hy

theorem execute_of_straight (hstore : i.op = .storeRegs → it.machine.HoldsBytes) :
    it.execute i = (it.machine.refusal i).elim
      (.ok ⟨.running, { it with machine := it.machine.effect i 0 }, []⟩)
      fun f => .error (.fault f) := by
  have hrnd : i.op ≠ .rnd := by
    intro h
    simp [h, Opcode.straight] at hop
  have hkey : i.op ≠ .ldKey := by
    intro h
    simp [h, Opcode.straight] at hop
  have hdraw : it.draw i = (0, it.source) := if_neg hrnd
  have hstalls : it.machine.stalls i = false := by simp [Machine.stalls, hkey]
  have hlog : keyLog it.machine i = [] := if_neg hkey
  simp only [execute, hdraw, Machine.execute_of_fields hx hy hstore, hstalls, hlog]
  cases it.machine.refusal i <;> rfl

/-- An instruction that goes straight on and is not refused has its effect, wherever the program
counter is. -/
theorem performs_of_straight (hstore : i.op = .storeRegs → it.machine.HoldsBytes)
    (hr : it.machine.refusal i = none) {P : Machine → Prop}
    (hP : ∀ pc, P (({ it.machine with pc } : Machine).effect i 0)) : it.Performs i P where
  alone := by
    refine ⟨_, ?_, hP it.machine.pc, it.machine.nextPc_of_straight hop⟩
    rw [execute_of_straight hop hx hy hstore, hr]
    rfl
  cycle hd := by
    have hr' : it.advance.machine.refusal i = none :=
      (it.machine.refusal_of_straight hop _).trans hr
    have hstore' : i.op = .storeRegs → it.advance.machine.HoldsBytes := fun h =>
      ⟨(hstore h).reg, (hstore h).delay, (hstore h).sound⟩
    have hpc : (it.advance.machine.effect i 0).pc = it.machine.pc + 2 := by
      rw [advance_of_decode hd]
      exact Machine.nextPc_of_straight _ hop
    have hc := cycle_eq_execute hd
    rw [execute_of_straight hop hx hy hstore', hr'] at hc
    exact ⟨_, _, hc, hP _, hpc⟩

/-- An instruction that goes straight on is refused by itself and in a cycle alike. -/
theorem refuses_of_straight (hstore : i.op = .storeRegs → it.machine.HoldsBytes) {f : Fault}
    (hr : it.machine.refusal i = some f) : it.Refuses i f where
  alone decoded := by
    show it.finish (it.execute i) = _
    rw [execute_of_straight hop hx hy hstore, hr]
    rfl
  cycle hd := by
    have hr' : it.advance.machine.refusal i = some f :=
      (it.machine.refusal_of_straight hop _).trans hr
    have hstore' : i.op = .storeRegs → it.advance.machine.HoldsBytes := fun h =>
      ⟨(hstore h).reg, (hstore h).delay, (hstore h).sound⟩
    show it.finish it.cycle = _
    rw [cycle_eq_execute hd, execute_of_straight hop hx hy hstore', hr']
    rfl

end Interpreter

end Chip8
