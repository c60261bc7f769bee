import Mathlib.Order.Bounds.Defs
import Chip8.Proofs.Bare.Histories

/-!
# How a cycle ends

A cycle of a machine within bounds faults for one of four reasons, looked for in this order : its
word does not lie in memory, no operation has the word, the call stack has no address to return to
or no room for one more, or the instruction touches addresses outside memory. If there is none,
the cycle is completed (`Interpreter.Classified`, `Interpreter.classified`). The fault of a memory
access names the lowest address outside memory that is touched.

`Bare.cycles_are_classified` says so of every machine that operations lead to. On the bare
machine, where an index could miss its row, a value be no byte and an operation have no program,
nothing else is raised. Hence a run never breaks off.
-/

namespace Chip8

namespace Instruction

/-- How many addresses from the index on an instruction touches. -/
def touched (i : Instruction) : Int :=
  match i.op with
  | .drw => i.n
  | .ldBcd => 3
  | .storeRegs | .loadRegs => i.x + 1
  | _ => 0

/-- What an instruction touches memory for. -/
def purpose (i : Instruction) : String :=
  match i.op with
  | .drw => "sprite read"
  | .ldBcd => "BCD write"
  | .storeRegs => "register store"
  | _ => "register load"

end Instruction

/-- Of the addresses that a refused access touches, the one that its fault names is the lowest
outside memory. -/
theorem Memory.isLeast_fault {address length : Int} (hout : 4096 < address + length)
    (hlength : 0 < length) :
    IsLeast {a | (address ≤ a ∧ a < address + length) ∧ 4096 ≤ a} (max address 4096) := by
  refine ⟨⟨⟨Int.le_max_left _ _, by omega⟩, Int.le_max_right _ _⟩, ?_⟩
  rintro a ⟨⟨hfrom, -⟩, hoff⟩
  exact Int.max_le.mpr ⟨hfrom, hoff⟩

namespace Machine

theorem refusal_of_touched (m : Machine) {i : Instruction} (h : 0 < i.touched) :
    m.refusal i = Memory.fault? m.index i.touched i.purpose := by
  cases hop : i.op <;> simp [Instruction.touched, Instruction.purpose, refusal, hop] at *

/-- Only a return, a call or an instruction that touches memory is refused, a sprite without rows
aside. -/
theorem refusal_eq_none (m : Machine) {i : Instruction} (hi : i.InRange)
    (hret : ¬ (i.op = .ret ∧ m.stack.depth.val = 0))
    (hcall : ¬ (i.op = .call ∧ m.stack.depth.val = 16))
    (htouched : i.touched ≤ 0) (hdraws : ¬ (i.op = .drw ∧ i.n = 0)) : m.refusal i = none := by
  have hx := hi.x
  have hn := hi.n
  cases hop : i.op <;> simp [Instruction.touched, refusal, hop] at *
  all_goals first | assumption | omega

end Machine

namespace Interpreter

variable {ρ : Type} [ByteSource ρ]

/-- How a cycle ends, by the word at the program counter, the depth of the call stack and the
index. -/
structure Classified (it : Interpreter ρ) : Prop where
  /-- The word does not lie in memory. -/
  fetch : 4094 < it.machine.pc →
    it.cycle = .error (.fault (.memory (max it.machine.pc 4096) "fetch"))
  /-- The word matches the fixed bits of no operation. -/
  decode : it.machine.pc ≤ 4094 → (∀ op : Opcode, op.matchesWord it.machine.word = false) →
    it.cycle = .error (.fault (.decode it.machine.word it.machine.pc))
  /-- A word that matches some operation is decoded. -/
  decoded : (∃ op : Opcode, op.matchesWord it.machine.word = true) →
    ∃ i, Instruction.decode it.machine.word = .ok i
  /-- There is no call to return from. -/
  underflow : ∀ i, it.machine.pc ≤ 4094 → Instruction.decode it.machine.word = .ok i →
    i.op = .ret → it.machine.stack.depth.val = 0 →
      it.cycle = .error (.fault (.stackUnderflow (it.machine.pc + 2)))
  /-- There is no room for another return address. -/
  overflow : ∀ i, it.machine.pc ≤ 4094 → Instruction.decode it.machine.word = .ok i →
    i.op = .call → it.machine.stack.depth.val = 16 →
      it.cycle = .error (.fault (.stackOverflow (it.machine.pc + 2)))
  /-- An address that is touched lies outside memory, and the fault names the lowest one. -/
  memory : ∀ i, it.machine.pc ≤ 4094 → Instruction.decode it.machine.word = .ok i →
    0 < i.touched → 4096 < it.machine.index + i.touched →
      it.cycle = .error (.fault (.memory (max it.machine.index 4096) i.purpose)) ∧
        IsLeast {a | (it.machine.index ≤ a ∧ a < it.machine.index + i.touched) ∧ 4096 ≤ a}
          (max it.machine.index 4096)
  /-- Nothing of this is so. -/
  completes : ∀ i, it.machine.pc ≤ 4094 → Instruction.decode it.machine.word = .ok i →
    ¬ (i.op = .ret ∧ it.machine.stack.depth.val = 0) →
      ¬ (i.op = .call ∧ it.machine.stack.depth.val = 16) →
        ¬ (0 < i.touched ∧ 4096 < it.machine.index + i.touched) → ¬ (i.op = .drw ∧ i.n = 0) →
          ∃ done, it.cycle = .ok done
  /-- A cycle that is not completed ends in a fault of the machine. -/
  faults : ∀ halt, it.cycle = .error halt → ∃ f, halt = .fault f

omit [ByteSource ρ] in
theorem decode_of_word {it : Interpreter ρ} (h : it.machine.Bounded) (hpc : it.machine.pc ≤ 4094)
    {i : Instruction} (hd : Instruction.decode it.machine.word = .ok i) : it.decode = .ok i := by
  have hfits : Memory.fault? it.machine.pc 2 "fetch" = none :=
    Memory.fault?_eq_none_iff.mpr ⟨h.pc.1, by omega⟩
  rw [Bare.decode_eq, hfits, Option.elim_none, hd]

/-- A fetched instruction that is refused ends the cycle with its fault. -/
theorem cycle_of_refusal {it : Interpreter ρ} (h : it.machine.Bounded)
    (hpc : it.machine.pc ≤ 4094) {i : Instruction}
    (hd : Instruction.decode it.machine.word = .ok i) {f : Fault}
    (hr : it.advance.machine.refusal i = some f) : it.cycle = .error (.fault f) := by
  rw [cycle_eq h.toHoldsBytes, decode_of_word h hpc hd]
  simp only [hr, Option.elim_some]

theorem classified {it : Interpreter ρ} (h : it.machine.Bounded) : it.Classified where
  fetch hpc := by
    rw [cycle_eq h.toHoldsBytes, Bare.decode_eq, Memory.fault?_of_end h.pc.1 (by omega)]
    rfl
  decode hpc hno := by
    have hfits : Memory.fault? it.machine.pc 2 "fetch" = none :=
      Memory.fault?_eq_none_iff.mpr ⟨h.pc.1, by omega⟩
    have hd : Instruction.decode it.machine.word = .error ⟨it.machine.word⟩ := by
      rw [Instruction.decode_eq_error_iff, it.machine.lowBits_word]
      exact ⟨hno, rfl⟩
    rw [cycle_eq h.toHoldsBytes, Bare.decode_eq, hfits, hd]
    rfl
  decoded hsome := by
    obtain ⟨op, hop⟩ := hsome
    cases hd : Instruction.decode it.machine.word with
    | ok i => exact ⟨i, rfl⟩
    | error e =>
      have hno := (Instruction.decode_eq_error_iff.mp hd).1 op
      rw [it.machine.lowBits_word] at hno
      simp [hno] at hop
  underflow i hpc hd hop hdepth := cycle_of_refusal h hpc hd (by
    rw [← pc_advance h]
    simp only [Machine.refusal, hop]
    exact if_pos hdepth)
  overflow i hpc hd hop hdepth := cycle_of_refusal h hpc hd (by
    rw [← pc_advance h]
    simp only [Machine.refusal, hop]
    exact if_pos hdepth)
  memory i hpc hd htouched hout := by
    refine ⟨cycle_of_refusal h hpc hd ?_, Memory.isLeast_fault hout htouched⟩
    rw [Machine.refusal_of_touched _ htouched]
    exact Memory.fault?_of_end h.index.1 hout
  completes i hpc hd hret hcall hfits hdraws := by
    have hr : it.advance.machine.refusal i = none := by
      by_cases htouched : 0 < i.touched
      · rw [Machine.refusal_of_touched _ htouched, Memory.fault?_eq_none_iff]
        exact ⟨h.index.1, Int.not_lt.mp fun hout => hfits ⟨htouched, hout⟩⟩
      · exact Machine.refusal_eq_none _ (Instruction.Decoded.inRange ⟨_, hd⟩) hret hcall
          (Int.not_lt.mp htouched) hdraws
    rw [cycle_eq h.toHoldsBytes, decode_of_word h hpc hd]
    simp only [hr, Option.elim_none]
    exact ⟨_, rfl⟩
  faults halt := cycle_eq_error h.toHoldsBytes

end Interpreter

namespace Bare

variable {ρ : Type} [ByteSource ρ]

/-- A cycle of a machine that operations lead to ends as it is classified. It does the same on the
bare machine, where nothing but a fault of the machine is raised. A run from there, whose frames
are not empty, comes to an end on both. -/
theorem cycles_are_classified (source : ρ) (ops : List Operation) :
    let it := (play Operation.on ops (Interpreter.powerOn source)).2
    it.Classified ∧
      (operate wrap .cycle).run it.bare = along Interpreter.bare (Operation.cycle.on.run it) ∧
      (∀ e s, (operate wrap .cycle).run it.bare = .error e s → ∃ f, e = .fault f) ∧
      ∀ (settings : Settings) (frame : 0 < settings.cyclesPerFrame), ∃ ending,
        { it with settings }.run.ending = .ok ending ∧
          (operate wrap (.run settings frame)).run it.bare =
            .ok (.ran { it with settings }.run.final.machine.screen.picture
              { it with settings }.run.final.machine.tick ending)
              { it with settings }.run.final.bare := by
  intro it
  have h : it.machine.Bounded := Interpreter.bounded_play source ops
  refine ⟨Interpreter.classified h, run_operate suits_wrap h.toHoldsBytes .cycle, ?_, ?_⟩
  · intro e s he
    rw [run_operate suits_wrap h.toHoldsBytes] at he
    simp only [Operation.on, EStateM.run] at he
    cases hc : it.cycle with
    | ok done => simp [hc, Interpreter.finish, along] at he
    | error halt =>
      obtain ⟨f, rfl⟩ := Interpreter.cycle_eq_error h.toHoldsBytes hc
      rw [hc] at he
      exact ⟨f, (EStateM.Result.error.inj he).1.symm⟩
  · intro settings frame
    have hset : ({ it with settings } : Interpreter ρ).machine.HoldsBytes := h.toHoldsBytes
    obtain ⟨hending, -⟩ := Interpreter.runFor_eq_course hset (by simp only; omega) .running #[]
      (Interpreter.ticksLeft { it with settings })
    refine ⟨_, hending, ?_⟩
    rw [← Interpreter.run] at hending
    rw [run_operate suits_wrap h.toHoldsBytes]
    simp only [Operation.on, EStateM.run, Interpreter.conclude, hending, along]

end Bare

end Chip8
