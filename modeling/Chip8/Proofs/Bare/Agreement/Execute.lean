import Chip8.Proofs.Bare.Execute
import Chip8.Proofs.Bare.Agreement.Program

/-!
# What bare instructions do to a machine

On the bare state of a machine that holds bytes, every decoded instruction is refused with the
fault of the machine's own instruction, before anything is written, or it has that instruction's
effect (`Bare.run_execute`). The same goes for a cycle (`Bare.run_cycle`). Both are true for any
mask that keeps the low sixteen bits of the addresses that come to be masked.
-/

namespace Chip8

namespace Bare

variable {ρ : Type} [ByteSource ρ] {mask : Mask}

/-- An instruction is executed by the program that the table has for its operation. -/
theorem execute_of_lookup {i : Instruction} {op : Opcode} {program : Prog ρ CycleState}
    (hop : i.op = op) (h : (programs mask i).lookup op = some program) :
    execute mask i = program := by
  rw [execute, hop, h]

omit [ByteSource ρ] in
theorem run_running {p : Prog ρ Unit} {s t : State ρ} (h : p.run s = .ok () t) :
    (running p).run s = .ok .running t := by
  rw [running, run_bind_ok h, EStateM.run_pure]

omit [ByteSource ρ] in
theorem run_running_error {p : Prog ρ Unit} {s t : State ρ} {e : Raised}
    (h : p.run s = .error e t) : (running p).run s = .error e t := by
  rw [running, run_bind_error h]

omit [ByteSource ρ] in
theorem run_running_elim {p : Prog ρ Unit} {s t : State ρ} {refusal : Option Fault}
    (h : p.run s = refusal.elim (.ok () t) fun f => .error (.fault f) s) :
    (running p).run s = refusal.elim (.ok .running t) fun f => .error (.fault f) s := by
  cases refusal with
  | none => exact run_running h
  | some f => exact run_running_error h

/-- An instruction is refused as the machine refuses it, or has the effect that it has there. -/
theorem run_execute {it : Interpreter ρ} (h : it.machine.HoldsBytes) {i : Instruction}
    (hi : i.InRange) (hcall : mask it.machine.pc = wrap it.machine.pc)
    (hjump : mask (it.machine.reg .base + i.nnn) = wrap (it.machine.reg .base + i.nnn)) :
    (execute mask i).run it.bare =
      (it.machine.refusal i).elim (.ok (it.stateAfter i) (it.executed i).bare) fun f =>
        .error (.fault f) it.bare := by
  obtain ⟨m, settings, source, beeps⟩ := it
  have hx := run_register m source beeps hi.x
  have hy := run_register m source beeps hi.y
  have hset := run_setRegister m source beeps hi.x
  have hflagged := run_setFlagged m source beeps hi.x
  cases hop : i.op <;> rw [execute_of_lookup hop rfl] <;>
    simp only [Machine.refusal, Interpreter.stateAfter, Machine.stalls, Interpreter.executed,
      Interpreter.draw, Interpreter.bare, Machine.effect, Machine.stored, Machine.result?,
      Machine.flag?, Machine.nextRegisters, Machine.nextPc, Machine.skips, Machine.nextStack,
      Machine.nextIndex, Machine.nextScreen, hop, Instruction.vx, Instruction.vy]
  case nop => rfl
  case cls => exact run_running (run_clear m source beeps)
  case jp => exact run_running rfl
  case ldImm => exact run_running (hset _)
  case ldReg => exact run_running ((run_bind_ok hy).trans (hset _))
  case addImm => exact run_running ((run_bind_ok hx).trans (hset _))
  case or | and | xor =>
    exact run_running ((run_bind_ok hx).trans ((run_bind_ok hy).trans (hset _)))
  case addReg | subReg | subnReg =>
    exact run_running ((run_bind_ok hx).trans ((run_bind_ok hy).trans (hflagged _ _)))
  case shr | shl => exact run_running ((run_bind_ok hx).trans (hflagged _ _))
  case seImm | sneImm => exact run_running ((run_bind_ok hx).trans (run_skipIf m source beeps _))
  case seReg | sneReg =>
    exact run_running ((run_bind_ok hx).trans ((run_bind_ok hy).trans
      (run_skipIf m source beeps _)))
  case skp | sknp =>
    exact run_running ((run_bind_ok hx).trans
      ((run_bind_ok (run_keyDown m source beeps _)).trans (run_skipIf m source beeps _)))
  case ldI => exact run_running rfl
  case ldDt | ldSt | addI | ldFont => exact run_running ((run_bind_ok hx).trans rfl)
  case ldVxDt => exact run_running (hset _)
  case rnd => exact run_running (run_setRegister _ _ beeps hi.x _)
  case jpV0 =>
    have hbase := run_register m source beeps (r := 0) (by decide)
    have hmask : mask (m.reg (.ofField 0) + i.nnn) = wrap (m.reg (.ofField 0) + i.nnn) := hjump
    refine run_running ((run_bind_ok hbase).trans ?_)
    rw [hmask]
    rfl
  case ldKey =>
    have hkeys := findIdx?_keys m.keys
    cases hlow : m.keys.lowest? with
    | none =>
      rw [hlow, Option.map_none] at hkeys
      refine (run_bind_ok (EStateM.run_get _)).trans ?_
      rw [State.of_keys, hkeys]
      rfl
    | some key =>
      rw [hlow, Option.map_some] at hkeys
      refine (run_bind_ok (EStateM.run_get _)).trans ?_
      rw [State.of_keys, hkeys]
      exact run_bind_ok (hset _)
  case ret =>
    have hpop := run_pop m source beeps
    cases hp : m.stack.pop? with
    | none =>
      rw [hp] at hpop
      rw [if_pos (CallStack.pop?_eq_none_iff_depth.mp hp)]
      exact run_running_error (run_bind_error hpop)
    | some p =>
      have hd : m.stack.depth.val ≠ 0 := fun hd => by
        simp [CallStack.pop?_eq_none_iff_depth.mpr hd] at hp
      rw [hp] at hpop
      rw [if_neg hd]
      exact run_running (run_bind_ok hpop)
  case call =>
    have hpush := run_push m source beeps hcall
    cases hp : m.stack.push? m.pc with
    | none =>
      rw [hp] at hpush
      rw [if_pos (CallStack.push?_eq_none_iff_depth.mp hp)]
      exact run_running_error ((run_bind_ok (EStateM.run_get _)).trans (run_bind_error hpush))
    | some stack =>
      have hd : m.stack.depth.val ≠ 16 := fun hd => by
        simp [CallStack.push?_eq_none_iff_depth.mpr hd] at hp
      rw [hp] at hpush
      rw [if_neg hd]
      exact run_running ((run_bind_ok (EStateM.run_get _)).trans (run_bind_ok hpush))
  case drw => exact run_running_elim (run_draw m source beeps hi)
  case ldBcd =>
    have hstore := run_storeDigits m source beeps hi hop
    simp only [Machine.stored, hop] at hstore
    exact run_running_elim hstore
  case storeRegs =>
    have hstore := run_storeRegisters m source beeps h hi hop
    simp only [Machine.stored, hop] at hstore
    exact run_running_elim hstore
  case loadRegs =>
    have hload := run_loadRegisters m source beeps hi hop 0
    simp only [Machine.nextRegisters, hop] at hload
    exact run_running_elim hload

/-! ## Cycles -/

/-- Wherever an address of the machine comes to be masked, the mask keeps the low sixteen bits. -/
structure Masks (mask : Mask) (m : Machine) : Prop where
  next : mask (m.pc + 2) = wrap (m.pc + 2)
  call : mask ((m.pc + 2) % 65536) = wrap ((m.pc + 2) % 65536)
  jump : ∀ nnn, 0 ≤ nnn ∧ nnn < 4096 → mask (m.reg .base + nnn) = wrap (m.reg .base + nnn)

theorem masks_wrap (m : Machine) : Masks wrap m := ⟨rfl, rfl, fun _ _ => rfl⟩

theorem strict_eq {v : Int} (h : 0 ≤ v ∧ v < 65536) : strict v = wrap v := by
  have hv : v % 65536 = v := Int.emod_eq_of_lt h.1 h.2
  rw [strict, wrap, if_pos hv, hv]

/-- Within bounds no mask changes an address. -/
theorem masks_strict {m : Machine} (h : m.Bounded) : Masks strict m where
  next := strict_eq (by have := h.pc; omega)
  call := strict_eq (by have := h.pc; omega)
  jump nnn hnnn := strict_eq (by have := h.reg .base; omega)

omit [ByteSource ρ] in
theorem run_tryCatch {α : Type} (x : Prog ρ α) (handle : Raised → Prog ρ α) (s : State ρ) :
    (tryCatch x handle).run s =
      match x.run s with
      | .ok a t => .ok a t
      | .error e t => (handle e).run t := by
  show EStateM.tryCatch x handle s = _
  unfold EStateM.tryCatch EStateM.run
  cases x s <;> rfl

omit [ByteSource ρ] in
/-- A word that is no operation's is reported as it was fetched. -/
theorem decode_eq (it : Interpreter ρ) :
    it.decode = (Memory.fault? it.machine.pc 2 "fetch").elim
      (match Instruction.decode it.machine.word with
        | .ok i => .ok i
        | .error _ => .error (.decode it.machine.word it.machine.pc)) .error := by
  rw [Interpreter.decode, Machine.fetch_eq]
  cases Memory.fault? it.machine.pc 2 "fetch" with
  | some f => rfl
  | none =>
    cases hd : Instruction.decode it.machine.word with
    | ok i => simp only [Option.elim_none, bind, Except.bind, hd]; rfl
    | error e =>
      obtain ⟨-, rfl⟩ := Instruction.decode_eq_error_iff.mp hd
      simp only [Option.elim_none, bind, Except.bind, hd, it.machine.lowBits_word]
      rfl

/-- A cycle leaves what the interpreter's cycle leaves, and after a fault everything as it was. -/
theorem run_cycle {it : Interpreter ρ} (h : it.machine.HoldsBytes) (hmask : Masks mask it.machine) :
    (cycle mask).run it.bare =
      match it.cycle with
      | .ok done => .ok done.state done.next.bare
      | .error (.fault f) => .error (.fault f) it.bare
      | .error (.misuse e left) => .error (.ofMisuse e) left.bare := by
  have hadvance : it.advance.machine.HoldsBytes := ⟨h.reg, h.delay, h.sound⟩
  have hfetch := run_fetch it.machine it.source it.beeps
  rw [Interpreter.cycle_eq h, decode_eq, cycle, run_bind_ok (EStateM.run_get _)]
  cases hf : Memory.fault? it.machine.pc 2 "fetch" with
  | some f =>
    rw [hf] at hfetch
    exact run_bind_error hfetch
  | none =>
    rw [hf] at hfetch
    refine (run_bind_ok hfetch).trans ?_
    cases hd : Instruction.decode it.machine.word with
    | error e => rfl
    | ok i =>
      have hi := Instruction.Decoded.inRange ⟨_, hd⟩
      have hexecute := run_execute hadvance hi hmask.call (hmask.jump _ hi.nnn)
      have hnext : mask (it.bare.pc + 2) = .ok ((it.machine.pc + 2) % 65536) := hmask.next
      have hjump : (jump ((it.machine.pc + 2) % 65536) : Prog ρ Unit).run it.bare =
          .ok () it.advance.bare := rfl
      simp only [hnext, ofExcept, pure_bind, Option.elim_none]
      refine (run_bind_ok hjump).trans ?_
      rw [run_tryCatch, hexecute]
      cases it.advance.machine.refusal i <;> rfl

end Bare

end Chip8
