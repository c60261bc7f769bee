import Chip8.Proofs.Run.Straight

/-!
# Arithmetic on registers

An operation that carries makes a result and a flag out of the bytes `a` and `b` of two registers,
and both are told by one equation between numbers (`Opcode.Balances`) : a sum is `a + b`, the flag
worth 256, and a difference borrows 256 if the flag is not set. Of all bytes and bits only one pair
balances (`Opcode.Yields.unique`), and it is the one that the machine makes
(`Machine.yields_of_carrying`).

The result goes to the first register and then the flag to its own, so it wins if the two are one,
and both are made of what the registers held before (`Machine.Computes`). The other operations set
no flag. `Interpreter.register_arithmetic_is_exact` says so of any registers that hold bytes, by
themselves and in a cycle.
-/

namespace Chip8

namespace Opcode

/-- The operations that make a byte out of bytes and leave the flag. -/
def combining : List Opcode := [addImm, or, and, xor]

/-- The operations that set the flag by a carry, a borrow or a bit that drops out. -/
def carrying : List Opcode := [addReg, subReg, subnReg, shr, shl]

/-- The operations that make a number out of the numbers in registers. -/
def arithmetic : List Opcode := combining ++ carrying

theorem straight_of_arithmetic : ∀ op ∈ arithmetic, op ∈ straight := by decide

theorem not_carrying_of_combining : ∀ op ∈ combining, op ∉ carrying := by decide

/-- The operations that take two registers bit by bit, with what they make of two bits. -/
def onBits? : Opcode → Option (Bool → Bool → Bool)
  | or => some fun a b => a || b
  | and => some fun a b => a && b
  | xor => some fun a b => a ^^ b
  | _ => none

theorem onBits?_of_carrying {op : Opcode} (h : op ∈ carrying) : op.onBits? = none := by
  unfold onBits?
  cases op <;> first | rfl | simp [carrying] at h

/-- How the result and the flag of an operation make up for its operands. -/
def Balances (op : Opcode) (a b result flag : Int) : Prop :=
  match op with
  | addReg => result + 256 * flag = a + b
  | subReg => result = a - b + 256 * (1 - flag)
  | subnReg => result = b - a + 256 * (1 - flag)
  | shr => 2 * result + flag = a
  | shl => result + 256 * flag = 2 * a
  | _ => False

/-- A byte and a bit make up for the operands of an operation. -/
structure Yields (op : Opcode) (a b result flag : Int) : Prop where
  byte : 0 ≤ result ∧ result < 256
  bit : flag = 0 ∨ flag = 1
  balance : op.Balances a b result flag

/-- No other byte and bit do. -/
theorem Yields.unique {op : Opcode} {a b result flag result' flag' : Int}
    (h : op.Yields a b result flag) (h' : op.Yields a b result' flag') :
    result = result' ∧ flag = flag' := by
  obtain ⟨hbyte, hbit, hbalance⟩ := h
  obtain ⟨hbyte', hbit', hbalance'⟩ := h'
  unfold Balances at hbalance hbalance'
  cases op <;> simp only at hbalance hbalance' <;> omega

end Opcode

namespace Bits

theorem toNat_or {a b : Int} (ha : 0 ≤ a) (hb : 0 ≤ b) : (or a b).toNat = a.toNat ||| b.toNat := by
  obtain ⟨m, rfl⟩ := Int.eq_ofNat_of_zero_le ha
  obtain ⟨n, rfl⟩ := Int.eq_ofNat_of_zero_le hb
  rfl

theorem toNat_and {a b : Int} (ha : 0 ≤ a) (hb : 0 ≤ b) :
    (and a b).toNat = a.toNat &&& b.toNat := by
  obtain ⟨m, rfl⟩ := Int.eq_ofNat_of_zero_le ha
  obtain ⟨n, rfl⟩ := Int.eq_ofNat_of_zero_le hb
  rfl

theorem toNat_xor {a b : Int} (ha : 0 ≤ a) (hb : 0 ≤ b) :
    (xor a b).toNat = a.toNat ^^^ b.toNat := by
  obtain ⟨m, rfl⟩ := Int.eq_ofNat_of_zero_le ha
  obtain ⟨n, rfl⟩ := Int.eq_ofNat_of_zero_le hb
  rfl

end Bits

/-- A machine differs from the one before by what an instruction makes of its registers. Only the
program counter is left open. -/
structure Machine.Computes (m : Machine) (i : Instruction) (next : Machine) : Prop where
  /-- The result and the flag are in their registers, if these are two. -/
  result : i.op ∈ Opcode.carrying → i.vx ≠ .flag →
    i.op.Yields (m.reg i.vx) (m.reg i.vy) (next.reg i.vx) (next.reg .flag)
  /-- The flag is in its register, whatever was to go there. -/
  flag : i.op ∈ Opcode.carrying →
    ∃ result, i.op.Yields (m.reg i.vx) (m.reg i.vy) result (next.reg .flag)
  sum : i.op = .addImm → next.reg i.vx = (m.reg i.vx + i.nn) % 256
  bits : ∀ f, i.op.onBits? = some f → ∀ k, (next.reg i.vx).toNat.testBit k =
    f ((m.reg i.vx).toNat.testBit k) ((m.reg i.vy).toNat.testBit k)
  bytes : ∀ r, 0 ≤ next.reg r ∧ next.reg r < 256
  others : ∀ r, r ≠ i.vx → (i.op ∈ Opcode.carrying → r ≠ .flag) → next.reg r = m.reg r
  frame : next = { m with registers := next.registers, pc := next.pc }

namespace Machine

variable (m : Machine) {i : Instruction}

/-- The result of an instruction goes to its first register before the flag is set. -/
theorem reg_effect_of_result {random : UInt8} {v : Int} (hload : i.op ≠ .loadRegs)
    (hv : m.result? i random = some v) (r : Register) :
    (m.effect i random).reg r = ((m.put i.vx v).putFlag (m.flag? i)).reg r := by
  show (m.nextRegisters i random)[r] = _
  unfold nextRegisters
  split
  · contradiction
  · rw [hv]
    rfl

/-- What an operation that carries makes of bytes is a byte and a bit that make up for them. -/
theorem yields_of_carrying (hbytes : ∀ r, 0 ≤ m.reg r ∧ m.reg r < 256)
    (hop : i.op ∈ Opcode.carrying) : ∃ result flag, m.result? i 0 = some result ∧
      m.flag? i = some flag ∧
      i.op.Yields (m.reg i.vx) (m.reg i.vy) result (if flag then 1 else 0) := by
  have ha := hbytes i.vx
  have hb := hbytes i.vy
  have hbit (flag : Bool) : (if flag then (1 : Int) else 0) = 0 ∨
      (if flag then (1 : Int) else 0) = 1 := by cases flag <;> simp
  unfold result? flag?
  cases h : i.op <;> simp only [h, Opcode.carrying, List.mem_cons, List.not_mem_nil, reduceCtorEq,
    or_false] at hop
  case shr =>
    refine ⟨_, _, rfl, rfl, by omega, hbit _, ?_⟩
    simp only [Opcode.Balances, decide_eq_true_eq]
    split <;> omega
  all_goals
    refine ⟨_, _, rfl, rfl, lowByte_byte _, hbit _, ?_⟩
    simp only [Opcode.Balances, lowByte, decide_eq_true_eq]
    split <;> omega

/-- What an operation that does not carry makes of bytes is a byte : the sum without its carry, or
bit by bit what it makes of two bits. -/
theorem result_of_combining (hbytes : ∀ r, 0 ≤ m.reg r ∧ m.reg r < 256)
    (hop : i.op ∈ Opcode.combining) : ∃ result, m.result? i 0 = some result ∧
      m.flag? i = none ∧ (0 ≤ result ∧ result < 256) ∧
      (i.op = .addImm → result = (m.reg i.vx + i.nn) % 256) ∧
      ∀ f, i.op.onBits? = some f → ∀ k, result.toNat.testBit k =
        f ((m.reg i.vx).toNat.testBit k) ((m.reg i.vy).toNat.testBit k) := by
  have ha := hbytes i.vx
  have hb := hbytes i.vy
  unfold result? flag?
  cases h : i.op <;> simp only [h, Opcode.combining, List.mem_cons, List.not_mem_nil,
    reduceCtorEq, or_false] at hop
  case addImm => exact ⟨_, rfl, rfl, lowByte_byte _, fun _ => rfl, by simp [Opcode.onBits?]⟩
  case or =>
    refine ⟨_, rfl, rfl, Bits.or_byte ha hb, by simp, fun f hf k => ?_⟩
    obtain rfl := Option.some.inj hf
    rw [Bits.toNat_or ha.1 hb.1, Nat.testBit_or]
  case and =>
    refine ⟨_, rfl, rfl, Bits.and_byte ha hb, by simp, fun f hf k => ?_⟩
    obtain rfl := Option.some.inj hf
    rw [Bits.toNat_and ha.1 hb.1, Nat.testBit_and]
  case xor =>
    refine ⟨_, rfl, rfl, Bits.xor_byte ha hb, by simp, fun f hf k => ?_⟩
    obtain rfl := Option.some.inj hf
    rw [Bits.toNat_xor ha.1 hb.1, Nat.testBit_xor]

/-- An arithmetic instruction changes the registers alone. -/
theorem frame_of_arithmetic (hop : i.op ∈ Opcode.arithmetic) : m.effect i 0 =
    { m with registers := (m.effect i 0).registers, pc := (m.effect i 0).pc } := by
  simp only [effect, stored, nextIndex, nextStack, nextScreen]
  cases h : i.op <;>
    first | rfl | simp [h, Opcode.arithmetic, Opcode.combining, Opcode.carrying] at hop

/-- The effect of an arithmetic instruction on registers that hold bytes. -/
theorem computes_effect (hbytes : ∀ r, 0 ≤ m.reg r ∧ m.reg r < 256)
    (hop : i.op ∈ Opcode.arithmetic) : m.Computes i (m.effect i 0) := by
  have hload : i.op ≠ .loadRegs := by
    intro h
    exact absurd (h ▸ hop) (by decide)
  have hframe := m.frame_of_arithmetic hop
  rcases List.mem_append.mp hop with hplain | hcarry
  · obtain ⟨result, hresult, hflag, hbyte, hsum, hbits⟩ := m.result_of_combining hbytes hplain
    have hreg (r : Register) : (m.effect i 0).reg r = if i.vx = r then result else m.reg r := by
      rw [m.reg_effect_of_result hload hresult, hflag]
      exact reg_put _ _ _ _
    have hnot := Opcode.not_carrying_of_combining i.op hplain
    have hvx : (m.effect i 0).reg i.vx = result := by rw [hreg, if_pos rfl]
    exact {
      result := fun h => absurd h hnot
      flag := fun h => absurd h hnot
      sum := fun h => by rw [hvx, hsum h]
      bits := fun f hf k => by rw [hvx, hbits f hf]
      bytes := fun r => by
        rw [hreg]
        split
        · exact hbyte
        · exact hbytes r
      others := fun r hr _ => by rw [hreg, if_neg (Ne.symm hr)]
      frame := hframe }
  · obtain ⟨result, flag, hresult, hflag, hyields⟩ := m.yields_of_carrying hbytes hcarry
    have hreg (r : Register) : (m.effect i 0).reg r =
        if Register.flag = r then (if flag then 1 else 0) else if i.vx = r then result
        else m.reg r := by
      rw [m.reg_effect_of_result hload hresult, hflag]
      exact (reg_put _ _ _ _).trans (by rw [reg_put])
    have hset : (m.effect i 0).reg .flag = if flag then 1 else 0 := by rw [hreg, if_pos rfl]
    have hbit := hyields.bit
    exact {
      result := fun _ hvx => by
        have hput : (m.effect i 0).reg i.vx = result := by
          rw [hreg, if_neg (Ne.symm hvx), if_pos rfl]
        rw [hset, hput]
        exact hyields
      flag := fun _ => ⟨result, hset ▸ hyields⟩
      sum := fun h => by simp [h, Opcode.carrying] at hcarry
      bits := fun f hf => by
        rw [Opcode.onBits?_of_carrying hcarry] at hf
        contradiction
      bytes := fun r => by
        rw [hreg]
        split
        · omega
        · split
          · exact hyields.byte
          · exact hbytes r
      others := fun r hr hother => by
        rw [hreg, if_neg (Ne.symm (hother hcarry)), if_neg (Ne.symm hr)]
      frame := hframe }

end Machine

namespace Interpreter

variable {ρ : Type} [ByteSource ρ]

/-- Whatever bytes the registers hold and whichever registers an arithmetic instruction names, it is
executed, by itself and in the cycle at its word, and its result and its flag make up for what the
registers held before. -/
theorem register_arithmetic_is_exact (it : Interpreter ρ)
    (hbytes : ∀ r, 0 ≤ it.machine.reg r ∧ it.machine.reg r < 256) {i : Instruction}
    (hop : i.op ∈ Opcode.arithmetic) (hx : 0 ≤ i.x ∧ i.x < 16) (hy : 0 ≤ i.y ∧ i.y < 16) :
    (i.vx.val : Int) = i.x ∧ (i.vy.val : Int) = i.y ∧
      it.Performs i (it.machine.Computes i) ∧
      ∀ a b result flag result' flag', i.op.Yields a b result flag →
        i.op.Yields a b result' flag' → result = result' ∧ flag = flag' := by
  have hstore : i.op ≠ .storeRegs := by
    intro h
    exact absurd (h ▸ hop) (by decide)
  have hr : it.machine.refusal i = none := by
    unfold Machine.refusal
    cases h : i.op <;> first | rfl | exact absurd (h ▸ hop) (by decide)
  refine ⟨Register.val_ofField hx, Register.val_ofField hy, ?_, fun a b _ _ _ _ h h' => h.unique h'⟩
  refine performs_of_straight (Opcode.straight_of_arithmetic _ hop) hx hy (absurd · hstore) hr
    fun pc => ?_
  have h := ({ it.machine with pc } : Machine).computes_effect hbytes hop
  exact ⟨h.result, h.flag, h.sum, h.bits, h.bytes, h.others, h.frame⟩

/-- The flag register is added to itself, with a carry. -/
theorem arithmetic_of_flag_added_to_itself :
    let it := powerOn (CyclicTape.ofList [])
    let full := { it with machine := it.machine.put .flag 200 }
    let i : Instruction := { op := .addReg, x := 15, y := 15 }
    (∀ r, 0 ≤ full.machine.reg r ∧ full.machine.reg r < 256) ∧ i.op ∈ Opcode.arithmetic ∧
      (0 ≤ i.x ∧ i.x < 16) ∧ (0 ≤ i.y ∧ i.y < 16) ∧
      ∃ next, full.execute i = .ok ⟨.running, { full with machine := next }, []⟩ ∧
        next.reg .flag = 1 := by
  intro it full i
  have hbytes : ∀ r, 0 ≤ full.machine.reg r ∧ full.machine.reg r < 256 := by decide +kernel
  have hop : i.op ∈ Opcode.arithmetic := by decide
  obtain ⟨-, -, hperforms, -⟩ :=
    register_arithmetic_is_exact full hbytes hop (by decide) (by decide)
  obtain ⟨next, hexecute, hcomputes, -⟩ := hperforms.alone
  obtain ⟨result, hyields⟩ := hcomputes.flag (by decide)
  have hbefore : full.machine.reg i.vx = 200 := by decide +kernel
  have hbalance : result + 256 * next.reg .flag = full.machine.reg i.vx + full.machine.reg i.vx :=
    hyields.balance
  have hbyte := hyields.byte
  exact ⟨hbytes, hop, by decide, by decide, next, hexecute, by omega⟩

end Interpreter

end Chip8
