import Chip8.Machine.Execute
import Chip8.Proofs.Isa.Decode

/-!
# The effect of an instruction

Executing a decoded instruction on a machine whose registers and timers hold bytes
(`Machine.HoldsBytes`) is one of two things : it is refused, and `Machine.refusal` says with what
fault, or it has its effect, and `Machine.effect` is the machine after it. There is no third
(`Machine.execute_eq`). What a cycle does to one part of the machine is read off `Machine.effect`, a
plain case distinction by operation, and when it faults off `Machine.refusal`.
-/

namespace Chip8

namespace Register

theorem lowBits_four_lt (field : Int) : lowBits 4 field < 16 := lowBits_lt 4 field

/-- The register that the low four bits of an operand name. -/
def ofField (field : Int) : Register := ⟨lowBits 4 field, lowBits_four_lt field⟩

theorem val_ofField {field : Int} (h : 0 ≤ field ∧ field < 16) :
    ((ofField field).val : Int) = field := by
  have hmod : field % (1 <<< 4 : Nat) = field := Int.emod_eq_of_lt h.1 h.2
  simp only [ofField, lowBits, hmod]
  omega

theorem ofOperand?_of_field {field : Int} (h : 0 ≤ field ∧ field < 16) :
    ofOperand? field = some (ofField field) := by
  have hle : 0 ≤ field ∧ field ≤ 15 := by omega
  have hval := val_ofField h
  rw [ofOperand?, dif_pos hle, Option.some_inj, Fin.ext_iff]
  dsimp only
  omega

end Register

namespace Instruction

/-- The register that the first operand names. -/
def vx (i : Instruction) : Register := .ofField i.x

/-- The register that the second operand names. -/
def vy (i : Instruction) : Register := .ofField i.y

end Instruction

namespace Memory

/-- The fault of an access that does not lie inside memory. -/
def fault? (address length : Int) (purpose : String) : Option Fault :=
  if address < 0 then some (.memory address purpose)
  else if address + length > size then some (.memory (max address size) purpose)
  else none

theorem check_eq (address length : Int) (purpose : String) :
    check address length purpose = (fault? address length purpose).elim (.ok ()) .error := by
  unfold check fault?
  split
  · rfl
  · split <;> rfl

theorem fault?_eq_none_iff {address length : Int} {purpose : String} :
    fault? address length purpose = none ↔ 0 ≤ address ∧ address + length ≤ 4096 := by
  unfold fault?
  split
  · simp; omega
  · split <;> simp [size] at * <;> omega

/-- An access that reaches behind the end of memory is refused with the end, or with the address it
begins at if that lies further on. -/
theorem fault?_of_end {address length : Int} {purpose : String} (h : 0 ≤ address)
    (hend : 4096 < address + length) :
    fault? address length purpose = some (.memory (max address 4096) purpose) := by
  have hsize : (size : Int) = 4096 := rfl
  rw [fault?, if_neg (by omega), hsize, if_pos hend]

/-- An access is refused with an address and the purpose. -/
theorem exists_of_fault? {address length : Int} {purpose : String} {f : Fault}
    (h : fault? address length purpose = some f) : ∃ a, f = .memory a purpose := by
  unfold fault? at h
  split at h
  · exact ⟨_, (Option.some.inj h).symm⟩
  · split at h
    · exact ⟨_, (Option.some.inj h).symm⟩
    · contradiction

end Memory

namespace CallStack

theorem pop?_eq_none_iff_depth {s : CallStack} : s.pop? = none ↔ s.depth.val = 0 := by
  rw [pop?_eq_none_iff, ← List.length_eq_zero_iff, length_live]

theorem push?_eq_none_iff_depth {s : CallStack} {address : Int} :
    s.push? address = none ↔ s.depth.val = 16 := by
  rw [push?_eq_none_iff, length_live, stackSize]

theorem pop?_of_depth {s : CallStack} {d : Nat} (h : s.depth.val = d + 1) :
    s.pop? = some (s.slots.get ⟨d, by omega⟩, ⟨s.slots, ⟨d, by omega⟩⟩) := by
  unfold pop?
  split
  · omega
  · next d' hd' =>
    obtain rfl : d = d' := by omega
    rfl

/-- A slot keeps the low sixteen bits of an address. -/
theorem toNat_address (address : Int) : ((UInt16.ofInt address).toNat : Int) = address % 65536 := by
  rw [UInt16.ofInt, UInt16.toNat_ofNat']
  omega

end CallStack

namespace Screen

/-- Cells are turned over in two goes as in one. -/
theorem toggleAll_append (s : Screen) (cells more : List (Fin 2048)) :
    s.toggleAll (cells ++ more) =
      let first := s.toggleAll cells
      let second := first.1.toggleAll more
      (second.1, first.2 || second.2) := by
  induction cells generalizing s with
  | nil => simp [toggleAll]
  | cons c cells ih => simp [toggleAll, ih, Bool.or_assoc]

end Screen

namespace Machine

/-- Every register and both timers hold bytes. -/
structure HoldsBytes (m : Machine) : Prop where
  reg : ∀ r, 0 ≤ m.reg r ∧ m.reg r < 256
  delay : 0 ≤ m.delay ∧ m.delay < 256
  sound : 0 ≤ m.sound ∧ m.sound < 256

/-- The fault that an instruction is refused with, the program counter already past it. -/
def refusal (m : Machine) (i : Instruction) : Option Fault :=
  match i.op with
  | .ret => if m.stack.depth.val = 0 then some (.stackUnderflow m.pc) else none
  | .call => if m.stack.depth.val = 16 then some (.stackOverflow m.pc) else none
  | .drw => Memory.fault? m.index i.n "sprite read"
  | .ldBcd => Memory.fault? m.index 3 "BCD write"
  | .storeRegs => Memory.fault? m.index (i.x + 1) "register store"
  | .loadRegs => Memory.fault? m.index (i.x + 1) "register load"
  | _ => none

/-! ## The parts of an effect -/

/-- The bytes that an instruction writes at the index. -/
def stored (m : Machine) (i : Instruction) : List UInt8 :=
  match i.op with
  | .ldBcd =>
    let (hundreds, tens, ones) := decimalDigits (m.reg i.vx)
    [.ofNat hundreds, .ofNat tens, .ofNat ones]
  | .storeRegs => (m.registersUpTo i.x).map .ofInt
  | _ => []

/-- The screen that an instruction draws, and whether a lit cell was met. -/
def drawn (m : Machine) (i : Instruction) : Screen × Bool :=
  m.screen.toggleAll (m.spriteCells (m.reg i.vx) (m.reg i.vy) i.n.toNat)

/-- The value that an instruction puts into its first register. -/
def result? (m : Machine) (i : Instruction) (random : UInt8) : Option Int :=
  let vx := m.reg i.vx
  let vy := m.reg i.vy
  match i.op with
  | .ldImm => some i.nn
  | .addImm => some (lowByte (vx + i.nn))
  | .ldReg => some vy
  | .or => some (Bits.or vx vy)
  | .and => some (Bits.and vx vy)
  | .xor => some (Bits.xor vx vy)
  | .addReg => some (lowByte (vx + vy))
  | .subReg => some (lowByte (vx - vy))
  | .subnReg => some (lowByte (vy - vx))
  | .shr => some (vx / 2)
  | .shl => some (lowByte (2 * vx))
  | .rnd => some (random &&& UInt8.ofInt i.nn).toNat
  | .ldKey => m.keys.lowest?.map fun key => (key.val : Int)
  | .ldVxDt => some m.delay
  | _ => none

/-- The flag that an instruction sets after its result. -/
def flag? (m : Machine) (i : Instruction) : Option Bool :=
  let vx := m.reg i.vx
  let vy := m.reg i.vy
  match i.op with
  | .addReg => some (255 < vx + vy)
  | .subReg => some (vy ≤ vx)
  | .subnReg => some (vx ≤ vy)
  | .shr => some (vx % 2 = 1)
  | .shl => some (vx / 128 % 2 = 1)
  | .drw => some (m.drawn i).2
  | _ => none

/-- The machine with a flag set, if there is one. -/
def putFlag (m : Machine) : Option Bool → Machine
  | some flag => m.put .flag (if flag then 1 else 0)
  | none => m

/-- The registers after an instruction. -/
def nextRegisters (m : Machine) (i : Instruction) (random : UInt8) : Vector Int 16 :=
  match i.op with
  | .loadRegs =>
    Vector.ofFn fun r : Register =>
      if (r.val : Int) ≤ i.x then (m.memory.byte (m.index.toNat + r)).toNat else m.reg r
  | _ => (((m.result? i random).elim m (m.put i.vx)).putFlag (m.flag? i)).registers

/-- Whether an instruction passes over the next one. -/
def skips (m : Machine) (i : Instruction) : Bool :=
  let vx := m.reg i.vx
  let vy := m.reg i.vy
  match i.op with
  | .seImm => vx == i.nn
  | .sneImm => vx != i.nn
  | .seReg => vx == vy
  | .sneReg => vx != vy
  | .skp => m.keys[Register.ofField vx]
  | .sknp => !m.keys[Register.ofField vx]
  | _ => false

/-- The program counter after an instruction that it was already past. -/
def nextPc (m : Machine) (i : Instruction) : Int :=
  match i.op with
  | .ret => (m.stack.pop?.map fun p => (p.1.toNat : Int)).getD m.pc
  | .jp | .call => i.nnn
  | .jpV0 => (m.reg .base + i.nnn) % 65536
  | .ldKey => if m.keys.lowest?.isNone then m.pc - wordSize else m.pc
  | _ => if m.skips i then m.pc + wordSize else m.pc

/-- The call stack after an instruction. -/
def nextStack (m : Machine) (i : Instruction) : CallStack :=
  match i.op with
  | .ret => (m.stack.pop?.map Prod.snd).getD m.stack
  | .call => (m.stack.push? m.pc).getD m.stack
  | _ => m.stack

/-- The index after an instruction. -/
def nextIndex (m : Machine) (i : Instruction) : Int :=
  match i.op with
  | .ldI => i.nnn
  | .addI => (m.index + m.reg i.vx) % 65536
  | .ldFont => m.reg i.vx * Memory.glyphSize
  | _ => m.index

/-- The screen after an instruction. -/
def nextScreen (m : Machine) (i : Instruction) : Screen :=
  match i.op with
  | .cls => .blank
  | .drw => (m.drawn i).1
  | _ => m.screen

/-- The machine after an instruction that is not refused, the program counter already past it. -/
def effect (m : Machine) (i : Instruction) (random : UInt8) : Machine where
  memory := m.memory.write m.index.toNat (m.stored i)
  pc := m.nextPc i
  registers := m.nextRegisters i random
  index := m.nextIndex i
  stack := m.nextStack i
  keys := m.keys
  delay := if i.op = .ldDt then m.reg i.vx else m.delay
  sound := if i.op = .ldSt then m.reg i.vx else m.sound
  screen := m.nextScreen i
  tick := m.tick
  pending := m.pending

/-! ## Execution by parts -/

theorem source_of_field (m : Machine) {field : Int} (h : 0 ≤ field ∧ field < 16) :
    m.source field = .ok (m.reg (.ofField field)) := by
  simp [source, Register.ofOperand?_of_field h]

theorem assign_of_field (m : Machine) {field : Int} (h : 0 ≤ field ∧ field < 16) (v : Int) :
    m.assign field v = .ok (m.put (.ofField field) v) := by
  simp [assign, Register.ofOperand?_of_field h]

theorem mapM_byte? {vs : List Int} (h : ∀ v ∈ vs, 0 ≤ v ∧ v < 256) :
    vs.mapM byte? = some (vs.map UInt8.ofInt) := by
  induction vs with
  | nil => rfl
  | cons v vs ih =>
    have hv : byte? v = some (.ofInt v) := if_pos (h v (by simp))
    simp [hv, ih fun w hw => h w (List.mem_cons_of_mem v hw)]

theorem HoldsBytes.mem {m : Machine} (h : m.HoldsBytes) {v : Int} (hv : v ∈ m.registers.toList) :
    0 ≤ v ∧ v < 256 := by
  obtain ⟨k, hk, rfl⟩ := List.getElem_of_mem hv
  rw [Vector.getElem_toList]
  exact h.reg ⟨k, by simpa using hk⟩

theorem registersUpTo_bytes {m : Machine} (h : m.HoldsBytes) (last : Int) :
    (m.registersUpTo last).mapM byte? = some ((m.registersUpTo last).map UInt8.ofInt) :=
  mapM_byte? fun _ hv => h.mem (List.mem_of_mem_take hv)

/-- An instruction that checks a range first is refused with the fault of the range. -/
theorem check_bind (address length : Int) (purpose : String) (next : Except Stop Machine) :
    (do
      (Memory.check address length purpose : Except Fault Unit)
      next) = (Memory.fault? address length purpose).elim next fun f => .error (.fault f) := by
  rw [Memory.check_eq]
  cases Memory.fault? address length purpose <;> rfl

theorem skipIf_eq (m : Machine) (c : Bool) :
    m.skipIf c = { m with pc := if c then m.pc + wordSize else m.pc } := by
  cases c <;> rfl

/-- An instruction whose operands name registers is refused or has its effect. Only one that stores
registers needs them to hold bytes. -/
theorem execute_of_fields {m : Machine} {i : Instruction} (hx : 0 ≤ i.x ∧ i.x < 16)
    (hy : 0 ≤ i.y ∧ i.y < 16) (hstore : i.op = .storeRegs → m.HoldsBytes) (random : UInt8) :
    m.execute i random =
      (m.refusal i).elim (.ok (m.effect i random)) fun f => .error (.fault f) := by
  have hvx := m.source_of_field hx
  have hvy := m.source_of_field hy
  have hset := m.assign_of_field hx
  cases hop : i.op <;>
    simp only [execute, effect, refusal, stored, result?, flag?, nextRegisters, nextPc, skips,
      nextStack, nextIndex, nextScreen, hop, hvx, hvy, hset, assignFlagged, Instruction.vx,
      Instruction.vy]
  case drw =>
    rw [draw, check_bind, hvx, hvy]
    rfl
  case ldBcd =>
    rw [storeDigits, check_bind, hvx]
    rfl
  case storeRegs =>
    rw [storeRegisters, check_bind, registersUpTo_bytes (hstore hop)]
    rfl
  case loadRegs => exact check_bind _ _ _ _
  case ldKey =>
    simp only [awaitKey, hset]
    cases m.keys.lowest? <;> rfl
  case skp | sknp =>
    rw [keyDown, hvx]
    exact congrArg Except.ok (skipIf_eq m _)
  case ret =>
    rw [pop]
    cases hp : m.stack.pop? with
    | none => simp [CallStack.pop?_eq_none_iff_depth.mp hp]; rfl
    | some p =>
      have hd : m.stack.depth.val ≠ 0 := fun hd => by
        simp [CallStack.pop?_eq_none_iff_depth.mpr hd] at hp
      rw [if_neg hd]
      rfl
  case call =>
    rw [push]
    cases hp : m.stack.push? m.pc with
    | none => simp [CallStack.push?_eq_none_iff_depth.mp hp]; rfl
    | some stack =>
      have hd : m.stack.depth.val ≠ 16 := fun hd => by
        simp [CallStack.push?_eq_none_iff_depth.mpr hd] at hp
      rw [if_neg hd]
      rfl
  all_goals try simp only [skipIf_eq]
  all_goals rfl

/-- A decoded instruction is refused or has its effect. -/
theorem execute_eq {m : Machine} (hm : m.HoldsBytes) {i : Instruction} (hi : i.InRange)
    (random : UInt8) : m.execute i random =
      (m.refusal i).elim (.ok (m.effect i random)) fun f => .error (.fault f) :=
  execute_of_fields hi.x hi.y (fun _ => hm) random

end Machine

end Chip8
