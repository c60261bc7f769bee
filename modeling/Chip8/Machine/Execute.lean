import Chip8.Machine.Basic
import Chip8.Machine.Bits
import Chip8.Machine.DecimalDigits

/-!
# Executing one instruction

`Machine.execute` is what each operation does to the machine, the program counter already past the
instruction. A flag is written after the result, so it wins when the result goes to the flag
register. Every fault is found before anything is written.

A decoded instruction names its registers by four bits, and a program keeps them bytes. An instruction made up
otherwise, or a machine set from outside, can ask for what is not there : a misuse (`Misuse`), which is no
fault of the machine.
-/

namespace Except

variable {ε ε' α : Type}

@[simp] theorem mapError_ok (f : ε → ε') (a : α) : (ok a).mapError f = ok a := rfl

@[simp] theorem mapError_error (f : ε → ε') (e : ε) :
    (error e : Except ε α).mapError f = error (f e) := rfl

end Except

namespace Chip8

/-- The bytes of an instruction word. -/
def wordSize : Int := 2

/-- A use of the machine that no program makes. -/
inductive Misuse where
  /-- An operand names no register to take a value from. -/
  | noSource
  /-- An operand names no register to put a value into. -/
  | noTarget
  /-- A register that is to be stored holds no byte. -/
  | notByte
deriving DecidableEq

/-- The text of a misuse. -/
def Misuse.message : Misuse → String
  | noSource => "list index out of range"
  | noTarget => "list assignment index out of range"
  | notByte => "bytes must be in range(0, 256)"

/-- Why an instruction is not executed. -/
inductive Stop where
  | fault (f : Fault)
  | misuse (e : Misuse)
deriving DecidableEq

/-- A fault stops the instruction. -/
instance : MonadLift (Except Fault) (Except Stop) := ⟨Except.mapError .fault⟩

namespace Machine

/-- Pass over the next instruction if a condition holds. -/
def skipIf (m : Machine) (c : Bool) : Machine :=
  if c then { m with pc := m.pc + wordSize } else m

/-! ## Operands -/

/-- The value of the register that an operand names. -/
def source (m : Machine) (operand : Int) : Except Stop Int :=
  match Register.ofOperand? operand with
  | some r => .ok (m.reg r)
  | none => .error (.misuse .noSource)

/-- Set the register that an operand names. -/
def assign (m : Machine) (operand : Int) (v : Int) : Except Stop Machine :=
  match Register.ofOperand? operand with
  | some r => .ok (m.put r v)
  | none => .error (.misuse .noTarget)

/-- Set the register that an operand names, then the flag. -/
def assignFlagged (m : Machine) (operand : Int) (v : Int) (flag : Bool) : Except Stop Machine := do
  return (← m.assign operand v).put .flag (if flag then 1 else 0)

/-- The low byte of an integer. -/
def lowByte (i : Int) : Int := i % 256

/-! ## Operations on memory and the screen -/

/-- The columns of the bits set in a sprite row, the most significant bit in column 0. -/
def spriteColumns (bits : UInt8) : List Nat :=
  (List.range 8).filter fun column => bits.toNat.testBit (7 - column)

/-- The cells that `rows` sprite bytes at the index cover when drawn at `(x, y)`. -/
def spriteCells (m : Machine) (x y : Int) (rows : Nat) : List (Fin 2048) :=
  (List.range rows).flatMap fun row =>
    (spriteColumns (m.memory.byte (m.index.toNat + row))).map fun (column : Nat) =>
      Screen.cell (x + column) (y + row)

/-- Turn over every cell that the sprite at the index covers. The flag says whether one of them
was lit. -/
def draw (m : Machine) (x y rows : Int) : Except Stop Machine := do
  Memory.check m.index rows "sprite read"
  let (screen, collision) :=
    m.screen.toggleAll (m.spriteCells (← m.source x) (← m.source y) rows.toNat)
  return { m with screen }.put .flag (if collision then 1 else 0)

/-- Write the decimal digits of a register at the index. -/
def storeDigits (m : Machine) (x : Int) : Except Stop Machine := do
  Memory.check m.index 3 "BCD write"
  let (hundreds, tens, ones) := decimalDigits (← m.source x)
  return { m with
    memory := m.memory.write m.index.toNat [.ofNat hundreds, .ofNat tens, .ofNat ones] }

/-- The registers up to and including `last`. -/
def registersUpTo (m : Machine) (last : Int) : List Int :=
  m.registers.toList.take (last + 1).toNat

/-- An integer as a byte. -/
def byte? (i : Int) : Option UInt8 := if 0 ≤ i ∧ i < 256 then some (.ofInt i) else none

/-- Write the registers up to `last` at the index. -/
def storeRegisters (m : Machine) (last : Int) : Except Stop Machine := do
  Memory.check m.index (last + 1) "register store"
  match (m.registersUpTo last).mapM byte? with
  | some bytes => return { m with memory := m.memory.write m.index.toNat bytes }
  | none => throw (.misuse .notByte)

/-- Read the registers up to `last` from the index. -/
def loadRegisters (m : Machine) (last : Int) : Except Stop Machine := do
  Memory.check m.index (last + 1) "register load"
  return { m with
    registers := Vector.ofFn fun r : Register =>
      if (r.val : Int) ≤ last then (m.memory.byte (m.index.toNat + r)).toNat else m.reg r }

/-- Put the lowest key that is down into a register. With no key down, go back to the
instruction. -/
def awaitKey (m : Machine) (x : Int) : Except Stop Machine :=
  match m.keys.lowest? with
  | some key => m.assign x key.val
  | none => .ok { m with pc := m.pc - wordSize }

/-- Whether an instruction has to wait for a key. -/
def stalls (m : Machine) (i : Instruction) : Bool := i.op == .ldKey && m.keys.lowest?.isNone

/-! ## Instructions -/

/-- Whether the key is down that the low four bits of a register name. -/
def keyDown (m : Machine) (x : Int) : Except Stop Bool := do
  let v ← m.source x
  return m.keys[(⟨lowBits 4 v, lowBits_lt 4 v⟩ : Key)]

/-- Execute an instruction. `random` is the byte that a random number is made of. -/
def execute (m : Machine) (i : Instruction) (random : UInt8) : Except Stop Machine := do
  match i.op with
  | .nop => return m
  | .cls => return { m with screen := .blank }
  | .ret =>
    let (address, m) ← (m.pop : Except Fault _)
    return { m with pc := address.toNat }
  | .jp => return { m with pc := i.nnn }
  | .call =>
    let m ← (m.push m.pc : Except Fault _)
    return { m with pc := i.nnn }
  | .seImm => return m.skipIf ((← m.source i.x) == i.nn)
  | .sneImm => return m.skipIf ((← m.source i.x) != i.nn)
  | .seReg => return m.skipIf ((← m.source i.x) == (← m.source i.y))
  | .sneReg => return m.skipIf ((← m.source i.x) != (← m.source i.y))
  | .ldImm => m.assign i.x i.nn
  | .addImm => m.assign i.x (lowByte ((← m.source i.x) + i.nn))
  | .ldReg => m.assign i.x (← m.source i.y)
  | .or => m.assign i.x (Bits.or (← m.source i.x) (← m.source i.y))
  | .and => m.assign i.x (Bits.and (← m.source i.x) (← m.source i.y))
  | .xor => m.assign i.x (Bits.xor (← m.source i.x) (← m.source i.y))
  | .addReg =>
    let total := (← m.source i.x) + (← m.source i.y)
    m.assignFlagged i.x (lowByte total) (255 < total)
  | .subReg =>
    let vx ← m.source i.x
    let vy ← m.source i.y
    m.assignFlagged i.x (lowByte (vx - vy)) (vy ≤ vx)
  | .subnReg =>
    let vx ← m.source i.x
    let vy ← m.source i.y
    m.assignFlagged i.x (lowByte (vy - vx)) (vx ≤ vy)
  | .shr =>
    let vx ← m.source i.x
    m.assignFlagged i.x (vx / 2) (vx % 2 = 1)
  | .shl =>
    let vx ← m.source i.x
    m.assignFlagged i.x (lowByte (2 * vx)) (vx / 128 % 2 = 1)
  | .ldI => return { m with index := i.nnn }
  | .jpV0 => return { m with pc := (m.reg .base + i.nnn) % 65536 }
  | .rnd => m.assign i.x (random &&& UInt8.ofInt i.nn).toNat
  | .drw => m.draw i.x i.y i.n
  | .skp => return m.skipIf (← m.keyDown i.x)
  | .sknp => return m.skipIf !(← m.keyDown i.x)
  | .ldKey => m.awaitKey i.x
  | .ldVxDt => m.assign i.x m.delay
  | .ldDt => return { m with delay := ← m.source i.x }
  | .ldSt => return { m with sound := ← m.source i.x }
  | .addI => return { m with index := (m.index + (← m.source i.x)) % 65536 }
  | .ldFont => return { m with index := (← m.source i.x) * Memory.glyphSize }
  | .ldBcd => m.storeDigits i.x
  | .storeRegs => m.storeRegisters i.x
  | .loadRegs => m.loadRegisters i.x

end Machine

end Chip8
