/-!
# The thirty-five operations

Each operation has a number, a name, the operand layout its words carry (`Opcode.layout`) and the
word it has when every operand is zero (`Opcode.pattern`). The layout alone says which bits of a
word are free, so the fixed bits are a function of it (`Layout.mask`).
-/

namespace Chip8

/-- The operand fields that an instruction word carries. -/
inductive Layout where
  /-- No operand. -/
  | none
  /-- An address in the low twelve bits. -/
  | address
  /-- A register in the second nibble. -/
  | register
  /-- A register and the low byte. -/
  | immediate
  /-- Two registers, in the second and third nibble. -/
  | registers
  /-- Two registers and the low nibble. -/
  | sprite
deriving DecidableEq

/-- The bits of a word that its operands leave fixed. -/
def Layout.mask : Layout → Nat
  | .none => 0xFFFF
  | .register => 0xF0FF
  | .registers => 0xF00F
  | .address | .immediate | .sprite => 0xF000

/-- The fields of a layout, as the rule listing names them. -/
def Layout.name : Layout → String
  | .none => "none"
  | .address => "nnn"
  | .register => "x"
  | .immediate => "x,nn"
  | .registers => "x,y"
  | .sprite => "x,y,n"

/-- The operations, in the order of their numbers. -/
inductive Opcode where
  | nop | cls | ret | jp | call | seImm | sneImm | seReg | ldImm | addImm | ldReg
  | or | and | xor | addReg | subReg | shr | subnReg | shl | sneReg | ldI | jpV0 | rnd | drw
  | skp | sknp | ldVxDt | ldKey | ldDt | ldSt | addI | ldFont | ldBcd | storeRegs | loadRegs
deriving DecidableEq

namespace Opcode

/-- Every operation, in the order of their numbers. -/
def all : List Opcode :=
  [nop, cls, ret, jp, call, seImm, sneImm, seReg, ldImm, addImm, ldReg, or, and, xor, addReg,
    subReg, shr, subnReg, shl, sneReg, ldI, jpV0, rnd, drw, skp, sknp, ldVxDt, ldKey, ldDt, ldSt,
    addI, ldFont, ldBcd, storeRegs, loadRegs]

/-- Every opcode is in the list. -/
theorem mem_all (op : Opcode) : op ∈ all := by cases op <;> decide

/-- The number of an operation : its place in `Opcode.all`. -/
def number (op : Opcode) : Nat := op.ctorIdx

/-- The name in assembler text. -/
def name : Opcode → String
  | nop => "NOP" | cls => "CLS" | ret => "RET" | jp => "JP" | call => "CALL"
  | seImm => "SE_IMM" | sneImm => "SNE_IMM" | seReg => "SE_REG"
  | ldImm => "LD_IMM" | addImm => "ADD_IMM" | ldReg => "LD_REG"
  | or => "OR" | and => "AND" | xor => "XOR"
  | addReg => "ADD_REG" | subReg => "SUB_REG" | shr => "SHR" | subnReg => "SUBN_REG"
  | shl => "SHL" | sneReg => "SNE_REG" | ldI => "LD_I" | jpV0 => "JP_V0" | rnd => "RND"
  | drw => "DRW" | skp => "SKP" | sknp => "SKNP" | ldVxDt => "LD_VX_DT" | ldKey => "LD_KEY"
  | ldDt => "LD_DT" | ldSt => "LD_ST" | addI => "ADD_I" | ldFont => "LD_FONT"
  | ldBcd => "LD_BCD" | storeRegs => "STORE_REGS" | loadRegs => "LOAD_REGS"

/-- The word of the operation with every operand zero. -/
def pattern : Opcode → Nat
  | nop => 0x0000 | cls => 0x00E0 | ret => 0x00EE | jp => 0x1000 | call => 0x2000
  | seImm => 0x3000 | sneImm => 0x4000 | seReg => 0x5000 | ldImm => 0x6000 | addImm => 0x7000
  | ldReg => 0x8000 | or => 0x8001 | and => 0x8002 | xor => 0x8003 | addReg => 0x8004
  | subReg => 0x8005 | shr => 0x8006 | subnReg => 0x8007 | shl => 0x800E | sneReg => 0x9000
  | ldI => 0xA000 | jpV0 => 0xB000 | rnd => 0xC000 | drw => 0xD000
  | skp => 0xE09E | sknp => 0xE0A1
  | ldVxDt => 0xF007 | ldKey => 0xF00A | ldDt => 0xF015 | ldSt => 0xF018 | addI => 0xF01E
  | ldFont => 0xF029 | ldBcd => 0xF033 | storeRegs => 0xF055 | loadRegs => 0xF065

/-- The operands of the operation. -/
def layout : Opcode → Layout
  | nop | cls | ret => .none
  | jp | call | ldI | jpV0 => .address
  | seImm | sneImm | ldImm | addImm | rnd => .immediate
  | seReg | ldReg | or | and | xor | addReg | subReg | shr | subnReg | shl | sneReg => .registers
  | drw => .sprite
  | skp | sknp | ldVxDt | ldKey | ldDt | ldSt | addI | ldFont | ldBcd | storeRegs | loadRegs =>
    .register

/-- The fixed bits of the operation's words. -/
def mask (op : Opcode) : Nat := op.layout.mask

/-- How many of the sixteen bits are fixed. -/
def fixedBits (op : Opcode) : Nat := (List.range 16).countP op.mask.testBit

/-- The operation of a given number, if there is one. -/
def ofNumber? : Int → Option Opcode
  | .ofNat n => all[n]?
  | .negSucc _ => Option.none

/-- The operation of a given name, if there is one. -/
def ofName? (s : String) : Option Opcode := all.find? (·.name = s)

end Opcode

end Chip8
