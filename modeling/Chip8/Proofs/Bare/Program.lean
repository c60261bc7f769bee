import Chip8.Proofs.Bare.State
import Chip8.Proofs.History

/-!
# Programs of the bare machine

A program changes a bare state one write after another. It can be broken off between any two of
them, and then the state stays as far as it was written (`Bare.Prog`). Every index is looked up in
its row, and one that misses raises `Raised.noCell`. Checks, reads and writes stand in the order
in which they are made.

Three addresses are masked to sixteen bits : the return address of a call, the target of a jump
from `V0` and the program counter behind an instruction. What a mask does is a parameter of the
programs. `Bare.wrap` keeps the low sixteen bits, and `Bare.strict` refuses an address that has
any others.
-/

namespace Chip8

namespace Bare

/-- A program on a bare state. One that raises leaves the state that it has reached. -/
abbrev Prog (ρ : Type) := EStateM Raised (State ρ)

/-- What becomes of an address that is to have sixteen bits. -/
abbrev Mask := Int → Except Raised Int

/-- Keep the low sixteen bits. -/
def wrap : Mask := fun v => .ok (v % 65536)

/-- Refuse an address that keeping the low sixteen bits would change. -/
def strict : Mask := fun v => if v % 65536 = v then .ok v else .error .masked

variable {ρ : Type}

/-- Go on with a value, or raise an error. -/
def ofExcept {α : Type} : Except Raised α → Prog ρ α
  | .ok a => pure a
  | .error e => throw e

/-- Go on with a cell, or raise that there is none. -/
def cell {α : Type} : Option α → Prog ρ α
  | some a => pure a
  | none => throw .noCell

/-- Raise a fault. -/
def fail {α : Type} (f : Fault) : Prog ρ α := throw (.fault f)

/-! ## Memory and registers -/

/-- Refuse an access outside memory. -/
def check (address length : Int) (purpose : String) : Prog ρ Unit :=
  ofExcept ((Memory.check address length purpose).mapError .fault)

/-- The byte at an address. -/
def byteAt (address : Int) : Prog ρ UInt8 := do
  let s ← get
  cell (Row.read? s.memory address)

/-- The value of a register. -/
def register (r : Int) : Prog ρ Int := do
  let s ← get
  cell (Row.read? s.registers r)

/-- Set a register. -/
def setRegister (r v : Int) : Prog ρ Unit := do
  let s ← get
  let registers ← cell (Row.write? s.registers r v)
  set { s with registers }

/-- Set a register, then the flag. -/
def setFlagged (r v : Int) (flag : Bool) : Prog ρ Unit := do
  setRegister r v
  setRegister 15 (if flag then 1 else 0)

/-- Set the program counter. -/
def jump (address : Int) : Prog ρ Unit := modify fun s => { s with pc := address }

/-- Pass over the next instruction if a condition holds. -/
def skipIf (c : Bool) : Prog ρ Unit :=
  if c then modify fun s => { s with pc := s.pc + 2 } else pure ()

/-- Integers as bytes, all of them. -/
def toBytes (vs : List Int) : Prog ρ (List UInt8) :=
  match vs.mapM Machine.byte? with
  | some bytes => pure bytes
  | none => throw .notByte

/-- The word at the program counter. -/
def fetch : Prog ρ Nat := do
  let s ← get
  check s.pc 2 "fetch"
  let high ← byteAt s.pc
  let low ← byteAt (s.pc + 1)
  return 256 * high.toNat + low.toNat

/-- Write the decimal digits of a register at the index. -/
def storeDigits (i : Instruction) : Prog ρ Unit := do
  let s ← get
  check s.index 3 "BCD write"
  let vx ← register i.x
  let (hundreds, tens, ones) := decimalDigits vx
  let bytes ← toBytes [hundreds, tens, ones]
  modify fun s => { s with memory := Row.splice s.memory s.index (s.index + 3) bytes }

/-- Write the registers up to the first operand at the index. -/
def storeRegisters (i : Instruction) : Prog ρ Unit := do
  let s ← get
  check s.index (i.x + 1) "register store"
  let bytes ← toBytes (Row.slice s.registers 0 (i.x + 1))
  modify fun s => { s with memory := Row.splice s.memory s.index (s.index + i.x + 1) bytes }

/-- Read the registers up to the first operand from the index. -/
def loadRegisters (i : Instruction) : Prog ρ Unit := do
  let s ← get
  check s.index (i.x + 1) "register load"
  let bytes := Row.slice s.memory s.index (s.index + i.x + 1)
  modify fun s => { s with
    registers := Row.splice s.registers 0 (i.x + 1) (bytes.map fun b => (b.toNat : Int)) }

/-! ## The call stack -/

/-- Put a return address into the first free cell of the call stack. -/
def push (mask : Mask) (address : Int) : Prog ρ Unit := do
  let s ← get
  if 16 ≤ s.depth then fail (.stackOverflow s.pc)
  else
    let entry ← ofExcept (mask address)
    let stack ← cell (Row.write? s.stack s.depth entry)
    set { s with stack }
    modify fun s => { s with depth := s.depth + 1 }

/-- Take the return address last put in. -/
def pop : Prog ρ Int := do
  let s ← get
  if s.depth = 0 then fail (.stackUnderflow s.pc)
  else
    modify fun s => { s with depth := s.depth - 1 }
    let s ← get
    cell (Row.read? s.stack s.depth)

/-! ## Keys -/

/-- Move the key that a value names. -/
def moveKey (key : Value) (pressed : Bool) : Prog ρ Unit := do
  let key ← ofExcept ((Key.resolve key).mapError .key)
  let s ← get
  let keys ← cell (Row.write? s.keys key.val pressed)
  set { s with keys }

/-- Whether the key is down that the low four bits of a value name. -/
def keyDown (v : Int) : Prog ρ Bool := do
  let s ← get
  cell (Row.read? s.keys (lowBits 4 v))

/-- Attach the events of a value in place of those there were. -/
def schedule (events : Value) : Prog ρ Unit := do
  let events ← ofExcept ((KeyEvent.ofValues events).mapError .events)
  modify fun s => { s with
    pending := (events.map Event.of).mergeSort fun a b => a.tick ≤ b.tick }

/-- Deliver events from the front of the pending ones, one at a time, as long as they are due. -/
def deliver (tick : Int) : List Event → Prog ρ Unit
  | [] => pure ()
  | e :: rest =>
    if e.tick ≤ tick then do
      modify fun s => { s with pending := rest }
      moveKey (.int e.key) e.pressed
      deliver tick rest
    else pure ()

/-! ## The screen -/

/-- Every cell unlit. -/
def clear : Prog ρ Unit := modify fun s => { s with screen := List.replicate (64 * 32) false }

/-- Turn one cell over. The answer is whether it was lit. -/
def toggle (x y : Int) : Prog ρ Bool := do
  let k := y % 32 * 64 + x % 64
  let s ← get
  let wasLit ← cell (Row.read? s.screen k)
  let screen ← cell (Row.write? s.screen k (!wasLit))
  set { s with screen }
  return wasLit

/-- Draw one bit of a sprite row. The answer is whether a lit cell was met, now or before. -/
def drawBit (x y : Int) (bits : UInt8) (hit : Bool) (column : Nat) : Prog ρ Bool :=
  if bits.toNat.testBit (7 - column) then do
    let wasLit ← toggle (x + column) y
    return hit || wasLit
  else pure hit

/-- Draw one row of the sprite at the index, bit by bit from the left. -/
def drawRow (x y : Int) (hit : Bool) (row : Nat) : Prog ρ Bool := do
  let s ← get
  let bits ← byteAt (s.index + row)
  (List.range 8).foldlM (drawBit x (y + row) bits) hit

/-- Draw a sprite, row by row from the top, then set the flag. -/
def draw (i : Instruction) : Prog ρ Unit := do
  let s ← get
  check s.index i.n "sprite read"
  let x ← register i.x
  let y ← register i.y
  let hit ← (List.range i.n.toNat).foldlM (drawRow x y) false
  setRegister 15 (if hit then 1 else 0)

end Bare

end Chip8
