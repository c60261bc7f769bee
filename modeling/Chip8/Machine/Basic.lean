import Chip8.Isa.Instruction
import Chip8.Machine.Memory
import Chip8.Machine.CallStack
import Chip8.Machine.Screen
import Chip8.Machine.Keypad

/-!
# The machine

`Machine` holds memory, the sixteen registers, the program counter and the index register, the
call stack, the keypad, the two timers and the screen, and beside them the tick and the key
events still to come. The program counter and the index are plain integers, since a program
can drive either past the end of memory; every access is checked when it is made. Registers and timers hold
bytes as long as only programs set them, but from outside they can be set to any integer.

An operation that can fail answers with a fault instead of a machine.
-/

namespace Chip8

/-- One of the sixteen registers. -/
abbrev Register := Fin 16

/-- The register that takes the flags. -/
abbrev Register.flag : Register := 15

/-- The register that a jump can start from. -/
abbrev Register.base : Register := 0

/-- The register that an operand names, a negative one counted from the end. -/
def Register.ofOperand? (i : Int) : Option Register :=
  if h : 0 ≤ i ∧ i ≤ 15 then some ⟨i.toNat, by omega⟩
  else if h : -16 ≤ i ∧ i < 0 then some ⟨(i + 16).toNat, by omega⟩
  else none

/-- The state of the machine, with the time and the key events to come. -/
structure Machine where
  memory : Memory
  pc : Int
  registers : Vector Int 16
  index : Int
  stack : CallStack
  keys : Keypad
  delay : Int
  sound : Int
  screen : Screen
  tick : Int
  pending : List KeyEvent

namespace Machine

/-- The machine as it is switched on. -/
def powerOn : Machine where
  memory := .powerOn
  pc := Memory.programStart
  registers := Vector.replicate 16 0
  index := 0
  stack := .empty
  keys := .released
  delay := 0
  sound := 0
  screen := .blank
  tick := 0
  pending := []

/-- The value of a register. -/
def reg (m : Machine) (r : Register) : Int := m.registers[r]

/-- Set a register. -/
def put (m : Machine) (r : Register) (v : Int) : Machine :=
  { m with registers := m.registers.set r v }

theorem reg_put (m : Machine) (r s : Register) (v : Int) :
    (m.put r v).reg s = if r = s then v else m.reg s := by
  simp [reg, put, Vector.getElem_set, Fin.ext_iff]

/-- Copy a program image to the load address. -/
def load (m : Machine) (image : List UInt8) : Except Fault Machine :=
  if image.length > Memory.capacity then .error (.loadSize image.length Memory.capacity)
  else .ok { m with memory := m.memory.write Memory.programStart image }

/-- The word at the program counter. -/
def fetch (m : Machine) : Except Fault Nat := do
  Memory.check m.pc 2 "fetch"
  return 256 * (m.memory.byte m.pc.toNat).toNat + (m.memory.byte (m.pc.toNat + 1)).toNat

/-- Open a call that returns to an address. -/
def push (m : Machine) (address : Int) : Except Fault Machine :=
  match m.stack.push? address with
  | some stack => .ok { m with stack }
  | none => .error (.stackOverflow m.pc)

/-- Close the innermost call. The answer is its return address. -/
def pop (m : Machine) : Except Fault (UInt16 × Machine) :=
  match m.stack.pop? with
  | some (address, stack) => .ok (address, { m with stack })
  | none => .error (.stackUnderflow m.pc)

/-- Move one key. -/
def moveKey (m : Machine) (key : Key) (pressed : Bool) : Machine :=
  { m with keys := m.keys.put key pressed }

/-- Attach a timeline of key events in place of the one there was. -/
def schedule (m : Machine) (events : List KeyEvent) : Machine :=
  { m with pending := KeyEvent.timeline events }

/-- The pending events due at or before a tick. -/
def due (m : Machine) (tick : Int) : List KeyEvent := m.pending.takeWhile (·.tick ≤ tick)

/-- Deliver the events due at or before a tick. -/
def deliver (m : Machine) (tick : Int) : Machine :=
  { m with
    keys := m.keys.deliver (m.due tick)
    pending := m.pending.dropWhile (·.tick ≤ tick) }

/-- Whether a timer tick would end the sound. -/
def buzzes (m : Machine) : Bool := m.sound == 1

/-- Count both timers down as long as they are positive. -/
def tickTimers (m : Machine) : Machine :=
  { m with
    delay := if 0 < m.delay then m.delay - 1 else m.delay
    sound := if 0 < m.sound then m.sound - 1 else m.sound }

end Machine

end Chip8
