import Chip8.Log
import Chip8.Machine.Execute
import Chip8.Random.Source

/-!
# The interpreter

An interpreter drives a machine : it has the settings of a run, the source of the random bytes and the
count of the beeps. `Interpreter.cycle` fetches, decodes and executes one instruction, and draws a
byte from the source only if the instruction is a random number. A cycle that faults has no
successor, so the interpreter before it stands. A misuse leaves what has happened until then : the program
counter has moved on, and a random byte has been drawn (`Halt`).
-/

namespace Chip8

/-- How long a run lasts, how often its timers tick and what it logs. -/
structure Settings where
  /-- The cycles between two ticks of the timers. -/
  cyclesPerFrame : Int := 15
  /-- The tick before which a run ends. -/
  tickLimit : Int := 100000
  /-- The tick at which a run pauses. -/
  pauseTick : Option Int := none
  /-- Whether the log leaves out the steps. -/
  lenientLog : Bool := false
deriving DecidableEq

/-- The settings that values give, read as they are and without a check of their ranges. -/
def Settings.ofValues (cycles limit pause lenient : Value) : Except IntError Settings := do
  let cyclesPerFrame ← cycles.toInt
  let tickLimit ← limit.toInt
  return { cyclesPerFrame, tickLimit, pauseTick := pause.asInt?, lenientLog := lenient.truthy }

/-- A machine under way, with its settings and its source of random bytes. -/
structure Interpreter (ρ : Type) where
  machine : Machine
  settings : Settings
  source : ρ
  beeps : Nat := 0

/-- What a finished cycle leaves. -/
structure Cycled (ρ : Type) where
  state : CycleState
  next : Interpreter ρ
  log : List LogEntry

/-- Why a cycle is not finished. -/
inductive Halt (ρ : Type) where
  /-- A fault. The interpreter is as it was before the cycle. -/
  | fault (f : Fault)
  /-- A misuse, and the interpreter that it leaves. -/
  | misuse (e : Misuse) (left : Interpreter ρ)

namespace Interpreter

variable {ρ : Type}

/-- The trace of a step that began at `pc`, unless the log leaves steps out. -/
def trace (it : Interpreter ρ) (phase : Phase) (pc : Int) : List LogEntry :=
  if it.settings.lenientLog then []
  else
    let m := it.machine
    [.step {
      phase, pc
      tick := m.tick
      index := m.index
      depth := m.stack.depth
      delay := m.delay
      sound := m.sound
      registers := m.registers }]

/-- The byte an instruction is given, and the source after it. Only a random number takes one. -/
def draw [ByteSource ρ] (it : Interpreter ρ) (i : Instruction) : UInt8 × ρ :=
  if i.op = .rnd then ByteSource.next it.source else (0, it.source)

/-- The entry for the key that an instruction waited for and finds down. -/
def keyLog (m : Machine) (i : Instruction) : List LogEntry :=
  if i.op = .ldKey then (m.keys.lowest?.map LogEntry.keyTaken).toList else []

/-- Execute an instruction, the program counter already past it. -/
def execute [ByteSource ρ] (it : Interpreter ρ) (i : Instruction) : Except (Halt ρ) (Cycled ρ) :=
  let (byte, source) := it.draw i
  match it.machine.execute i byte with
  | .ok machine => .ok {
      state := if it.machine.stalls i then .stalled else .running
      next := { it with machine, source }
      log := keyLog it.machine i }
  | .error (.fault f) => .error (.fault f)
  | .error (.misuse e) => .error (.misuse e { it with source })

/-- The instruction at the program counter. -/
def decode (it : Interpreter ρ) : Except Fault Instruction := do
  let word ← it.machine.fetch
  match Instruction.decode word with
  | .ok i => return i
  | .error e => throw (.decode e.word it.machine.pc)

/-- The interpreter with the program counter past the instruction it is at. -/
def advance (it : Interpreter ρ) : Interpreter ρ :=
  { it with machine := { it.machine with pc := (it.machine.pc + wordSize) % 65536 } }

/-- Fetch, decode and execute one instruction. -/
def cycle [ByteSource ρ] (it : Interpreter ρ) : Except (Halt ρ) (Cycled ρ) := do
  let i ← it.decode.mapError .fault
  let done ← it.advance.execute i
  return { done with
    log := done.log ++ done.next.trace (.executed done.state i) it.machine.pc }

end Interpreter

end Chip8
