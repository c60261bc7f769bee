import Chip8.Machine.Basic
import Chip8.Schedule.File

/-!
# The log

What a run reports as it goes, entry by entry. `LogEntry.text` is the wording and
`LogEntry.level` the level; only a fault is an error. The entries of the kind `step` trace every
cycle, the others report what happens now and then.
-/

namespace Chip8

/-- How a cycle ended. A stalled one still waits for a key and comes to the same instruction
again. -/
inductive CycleState where
  | running
  | stalled
deriving DecidableEq

/-- What a traced step was : a cycle that executed an instruction, or the pause of a run. -/
inductive Phase where
  | executed (state : CycleState) (instruction : Instruction)
  | paused
deriving DecidableEq

/-- The registers as a traced step shows them. The program counter is the one the step began with. -/
structure Snapshot where
  phase : Phase
  tick : Int
  pc : Int
  index : Int
  depth : Nat
  delay : Int
  sound : Int
  registers : Vector Int 16
deriving DecidableEq

/-- An event that is logged. -/
inductive LogEntry where
  /-- An image was loaded. -/
  | loaded (size : Nat)
  /-- A timeline was attached. -/
  | scheduled (events : Nat)
  /-- A schedule file was read. -/
  | scheduleRead (path : String) (lines : List Schedule.Line)
  /-- An event was delivered, at a tick not before its own. -/
  | keyMoved (tick : Int) (key : Key) (pressed : Bool)
  /-- A wait for a key ended. -/
  | keyTaken (key : Key)
  /-- The sound timer ran out. -/
  | buzz (tick : Int)
  | step (snapshot : Snapshot)
  /-- A run ended in a fault. -/
  | faulted (tick : Int) (fault : Fault)
deriving DecidableEq

namespace Phase

/-- The word for the state in a line of the trace. -/
def stateName : Phase → String
  | executed .running _ => "RUNNING"
  | executed .stalled _ => "STALLED"
  | paused => "PAUSED"

/-- The word for the step in a line of the trace. -/
def stepName : Phase → String
  | executed .. => "EXECUTION"
  | paused => "PAUSE_CHECK"

/-- The instruction in a line of the trace. -/
def instructionText : Phase → String
  | executed _ i => i.mnemonic
  | paused => "pause"

end Phase

/-- The registers in columns, then a tab and the instruction. -/
def Snapshot.text (s : Snapshot) : String :=
  let column (width : Nat) (i : Int) := Text.alignRight width (Text.decimal i)
  "STATE: " ++ Text.alignLeft 8 s.phase.stateName ++
    " STEP: " ++ Text.alignLeft 10 s.phase.stepName ++
    " TICK: " ++ column 5 s.tick ++
    " PC: " ++ Text.hexPadded 3 s.pc ++
    " I: " ++ Text.hexPadded 3 s.index ++
    " SP: " ++ column 2 s.depth ++
    " DT: " ++ column 3 s.delay ++
    " ST: " ++ column 3 s.sound ++
    " V: " ++ " ".intercalate (s.registers.toList.map (Text.hexPadded 2)) ++
    "\tINSTR: " ++ s.phase.instructionText

namespace LogEntry

/-- The text of an entry. -/
def text : LogEntry → String
  | loaded size => "Datapath: loaded " ++ Text.decimal size ++ " bytes at 0x200"
  | scheduled events =>
    "Datapath.schedule_keys called, " ++ Text.decimal events ++ " events attached"
  | scheduleRead path lines =>
    "CLI: parsed key schedule from " ++ path ++ ": [" ++
      ", ".intercalate (lines.map Schedule.Line.literal) ++ "]"
  | keyMoved tick key pressed =>
    "[tick " ++ Text.decimal tick ++ "] key " ++ Text.hex key.val ++
      (if pressed then " down" else " up")
  | keyTaken key => "LD_KEY: got key " ++ Text.hex key.val
  | buzz tick => "[tick " ++ Text.decimal tick ++ "] sound timer expired -> buzz"
  | step snapshot => snapshot.text
  | faulted tick fault => "[tick " ++ Text.decimal tick ++ "] machine fault: " ++ fault.message

/-- How grave an entry is. -/
def level : LogEntry → String
  | faulted .. => "ERROR"
  | _ => "DEBUG"

/-- Whether the entry traces a step. -/
def isStep : LogEntry → Bool
  | step _ => true
  | _ => false

end LogEntry

/-- The entries of events delivered at a tick. -/
def KeyEvent.logged (tick : Int) (events : List KeyEvent) : List LogEntry :=
  events.map fun e => .keyMoved tick e.key e.pressed

end Chip8
