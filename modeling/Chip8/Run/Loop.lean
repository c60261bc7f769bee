import Chip8.Run.Interpreter

/-!
# Running to an end

A turn of a run delivers the keys due, executes one cycle, moves the tick on and counts the timers down
where a frame ends (`Interpreter.turn`). `Interpreter.run` takes turns until the tick limit, the
pause tick or a fault, looked for in this order. A run breaks off where a frame has no cycles or an
instruction misuses the machine.

The ticks up to the limit are the turns that are left, so the loop is a recursion on their number. A
run that reaches the limit with its last cycle stalled ended waiting for a key.
-/

namespace Chip8

/-- Why a run ended. -/
inductive Ending where
  | stopped
  | paused
  | stalled
  | fault
deriving DecidableEq

/-- The word for an ending. -/
def Ending.name : Ending → String
  | stopped => "stopped"
  | paused => "paused"
  | stalled => "stalled"
  | fault => "fault"

/-- Why a run breaks off. -/
inductive RunError where
  /-- A frame has no cycles, so it cannot be told where one ends. -/
  | emptyFrame
  | misuse (e : Misuse)
  /-- A tick limit of a kind that ticks are not compared with. -/
  | unordered (kind : String)
  /-- A frame whose length is of a kind that ticks are not divided by. -/
  | indivisible (kind : String)
deriving DecidableEq

/-- The text of an error. -/
def RunError.message : RunError → String
  | emptyFrame => "integer modulo by zero"
  | misuse e => e.message
  | unordered kind => "'<' not supported between instances of 'int' and '" ++ kind ++ "'"
  | indivisible kind => "unsupported operand type(s) for %: 'int' and '" ++ kind ++ "'"

/-- What a run leaves, however it ended. -/
structure Ran (ρ : Type) where
  ending : Except RunError Ending
  final : Interpreter ρ
  log : Array LogEntry

/-- What one turn leads to : the next turn after a cycle, or the end of the run. -/
inductive Turn (ρ : Type) where
  | more (state : CycleState) (next : Interpreter ρ) (log : List LogEntry)
  | ended (ending : Except RunError Ending) (final : Interpreter ρ) (log : List LogEntry)

namespace Interpreter

variable {ρ : Type}

/-- Deliver the keys due at the tick. -/
def deliverDue (it : Interpreter ρ) : Interpreter ρ :=
  { it with machine := it.machine.deliver it.machine.tick }

/-- Count the timers down, and the beep if the sound ends. -/
def tickTimers (it : Interpreter ρ) : Interpreter ρ :=
  { it with
    machine := it.machine.tickTimers
    beeps := if it.machine.buzzes then it.beeps + 1 else it.beeps }

/-- The entry for a sound that ends with a timer tick. -/
def buzzLog (it : Interpreter ρ) : List LogEntry :=
  if it.machine.buzzes then [.buzz it.machine.tick] else []

/-- Move on to the next tick. -/
def nextTick (it : Interpreter ρ) : Interpreter ρ :=
  { it with machine := { it.machine with tick := it.machine.tick + 1 } }

/-- Whether a frame ends at the tick. -/
def frameEnds (it : Interpreter ρ) : Bool := it.machine.tick % it.settings.cyclesPerFrame == 0

/-- Whether the run pauses at the tick. -/
def pauses (it : Interpreter ρ) : Bool := it.settings.pauseTick == some it.machine.tick

/-- Take one turn. -/
def turn [ByteSource ρ] (it : Interpreter ρ) : Turn ρ :=
  if it.pauses then .ended (.ok .paused) it (it.trace .paused it.machine.pc)
  else
    let keyLog := KeyEvent.logged it.machine.tick (it.machine.due it.machine.tick)
    let it := it.deliverDue
    match it.cycle with
    | .error (.fault f) => .ended (.ok .fault) it (keyLog ++ [.faulted it.machine.tick f])
    | .error (.misuse e left) => .ended (.error (.misuse e)) left keyLog
    | .ok done =>
      let log := keyLog ++ done.log
      let it := done.next.nextTick
      if it.settings.cyclesPerFrame = 0 then .ended (.error .emptyFrame) it log
      else if it.frameEnds then .more done.state it.tickTimers (log ++ it.buzzLog)
      else .more done.state it log

/-- Take as many turns as are left, after a cycle that ended in `last`. -/
def runFor [ByteSource ρ] (last : CycleState) (log : Array LogEntry) :
    Nat → Interpreter ρ → Ran ρ
  | 0, it => ⟨.ok (if last = .stalled then .stalled else .stopped), it, log⟩
  | left + 1, it =>
    match it.turn with
    | .more state next more => runFor state (log.appendList more) left next
    | .ended ending final more => ⟨ending, final, log.appendList more⟩

/-- The ticks up to the limit. -/
def ticksLeft (it : Interpreter ρ) : Nat := (it.settings.tickLimit - it.machine.tick).toNat

/-- Run to the tick limit, the pause tick or a fault. -/
def run [ByteSource ρ] (it : Interpreter ρ) : Ran ρ := runFor .running #[] it.ticksLeft it

end Interpreter

end Chip8
