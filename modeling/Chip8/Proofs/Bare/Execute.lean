import Chip8.Proofs.Bare.Program

/-!
# The bare machine at work

An instruction is executed by the first program in a table that is there for its operation
(`Bare.programs`, `Bare.execute`), and a cycle puts the program counter back if it ends in a
fault, having moved it on before (`Bare.cycle`). A run takes turns (`Bare.turn`) until one of them
finds that it is over, and it raises an error not to be over after as many turns as it was granted
(`Bare.loop`).

`Bare.operate` and `Bare.perform` are the calls of a history, made on the bare machine.
-/

namespace Chip8

namespace Bare

variable {ρ : Type} [ByteSource ρ] (mask : Mask)

omit [ByteSource ρ] in
/-- A program that never has to wait. -/
def running (p : Prog ρ Unit) : Prog ρ CycleState := do
  p
  return .running

/-- The programs of the operations. A flag is written after the result. -/
def programs (i : Instruction) : List (Opcode × Prog ρ CycleState) :=
  [(.nop, return .running),
    (.cls, running clear),
    (.ret, running do jump (← pop)),
    (.jp, running (jump i.nnn)),
    (.call, running do
      let s ← get
      push mask s.pc
      jump i.nnn),
    (.seImm, running do skipIf ((← register i.x) == i.nn)),
    (.sneImm, running do skipIf ((← register i.x) != i.nn)),
    (.seReg, running do
      let vx ← register i.x
      let vy ← register i.y
      skipIf (vx == vy)),
    (.sneReg, running do
      let vx ← register i.x
      let vy ← register i.y
      skipIf (vx != vy)),
    (.ldImm, running (setRegister i.x i.nn)),
    (.addImm, running do
      let vx ← register i.x
      setRegister i.x ((vx + i.nn) % 256)),
    (.ldReg, running do setRegister i.x (← register i.y)),
    (.or, running do
      let vx ← register i.x
      let vy ← register i.y
      setRegister i.x (Bits.or vx vy)),
    (.and, running do
      let vx ← register i.x
      let vy ← register i.y
      setRegister i.x (Bits.and vx vy)),
    (.xor, running do
      let vx ← register i.x
      let vy ← register i.y
      setRegister i.x (Bits.xor vx vy)),
    (.addReg, running do
      let vx ← register i.x
      let vy ← register i.y
      setFlagged i.x ((vx + vy) % 256) (255 < vx + vy)),
    (.subReg, running do
      let vx ← register i.x
      let vy ← register i.y
      setFlagged i.x ((vx - vy) % 256) (vy ≤ vx)),
    (.subnReg, running do
      let vx ← register i.x
      let vy ← register i.y
      setFlagged i.x ((vy - vx) % 256) (vx ≤ vy)),
    (.shr, running do
      let vx ← register i.x
      setFlagged i.x (vx / 2) (vx % 2 = 1)),
    (.shl, running do
      let vx ← register i.x
      setFlagged i.x (2 * vx % 256) (vx / 128 % 2 = 1)),
    (.ldI, running (modify fun s => { s with index := i.nnn })),
    (.jpV0, running do
      let base ← register 0
      jump (← ofExcept (mask (base + i.nnn)))),
    (.rnd, running do
      let s ← get
      let (byte, source) := ByteSource.next s.source
      set { s with source }
      setRegister i.x (byte &&& UInt8.ofInt i.nn).toNat),
    (.drw, running (draw i)),
    (.skp, running do
      let vx ← register i.x
      skipIf (← keyDown vx)),
    (.sknp, running do
      let vx ← register i.x
      skipIf !(← keyDown vx)),
    (.ldKey, do
      let s ← get
      match s.keys.findIdx? id with
      | some key =>
        setRegister i.x key
        return .running
      | none =>
        modify fun s => { s with pc := s.pc - 2 }
        return .stalled),
    (.ldVxDt, running do
      let s ← get
      setRegister i.x s.delay),
    (.ldDt, running do
      let vx ← register i.x
      modify fun s => { s with delay := vx }),
    (.ldSt, running do
      let vx ← register i.x
      modify fun s => { s with sound := vx }),
    (.addI, running do
      let vx ← register i.x
      modify fun s => { s with index := (s.index + vx) % 65536 }),
    (.ldFont, running do
      let vx ← register i.x
      modify fun s => { s with index := vx * 5 }),
    (.ldBcd, running (storeDigits i)),
    (.storeRegs, running (storeRegisters i)),
    (.loadRegs, running (loadRegisters i))]

/-- Execute an instruction, the program counter already past it. -/
def execute (i : Instruction) : Prog ρ CycleState :=
  match (programs mask i).lookup i.op with
  | some program => program
  | none => throw .unhandled

omit [ByteSource ρ] in
/-- Put the program counter back after a fault, and raise it again. -/
def putBack (pc : Int) : Raised → Prog ρ CycleState
  | .fault f => do
    jump pc
    fail f
  | e => throw e

/-- Fetch, decode and execute one instruction. The program counter goes back to it after a fault. -/
def cycle : Prog ρ CycleState := do
  let start ← get
  let word ← fetch
  match Instruction.decode word with
  | .error _ => fail (.decode word start.pc)
  | .ok i =>
    jump (← ofExcept (mask (start.pc + 2)))
    tryCatch (execute mask i) (putBack start.pc)

omit [ByteSource ρ] in
/-- Count the delay down if it is positive. -/
def countDelay : Prog ρ Unit := do
  let s ← get
  if 0 < s.delay then set { s with delay := s.delay - 1 } else pure ()

omit [ByteSource ρ] in
/-- Count the sound down if it is positive. The answer is whether it ends. -/
def countSound : Prog ρ Bool := do
  let s ← get
  if 0 < s.sound then
    set { s with sound := s.sound - 1 }
    return s.sound == 1
  else return false

omit [ByteSource ρ] in
/-- Count both timers down. The answer is whether the sound ends. -/
def tickTimers : Prog ρ Bool := do
  countDelay
  countSound

omit [ByteSource ρ] in
/-- Count the timers down at the end of a frame, and the beep if the sound ends. -/
def endFrame : Prog ρ Unit := do
  if ← tickTimers then modify fun s => { s with beeps := s.beeps + 1 } else pure ()

omit [ByteSource ρ] in
/-- Move on to the next tick, which may end a frame of a given length. -/
def nextTick (frame : Int) : Prog ρ Unit := do
  modify fun s => { s with tick := s.tick + 1 }
  let s ← get
  if frame = 0 then throw (.run .emptyFrame)
  else if s.tick % frame = 0 then endFrame
  else pure ()

omit [ByteSource ρ] in
/-- A fault ends a run, and any other error breaks it off. -/
def handle : Raised → Prog ρ (Option CycleState)
  | .fault _ => return none
  | e => throw e

/-- A cycle that is expected to fault. -/
def attempt : Prog ρ (Option CycleState) := do return some (← cycle mask)

/-- One turn of a run, after a cycle that ended in `last` : the end of the run, or how the cycle
ended. -/
def turn (settings : Settings) (last : CycleState) : Prog ρ (Ending ⊕ CycleState) := do
  let s ← get
  if settings.tickLimit ≤ s.tick then
    return .inl (if last = .stalled then .stalled else .stopped)
  else if settings.pauseTick = some s.tick then return .inl .paused
  else
    deliver s.tick s.pending
    match ← tryCatch (attempt mask) handle with
    | none => return .inl .fault
    | some state =>
      nextTick settings.cyclesPerFrame
      return .inr state

/-- Take turns until one of them ends the run, but no more than are granted. -/
def loop (settings : Settings) : Nat → CycleState → Prog ρ Ending
  | 0, _ => throw .unfinished
  | granted + 1, last => do
    match ← turn mask settings last with
    | .inl ending => return ending
    | .inr state => loop settings granted state

/-- Run to the tick limit, the pause tick or a fault. A turn is granted for every tick up to the
limit, and one to find that it is reached. -/
def run (settings : Settings) : Prog ρ Answer := do
  let s ← get
  let ending ← loop mask settings ((settings.tickLimit - s.tick).toNat + 1) .running
  let s ← get
  return .ran (Screen.render s.screen) s.tick ending

/-- An operation, made on a bare machine. -/
def operate : Operation → Prog ρ Answer
  | .load image => do
    if image.length > Memory.capacity then fail (.loadSize image.length Memory.capacity)
    else
      modify fun s => { s with memory := Row.splice s.memory 0x200 (0x200 + image.length) image }
      return .done
  | .reset => do
    modify fun s => .powerOn s.source s.beeps
    return .done
  | .cycle => return .cycled (← cycle mask)
  | .tickTimers => return .buzzed (← tickTimers)
  | .run settings _ => run mask settings
  | .moveKey key pressed => do
    moveKey key pressed
    return .done
  | .schedule events => do
    schedule events
    return .done
  | .deliver tick => do
    let s ← get
    deliver tick s.pending
    return .done
  | .toggle x y => return .lit (← toggle x y)
  | .clear => do
    clear
    return .done

/-- A call, made on a bare machine. -/
def perform : Call → Prog ρ Answer
  | .operation o => operate mask o
  | .push address => do
    push mask address
    return .done
  | .pop => return .address (← pop)
  | .fetch => return .word (← fetch)
  | .execute i _ => return .cycled (← execute mask i)

end Bare

end Chip8
