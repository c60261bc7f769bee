import Chip8.Run.Loop

/-!
# Limits of any kind

The limits of a run can be set to any values, and only the run finds out whether they are of use. Its ticks have
to be comparable with the tick limit and divisible by the length of a frame, which fractions are as good for
as integers. A pause tick that is no number is never met.
-/

namespace Chip8

/-- The limits of a run as they are set. -/
structure Limits where
  cyclesPerFrame : Value := .int 15
  tickLimit : Value := .int 100000
  pauseTick : Value := .null
  lenientLog : Value := .bool false

namespace Limits

/-- More ticks than a run takes. -/
def unbounded : Int := 1 <<< (64 : Nat)

/-- The tick that a run from a tick on has to stay below, for a limit that is a number. -/
def tickBound? (start : Int) : Value → Option Int
  | .real .nan => some start
  | .real (.infinity negative) => some (if negative then start else start + unbounded)
  | .real x => x.ceil?
  | v => v.asInt?

/-- The integer that divides the ticks at which a frame of some length ends. Those are the ticks that a ratio in
lowest terms divides if its numerator does. -/
def frameLength? : Value → Option Int
  | .real x =>
    match x.ratio? with
    | some (_, n, d) => some (n / n.gcd d : Nat)
    | none => some unbounded
  | v => v.asInt?

/-- The settings of a run from a tick on. What is no number is put to zero. -/
def settings (l : Limits) (start : Int) : Settings where
  cyclesPerFrame := (frameLength? l.cyclesPerFrame).getD 0
  tickLimit := (tickBound? start l.tickLimit).getD 0
  pauseTick := l.pauseTick.asInt?
  lenientLog := l.lenientLog.truthy

/-- Run within limits. -/
def run {ρ : Type} [ByteSource ρ] (l : Limits) (it : Interpreter ρ) : Ran ρ :=
  if (tickBound? it.machine.tick l.tickLimit).isNone then
    ⟨.error (.unordered l.tickLimit.kind), it, #[]⟩
  else
    let ran := { it with settings := l.settings it.machine.tick }.run
    match frameLength? l.cyclesPerFrame, ran.ending with
    | none, .error .emptyFrame =>
      { ran with ending := .error (.indivisible l.cyclesPerFrame.kind) }
    | _, _ => ran

end Limits

end Chip8
