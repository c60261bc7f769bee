import Chip8.Config
import Chip8.Random.Twister
import Chip8.Run.Loop
import Chip8.Schedule.Event

/-!
# Running a program

A program image is loaded into a machine that is switched on, key events are attached, and the
machine runs (`Program.runWith`, for any source of random bytes). `Program.run` seeds the
twister and tells the outcome : the picture on the screen, the ticks, the ending and the
beeps. The log is there whether or not the run came about.

Without a seed the state that the twister starts from is not determined by what is handed in, so it
is handed in as well (`Program.source`).
-/

namespace Chip8

namespace Program

/-- Why a program does not run. -/
inductive Error where
  | config (e : Config.Error)
  | fault (f : Fault)
  | keys (e : KeyEvent.Error)
  | frame (e : RunError)

/-- What is told of a run. -/
structure Report where
  display : String
  ticks : Int
  ending : Ending
  beeps : Nat
deriving DecidableEq

/-- What came of a program, and what was logged on the way. -/
structure Outcome where
  log : Array LogEntry
  result : Except Error Report

/-- The report of a run that has ended. -/
def report {ρ : Type} (ran : Ran ρ) : Except Error Report :=
  match ran.ending with
  | .ok ending =>
    .ok {
      display := ran.final.machine.screen.picture
      ticks := ran.final.machine.tick
      ending
      beeps := ran.final.beeps }
  | .error e => .error (.frame e)

/-- The settings that a configuration gives a run. -/
def settings (c : Config) : Settings where
  cyclesPerFrame := c.cyclesPerFrame
  tickLimit := c.tickLimit
  pauseTick := c.pauseTick
  lenientLog := c.lenientLog

/-- The machine with an image loaded. -/
def boot (image : List UInt8) : Except Error Machine := (Machine.powerOn.load image).mapError .fault

/-- The events that a value stands for, none if it counts as no. -/
def eventsOf (keys : Value) : Except Error (Option (List KeyEvent)) :=
  if keys.truthy then ((KeyEvent.ofValues keys).map some).mapError .keys else .ok none

/-- Run an image under a configuration, with key events and a source of random bytes. -/
def runWith {ρ : Type} [ByteSource ρ] (source : ρ) (image : List UInt8) (c : Config) (keys : Value) :
    Outcome :=
  match boot image with
  | .error e => ⟨#[], .error e⟩
  | .ok machine =>
    let loaded : Array LogEntry := #[.loaded image.length]
    match eventsOf keys with
    | .error e => ⟨loaded, .error e⟩
    | .ok events =>
      let machine := (events.map machine.schedule).getD machine
      let log := (events.map fun es => loaded.push (.scheduled es.length)).getD loaded
      let ran := Interpreter.run { machine, settings := settings c, source }
      ⟨log ++ ran.log, report ran⟩

/-- The source of random bytes of a configuration. Without a seed it is `fresh`, which may be any, and
is that of the seed zero where nothing is said. -/
def source (c : Config) (fresh : Twister := .ofSeed 0) : Twister :=
  (c.seed.map Twister.ofSeed).getD fresh

/-- Run an image under the configuration that a value gives. If it has no seed, the random bytes are
those of `fresh`. -/
def run (files : FileTree) (image : List UInt8) (config keys : Value)
    (fresh : Twister := .ofSeed 0) : Outcome :=
  match Config.load files config with
  | .error e => ⟨#[], .error (.config e)⟩
  | .ok c => runWith (source c fresh) image c keys

end Program

end Chip8
