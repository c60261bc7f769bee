import Chip8.Proofs.Config.Normal
import Chip8.Proofs.History

/-!
# Programs that run

An image that fits and key events that are in order give an interpreter that is switched on but for
its memory and its events (`Program.start_eq_ok`). From there the run comes to an end under a
configuration that is loaded, and what is told of the program is the report of that run
(`Program.report_of_start`).
-/

namespace Chip8

namespace Program

variable {ρ : Type} [ByteSource ρ]

/-- The interpreter that a program begins to run with. -/
def start (source : ρ) (image : List UInt8) (c : Config) (keys : Value) :
    Except Error (Interpreter ρ) := do
  let machine ← boot image
  let events ← eventsOf keys
  return {
    machine := (events.map machine.schedule).getD machine
    settings := settings c
    source }

/-- A program runs under the configuration that is loaded. -/
theorem run_of_load {files : FileTree} {config : Value} {c : Config}
    (hload : Config.load files config = .ok c) (image : List UInt8) (keys : Value)
    (fresh : Twister) :
    run files image config keys fresh = runWith (source c fresh) image c keys := by
  rw [run, hload]

/-- What comes of a program is the report of its run, if it begins to run. -/
theorem result_runWith (source : ρ) (image : List UInt8) (c : Config) (keys : Value) :
    (runWith source image c keys).result = start source image c keys >>= fun it => report it.run := by
  rw [runWith, start]
  cases boot image with
  | error e => rfl
  | ok machine =>
    cases eventsOf keys with
    | error e => rfl
    | ok events => rfl

omit [ByteSource ρ] in
/-- A program begins to run on a machine that is switched on, with memory and events of its own. -/
theorem start_eq_ok {source : ρ} {image : List UInt8} {c : Config} {keys : Value}
    {it : Interpreter ρ} (h : start source image c keys = .ok it) :
    ∃ memory pending, it = {
      machine := { Machine.powerOn with memory, pending }
      settings := settings c
      source } := by
  unfold start boot Machine.load at h
  obtain ⟨machine, hboot, h⟩ := bind_eq_ok_iff.mp h
  obtain ⟨events, -, h⟩ := bind_eq_ok_iff.mp h
  obtain rfl := Except.ok.inj h
  split at hboot
  · contradiction
  · obtain rfl := Except.ok.inj hboot
    cases events with
    | none => exact ⟨_, _, rfl⟩
    | some events => exact ⟨_, _, rfl⟩

omit [ByteSource ρ] in
theorem holdsBytes_start {source : ρ} {image : List UInt8} {c : Config} {keys : Value}
    {it : Interpreter ρ} (h : start source image c keys = .ok it) : it.machine.HoldsBytes := by
  obtain ⟨memory, pending, rfl⟩ := start_eq_ok h
  have hkept {m : Machine} (h : m.HoldsBytes) : ({ m with memory, pending } : Machine).HoldsBytes :=
    ⟨h.reg, h.delay, h.sound⟩
  exact hkept .powerOn

omit [ByteSource ρ] in
theorem cyclesPerFrame_start {source : ρ} {image : List UInt8} {c : Config} {keys : Value}
    {it : Interpreter ρ} (hvalid : c.Valid) (h : start source image c keys = .ok it) :
    0 < it.settings.cyclesPerFrame := by
  obtain ⟨memory, pending, rfl⟩ := start_eq_ok h
  exact hvalid.cyclesPerFrame

/-- A program that begins to run under a valid configuration comes to an end, and the report tells
where its run has led. -/
theorem report_of_start {source : ρ} {image : List UInt8} {c : Config} {keys : Value}
    {it : Interpreter ρ} (hvalid : c.Valid) (h : start source image c keys = .ok it) :
    ∃ ending, (runWith source image c keys).result = .ok {
      display := it.run.final.machine.screen.picture
      ticks := it.run.final.machine.tick
      ending
      beeps := it.run.final.beeps } := by
  have hbytes := holdsBytes_start h
  have hframe : it.settings.cyclesPerFrame ≠ 0 := Int.ne_of_gt (cyclesPerFrame_start hvalid h)
  have hending := (Interpreter.runFor_eq_course hbytes hframe .running #[] it.ticksLeft).1
  rw [← Interpreter.run] at hending
  refine ⟨(it.course .running it.ticksLeft).1, ?_⟩
  rw [result_runWith, h]
  show report it.run = _
  rw [report, hending]

end Program

end Chip8
