import Chip8.Proofs.Command.Session
import Chip8.Proofs.Isa.Words
import Chip8.Proofs.Run.Outcome

/-!
# Faults at the command line

A run that ends in a fault logs the fault, and its report has the name of the ending alone. Without
logging a session writes what the report has (`Command.Session.Begins.run_of_fault`), and its log
file stays empty. So of the fault nothing is told but that there was one, by its name and by the exit
status (`Command.faults_are_told_by_state`).

What is written depends on the screen, the tick and the beeps (`Command.toldOfFault`). Two programs
that leave the same of these run into different faults and are told alike
(`Command.faults_are_told_alike`).
-/

namespace Chip8

namespace Command

/-- What is told of a run that ended in a fault. -/
def toldOfFault (screen : Screen) (tick : Int) (beeps : Nat) : String :=
  screen.picture ++ "\nTICKS: " ++ Text.decimal tick ++ "\nSTATE: " ++ Ending.fault.name ++
    "\nBEEPS: " ++ Text.decimal beeps ++ "\n"

namespace Session

/-- A session without logging opens its log file, and finds an image, a configuration and a key
schedule with which a program begins to run. -/
structure Begins (files : FileTree) (words : List String) (s : Session) (it : Interpreter Twister) :
    Prop where
  options : Options.ofWords words = .ok s.options
  quiet : s.options.debug = false
  opened : files.create s.options.logfile = .ok (s.logPlace, s.files)
  silent : s.written = []
  runs : ∃ image c lines,
    Supplied s.files s.options.program s.options.config s.options.keySchedule image c lines ∧
      Program.start (Program.source c s.fresh) image c (.list (lines.map Schedule.Line.value)) =
        .ok it

variable {s : Session} {image : List UInt8} {c : Config} {lines : List Schedule.Line}

theorem log_of_quiet (hquiet : s.options.debug = false) (entries : List LogEntry) :
    s.log entries = s := by
  rw [log_eq, hquiet]
  rfl

/-- A session without logging goes on to its image with nothing written. -/
theorem loadConfig_of_quiet (hquiet : s.options.debug = false)
    (hsupplied : Supplied s.files s.options.program s.options.config s.options.keySchedule image c
      lines) : s.loadConfig = s.runImage image c lines := by
  have hprogram (lines : List Schedule.Line) : s.runProgram c lines = s.runImage image c lines := by
    rw [runProgram, hsupplied.program]
  have hscheduled := hsupplied.schedule
  simp only [loadConfig, hsupplied.config]
  cases hnamed : s.options.keySchedule with
  | none =>
    rw [hnamed] at hscheduled
    cases hscheduled
    exact hprogram []
  | some path =>
    rw [hnamed] at hscheduled
    cases hscheduled with
    | unnamed => exact hprogram []
    | file hpath hbytes hlines =>
      simp only [readSchedule, hbytes, hlines, log_of_quiet hquiet]
      exact hprogram lines

/-- A session without logging tells the report of the image. -/
theorem runImage_of_quiet (hquiet : s.options.debug = false)
    (hagain : Config.ofEntries c.entries = .ok c) {r : Program.Report}
    (hreport : (Program.runWith (Program.source c s.fresh) image c
      (.list (lines.map Schedule.Line.value))).result = .ok r) :
    s.runImage image c lines = s.tell r := by
  simp only [runImage, Program.run_entries hagain, log_of_quiet hquiet, hreport]

/-- A session that ends with the first text it writes. -/
theorem exit_write (hsilent : s.written = []) (told : String) (status : Nat) :
    (s.write told).exit status = ⟨s.files, told, .ok status⟩ := by
  have hsaid : (s.write told).said = told := by
    rw [said_write, said, hsilent]
    exact String.empty_append
  show (⟨s.files, (s.write told).said, .ok status⟩ : Outcome) = _
  rw [hsaid]

/-- Where a session without logging begins a run that ends in a fault, it tells so and exits with
one. -/
theorem Begins.run_of_fault {files : FileTree} {words : List String} {it : Interpreter Twister}
    (h : Begins files words s it) (hfault : it.run.ending = .ok .fault) :
    run files words s.fresh =
      ⟨s.files, toldOfFault it.run.final.machine.screen it.run.final.machine.tick
        it.run.final.beeps, .ok 1⟩ := by
  obtain ⟨image, c, lines, hsupplied, hstart⟩ := h.runs
  have hreport : (Program.runWith (Program.source c s.fresh) image c
      (.list (lines.map Schedule.Line.value))).result = .ok {
        display := it.run.final.machine.screen.picture
        ticks := it.run.final.machine.tick
        ending := .fault
        beeps := it.run.final.beeps } := by
    rw [Program.result_runWith, hstart]
    show Program.report it.run = _
    rw [Program.report, hfault]
  have hsession : run files words s.fresh = s.loadConfig := by
    obtain ⟨options, opened, place, written, fresh⟩ := s
    obtain rfl : written = [] := h.silent
    simp only [run, h.options, h.opened]
  rw [hsession, loadConfig_of_quiet h.quiet hsupplied,
    runImage_of_quiet h.quiet (Config.ofEntries_of_load hsupplied.config) hreport]
  exact exit_write h.silent _ 1

end Session

/-- Whatever the program, the configuration, the key schedule and the random bytes of a session
without logging, if the run ends in a fault, then the session exits with one and writes the picture,
the tick and the beeps that the run is left with, and the name of the ending. The fault is the one
of the next cycle, and what is written does not depend on it. Neither is it in the log file, which
stays empty. -/
theorem faults_are_told_by_state {files : FileTree} {words : List String} {s : Session}
    {it : Interpreter Twister} (hbegins : s.Begins files words it)
    (hfault : it.run.ending = .ok .fault) :
    (∃ f, it.run.final.cycle = .error (.fault f)) ∧
    (run files words s.fresh).ending = .ok 1 ∧
    (run files words s.fresh).output = toldOfFault it.run.final.machine.screen
      it.run.final.machine.tick it.run.final.beeps ∧
    (run files words s.fresh).files.entry? s.logPlace = some (.file []) := by
  obtain ⟨image, c, lines, hsupplied, hstart⟩ := hbegins.runs
  have hframe : 0 < it.settings.cyclesPerFrame :=
    Program.cyclesPerFrame_start (Config.valid_of_load hsupplied.config) hstart
  rw [hbegins.run_of_fault hfault]
  exact ⟨Interpreter.fault_of_run (Program.holdsBytes_start hstart) hframe hfault, rfl, rfl,
    (FileTree.spares_create hbegins.opened).2.2⟩

/-! ## A program by itself -/

/-- A tree with an image and nothing else. -/
def lone (image : List UInt8) : FileTree := { entries := [(["p"], .file image)] }

/-- The session that runs this image without a configuration and a key schedule. -/
def loneSession (image : List UInt8) : Session where
  options := { program := "p", logfile := "l" }
  files := (lone image).put ["l"] (.file [])
  logPlace := ["l"]

/-- The interpreter that the image begins to run with. -/
def loneStart (image : List UInt8) : Interpreter Twister where
  machine := { Machine.powerOn with
    memory := Machine.powerOn.memory.write Memory.programStart image }
  settings := Program.settings {}
  source := Program.source {}

section Lone

variable {image : List UInt8} (hfits : image.length ≤ 3584)

include hfits

theorem start_lone :
    Program.start (Program.source {}) image {} (.list []) = .ok (loneStart image) := by
  have hload : Machine.powerOn.load image = .ok (loneStart image).machine :=
    if_neg (Nat.not_lt.mpr hfits)
  rw [Program.start, Program.boot, hload]
  rfl

theorem begins_loneSession :
    (loneSession image).Begins (lone image) ["p", "--logfile", "l"] (loneStart image) where
  options := by
    show Options.ofWords ["p", "--logfile", "l"] = .ok { program := "p", logfile := "l" }
    decide +kernel
  quiet := rfl
  opened := by
    show (lone image).create "l" = .ok (["l"], (lone image).put ["l"] (.file []))
    cbv
  silent := rfl
  runs := by
    have hread : (loneSession image).files.read "p" = .ok image := by
      show ((lone image).put ["l"] (.file [])).read "p" = .ok image
      cbv
    exact ⟨image, {}, [], ⟨hread, rfl, .none⟩, start_lone hfits⟩

/-- If the first cycle faults, the run ends where it begins, and the session tells of a blank
screen. -/
theorem lone_of_fault {f : Fault} (hcycle : (loneStart image).cycle = .error (.fault f)) :
    (loneStart image).run.ending = .ok .fault ∧
      (loneStart image).run.final.cycle = .error (.fault f) ∧
      (run (lone image) ["p", "--logfile", "l"]).output = toldOfFault .blank 0 0 := by
  have h : (loneStart image).machine.HoldsBytes := Program.holdsBytes_start (start_lone hfits)
  have hframe : 0 < (loneStart image).settings.cyclesPerFrame := show (0 : Int) < 15 by decide
  have hexit : (loneStart image).exit? = some .fault := by
    have hlimit : ¬ (loneStart image).settings.tickLimit ≤ (loneStart image).machine.tick :=
      show ¬ (100000 : Int) ≤ 0 by decide
    have hpause : (loneStart image).settings.pauseTick ≠ some (loneStart image).machine.tick :=
      nofun
    -- no key is due
    have hcycle' : (loneStart image).deliverDue.cycle = .error (.fault f) := hcycle
    rw [Interpreter.exit?, if_neg hlimit, if_neg hpause, hcycle']
  obtain ⟨hending, hfinal⟩ := Interpreter.run_of_exit h hframe hexit
  replace hfinal : (loneStart image).run.final = loneStart image := hfinal
  have htold : run (lone image) ["p", "--logfile", "l"] = _ :=
    (begins_loneSession hfits).run_of_fault hending
  refine ⟨hending, by rw [hfinal, hcycle], ?_⟩
  rw [htold, hfinal]
  rfl

end Lone

theorem cycle_unknown_word :
    (loneStart [0xFF, 0xFF]).cycle = .error (.fault (.decode 0xFFFF 0x200)) := by
  have h : (loneStart [0xFF, 0xFF]).machine.HoldsBytes :=
    Program.holdsBytes_start (start_lone (by decide))
  have hno : ∀ op : Opcode, op.matchesWord (lowBits 16 0xFFFF) = false := fun op => by
    cases op <;> decide
  have hd : Instruction.decode (0xFFFF : Nat) = .error ⟨0xFFFF⟩ :=
    Instruction.decode_eq_error_iff.mpr ⟨hno, rfl⟩
  exact (Interpreter.cycle_eq_fault_iff h).mpr
    (Or.inl (Interpreter.decode_of_unknown (by decide +kernel) hd))

theorem cycle_return_without_call :
    (loneStart [0x00, 0xEE]).cycle = .error (.fault (.stackUnderflow 0x202)) := by
  have h : (loneStart [0x00, 0xEE]).machine.HoldsBytes :=
    Program.holdsBytes_start (start_lone (by decide))
  let ret : Instruction := { op := .ret }
  have hd : (loneStart [0x00, 0xEE]).decode = .ok ret :=
    Interpreter.decode_of_fetch (by decide +kernel) ret.decode_encode
  exact (Interpreter.cycle_eq_fault_iff h).mpr (Or.inr ⟨ret, hd, by decide +kernel⟩)

/-- A session whose image is no instruction. -/
theorem unknown_word_is_told_by_state :
    (loneSession [0xFF, 0xFF]).Begins (lone [0xFF, 0xFF]) ["p", "--logfile", "l"]
      (loneStart [0xFF, 0xFF]) ∧
    (loneStart [0xFF, 0xFF]).run.ending = .ok .fault ∧
    (run (lone [0xFF, 0xFF]) ["p", "--logfile", "l"]).ending = .ok 1 := by
  have hfits : ([0xFF, 0xFF] : List UInt8).length ≤ 3584 := by decide
  have hbegins := begins_loneSession hfits
  have hfault := (lone_of_fault hfits cycle_unknown_word).1
  exact ⟨hbegins, hfault, (faults_are_told_by_state hbegins hfault).2.1⟩

/-- A word that is no operation's, and a return without a call. Two sessions run into them and write
the same. -/
theorem faults_are_told_alike :
    let words := ["p", "--logfile", "l"]
    (∃ s it, Session.Begins (lone [0xFF, 0xFF]) words s it ∧ it.run.ending = .ok .fault ∧
      it.run.final.cycle = .error (.fault (.decode 0xFFFF 0x200))) ∧
    (∃ s it, Session.Begins (lone [0x00, 0xEE]) words s it ∧ it.run.ending = .ok .fault ∧
      it.run.final.cycle = .error (.fault (.stackUnderflow 0x202))) ∧
    (run (lone [0xFF, 0xFF]) words).output = (run (lone [0x00, 0xEE]) words).output := by
  intro words
  have hfits : ([0xFF, 0xFF] : List UInt8).length ≤ 3584 := by decide
  have hfits' : ([0x00, 0xEE] : List UInt8).length ≤ 3584 := by decide
  obtain ⟨hending, hcycle, houtput⟩ := lone_of_fault hfits cycle_unknown_word
  obtain ⟨hending', hcycle', houtput'⟩ := lone_of_fault hfits' cycle_return_without_call
  exact ⟨⟨_, _, begins_loneSession hfits, hending, hcycle⟩,
    ⟨_, _, begins_loneSession hfits', hending', hcycle'⟩, houtput.trans houtput'.symm⟩

end Command

end Chip8
