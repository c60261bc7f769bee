import Chip8.Command.Options
import Chip8.Run.Program

/-!
# The command line

A session reads the command line, opens the log file, loads the configuration and the key schedule, runs the
program and tells what came of it (`Command.run`). Everything it reads and writes is a tree of files, and
the random bytes of a run without a seed are handed in, so a session is a function : the log file is
emptied before anything is read, and each entry is in it before the next file is opened.

An error that the user can mend is one line of output and an exit status. Any other ends the
session without one.
-/

namespace Chip8.Command

/-- What ends a session without an exit status. -/
inductive Crash where
  | file (e : FileError)
  | config (e : Config.Error)
  | frame (e : RunError)

/-- A session so far. -/
structure Session where
  options : Options
  files : FileTree
  /-- The place of the log file. -/
  logPlace : Location
  /-- What was written, the last piece first. -/
  written : List String := []
  /-- What a run without a seed has its random bytes from. -/
  fresh : Twister := .ofSeed 0

/-- What is left of a session. -/
structure Outcome where
  files : FileTree
  output : String
  ending : Except Crash Nat

namespace Session

/-- Write a text to the output. -/
def write (s : Session) (text : String) : Session := { s with written := text :: s.written }

/-- An entry in the log file. -/
def fileLine (e : LogEntry) : String := e.level ++ " root:processor.py:0 " ++ e.text ++ "\n"

/-- An entry on the output. -/
def outputLine (e : LogEntry) : String := Text.alignRight 5 e.level ++ " " ++ e.text ++ "\n"

/-- Log entries. Nothing is logged unless the session is to be debugged. -/
def log (s : Session) (entries : List LogEntry) : Session :=
  if s.options.debug then
    let lines := Text.Utf8.encode (String.join (entries.map fileLine))
    let s := { s with files := s.files.append s.logPlace lines }
    if s.options.console then s.write (String.join (entries.map outputLine)) else s
  else s

/-- End with an exit status. -/
def exit (s : Session) (status : Nat) : Outcome :=
  ⟨s.files, String.join s.written.reverse, .ok status⟩

/-- End without one. -/
def crash (s : Session) (c : Crash) : Outcome :=
  ⟨s.files, String.join s.written.reverse, .error c⟩

/-- End with a line of output. -/
def fail (s : Session) (status : Nat) (line : String) : Outcome :=
  (s.write (line ++ "\n")).exit status

/-- Tell what came of a run. -/
def tell (s : Session) (r : Program.Report) : Outcome :=
  (s.write (r.display ++ "\nTICKS: " ++ Text.decimal r.ticks ++ "\nSTATE: " ++ r.ending.name ++
    "\nBEEPS: " ++ Text.decimal r.beeps ++ "\n")).exit (if r.ending = .fault then 1 else 0)

/-- Run an image and tell what came of it. -/
def runImage (s : Session) (image : List UInt8) (c : Config) (lines : List Schedule.Line) : Outcome :=
  let keys : Value := .list (lines.map Schedule.Line.value)
  let outcome := Program.run s.files image (.map c.entries) keys s.fresh
  let s := s.log outcome.log.toList
  match outcome.result with
  | .ok report => s.tell report
  | .error (.fault f) => s.fail 1 ("Cannot run program: " ++ f.message)
  | .error (.keys e) => s.fail 1 ("Cannot run program: " ++ e.message)
  | .error (.config e) =>
    if e.isReported then s.fail 1 ("Cannot run program: " ++ e.message) else s.crash (.config e)
  | .error (.frame e) => s.crash (.frame e)

/-- Read the program and run it. -/
def runProgram (s : Session) (c : Config) (lines : List Schedule.Line) : Outcome :=
  match s.files.read s.options.program with
  | .ok image => s.runImage image c lines
  | .error .notFound => s.fail 2 ("Program file not found: " ++ s.options.program)
  | .error e => s.crash (.file e)

/-- Read the key schedule, then run the program. -/
def readSchedule (s : Session) (c : Config) (path : String) : Outcome :=
  match s.files.readExact path with
  | .error .notFound => s.fail 2 ("Key schedule file not found: " ++ path)
  | .error e => s.crash (.file e)
  | .ok bytes =>
    match Schedule.readBytes bytes with
    | .error e => s.fail 2 ("Bad key schedule: " ++ e.message)
    | .ok lines => (s.log [.scheduleRead path lines]).runProgram c lines

/-- Load the configuration, read the key schedule if one is named, and run the program. -/
def loadConfig (s : Session) : Outcome :=
  match Config.load s.files ((s.options.config.map Value.text).getD .null) with
  | .error e =>
    if e.isReported then s.fail 2 ("Bad config: " ++ e.message) else s.crash (.config e)
  | .ok c =>
    match s.options.keySchedule with
    | none | some "" => s.runProgram c []
    | some path => s.readSchedule c path

end Session

/-- Run a session over a tree of files. A run without a seed has its random bytes from `fresh`. -/
def run (files : FileTree) (words : List String) (fresh : Twister := .ofSeed 0) : Outcome :=
  match Options.ofWords words with
  | .error .usage => ⟨files, "", .ok 2⟩
  | .error .help => ⟨files, "", .ok 0⟩
  | .ok options =>
    match files.create options.logfile with
    | .error e => ⟨files, "", .error (.file e)⟩
    | .ok (logPlace, files) => Session.loadConfig { options, files, logPlace, fresh }

end Chip8.Command
