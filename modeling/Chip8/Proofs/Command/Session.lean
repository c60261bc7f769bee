import Mathlib
import Chip8.Command.Session
import Chip8.Proofs.FileTree
import Chip8.Proofs.Run.Refusal

/-!
# What a session tells

A session opens a log file, reads a configuration, a key schedule and an image, runs the image and
tells what came of it (`Command.Account`). The run itself does not know of the session : it is the
same as if the image, the configuration and the lines of the schedule had been handed in.

The log file is none of the files that are read, so they hold the same with the log file open as
without (`FileTree.Spares`), and how a session logs decides about nothing but the messages in front
of what it tells (`Command.Session.Tells`). `Command.sessions_tell_the_run` is this for every
command line that asks for the same files.
-/

namespace Chip8

namespace Command

open Program (Refused)

/-- What a session tells of a program, and its exit status. -/
inductive Account : Except Program.Error Program.Report → String → Nat → Prop
  | ran (r : Program.Report) : Account (.ok r)
    (r.display ++ "\nTICKS: " ++ Text.decimal r.ticks ++ "\nSTATE: " ++ r.ending.name ++
      "\nBEEPS: " ++ Text.decimal r.beeps ++ "\n") (if r.ending = .fault then 1 else 0)
  /-- It tells so in one line. -/
  | refused {e : Program.Error} {message : String} (he : Refused e message)
    (hline : Text.OneLine message) :
    Account (.error e) ("Cannot run program: " ++ message ++ "\n") 1

/-- There is something to tell of every program, and nothing else comes of one. -/
theorem exists_account {ρ : Type} [ByteSource ρ] (source : ρ) (image : List UInt8) {c : Config}
    (hvalid : c.Valid) (lines : List Schedule.Line) : ∃ told status,
      Account (Program.runWith source image c (.list (lines.map Schedule.Line.value))).result
        told status := by
  rcases Program.report_or_refused source image hvalid lines with
    ⟨r, hresult⟩ | ⟨e, message, hresult, he, hline⟩
  · rw [hresult]
    exact ⟨_, _, .ran r⟩
  · rw [hresult]
    exact ⟨_, _, .refused he hline⟩

/-! ## The files of a session -/

/-- The lines that a key schedule gives, none if none is named. -/
inductive Scheduled (files : FileTree) : Option String → List Schedule.Line → Prop
  | none : Scheduled files none []
  | unnamed : Scheduled files (some "") []
  | file {path : String} {bytes : List UInt8} {lines : List Schedule.Line} (hpath : path ≠ "")
    (hread : files.readExact path = .ok bytes) (hlines : Schedule.readBytes bytes = .ok lines) :
    Scheduled files (some path) lines

/-- The files that a command line names hold an image, a configuration and a key schedule. -/
structure Supplied (files : FileTree) (program : String) (config schedule : Option String)
    (image : List UInt8) (c : Config) (lines : List Schedule.Line) : Prop where
  program : files.read program = .ok image
  config : Config.load files ((config.map Value.text).getD .null) = .ok c
  schedule : Scheduled files schedule lines

/-- A command line asks for a program with a configuration and a key schedule. What else it says is
how to log, and where to. -/
structure AsksFor (files : FileTree) (program : String) (config schedule : Option String)
    (words : List String) (o : Options) : Prop where
  options : Options.ofWords words = .ok o
  inputs : o.program = program ∧ o.config = config ∧ o.keySchedule = schedule
  /-- The log file can be written. -/
  writable : ∃ place opened, files.create o.logfile = .ok (place, opened)
  /-- It is none of the files that are read. -/
  apart : ∀ path ∈ program :: (config.toList ++ schedule.toList),
    files.target path ≠ files.target o.logfile

/-- A configuration that is loaded is loaded with a log file open as well. -/
theorem load_of_spares {place : Location} {t u : FileTree} (h : t.Spares place u)
    {config : Option String} {c : Config}
    (hload : Config.load t ((config.map Value.text).getD .null) = .ok c)
    (hend : ∀ path ∈ config, t.target path ≠ place) :
    Config.load u ((config.map Value.text).getD .null) = .ok c := by
  cases config with
  | none => exact hload
  | some path =>
    replace hload : Config.ofFile t path = .ok c := hload
    show Config.ofFile u path = .ok c
    unfold Config.ofFile at hload ⊢
    cases hread : t.read path with
    | error e =>
      rw [hread] at hload
      cases e <;> contradiction
    | ok bytes =>
      rw [hread] at hload
      rw [h.read hread (hend path rfl)]
      exact hload

namespace Session

/-- The messages that are echoed of some entries. -/
def echo (o : Options) (entries : List LogEntry) : String :=
  if o.debug && o.console then String.join (entries.map outputLine) else ""

/-- What has been written. -/
def said (s : Session) : String := String.join s.written.reverse

/-- A session ends with a text behind the messages that it echoes. -/
structure Tells (s : Session) (outcome : Outcome) (told : String) (status : Nat) : Prop where
  ending : outcome.ending = .ok status
  output : ∃ entries, outcome.output = s.said ++ echo s.options entries ++ told
  /-- Without logging no file changes. -/
  files : s.options.debug = false → outcome.files = s.files

/-! ## Logging -/

/-- Logging adds to the log file and to what is written, if it is asked for. -/
theorem log_eq (s : Session) (entries : List LogEntry) : s.log entries = { s with
    files := if s.options.debug then
        s.files.append s.logPlace (Text.Utf8.encode (String.join (entries.map fileLine)))
      else s.files
    written := if s.options.debug && s.options.console then
        String.join (entries.map outputLine) :: s.written
      else s.written } := by
  unfold log
  dsimp only
  cases s.options.debug with
  | false => rfl
  | true => cases s.options.console <;> rfl

theorem options_log (s : Session) (entries : List LogEntry) :
    (s.log entries).options = s.options := by
  rw [log_eq]

theorem files_log (s : Session) (entries : List LogEntry) (hdebug : s.options.debug = false) :
    (s.log entries).files = s.files := by
  rw [log_eq, hdebug]
  rfl

theorem said_write (s : Session) (text : String) : (s.write text).said = s.said ++ text := by
  simp [said, write, String.join_append]

theorem said_log (s : Session) (entries : List LogEntry) :
    (s.log entries).said = s.said ++ echo s.options entries := by
  rw [log_eq, echo]
  cases s.options.debug && s.options.console with
  | false => exact String.append_empty.symm
  | true => exact s.said_write _

theorem echo_nil (o : Options) : echo o [] = "" := by
  unfold echo
  split
  · exact String.join_nil
  · rfl

theorem echo_append (o : Options) (entries more : List LogEntry) :
    echo o (entries ++ more) = echo o entries ++ echo o more := by
  unfold echo
  split
  · rw [List.map_append, String.join_append]
  · rfl

/-- Logging makes no difference but in the log file. -/
theorem spares_log {files : FileTree} {s : Session} (h : files.Spares s.logPlace s.files)
    (hfile : s.files.entry? s.logPlace ≠ some .directory) (entries : List LogEntry) :
    files.Spares s.logPlace (s.log entries).files := by
  rw [log_eq]
  dsimp only
  split
  · exact h.append hfile _
  · exact h

/-! ## The stages of a session -/

theorem tells_exit (s : Session) (told : String) (status : Nat) :
    Tells s ((s.write told).exit status) told status where
  ending := rfl
  output := by
    refine ⟨[], ?_⟩
    rw [echo_nil, String.append_empty]
    exact s.said_write told
  files _ := rfl

/-- A session that logs first tells the same, behind more messages. -/
theorem Tells.of_log {s : Session} {entries : List LogEntry} {outcome : Outcome} {told : String}
    {status : Nat} (h : Tells (s.log entries) outcome told status) :
    Tells s outcome told status where
  ending := h.ending
  output := by
    obtain ⟨more, houtput⟩ := h.output
    refine ⟨entries ++ more, ?_⟩
    rw [houtput, said_log, options_log, echo_append]
    simp only [String.append_assoc]
  files hdebug := by
    rw [h.files (by rw [options_log, hdebug]), files_log s entries hdebug]

section Stages

variable {s : Session} {image : List UInt8} {c : Config} {lines : List Schedule.Line}
  {told : String} {status : Nat}
  (haccount : ∀ (u : FileTree) (fresh : Twister), Account (Program.run u image (.map c.entries)
    (.list (lines.map Schedule.Line.value)) fresh).result told status)

include haccount

theorem tells_runImage : Tells s (s.runImage image c lines) told status := by
  replace haccount := haccount s.files s.fresh
  unfold runImage
  dsimp only
  generalize Program.run s.files image (.map c.entries)
    (.list (lines.map Schedule.Line.value)) s.fresh = outcome at haccount ⊢
  obtain ⟨log, result⟩ := outcome
  dsimp only at haccount ⊢
  refine Tells.of_log (?_ : Tells (s.log log.toList) _ told status)
  cases haccount with
  | ran r => exact tells_exit _ _ _
  | refused he _ =>
    cases he with
    | tooLarge size => exact tells_exit _ _ _
    | badKey e => exact tells_exit _ _ _

theorem tells_runProgram (hread : s.files.read s.options.program = .ok image) :
    Tells s (s.runProgram c lines) told status := by
  rw [runProgram, hread]
  exact tells_runImage haccount

/-- A session that has opened a log file of its own reads what the files held before, and tells what
comes of it. -/
theorem tells_loadConfig {files : FileTree} (hspares : files.Spares s.logPlace s.files)
    (hfile : s.files.entry? s.logPlace ≠ some .directory)
    (hsupplied : Supplied files s.options.program s.options.config s.options.keySchedule image c
      lines)
    (hapart : ∀ path ∈ s.options.program ::
      (s.options.config.toList ++ s.options.keySchedule.toList), files.target path ≠ s.logPlace) :
    Tells s s.loadConfig told status := by
  have hprogram : files.target s.options.program ≠ s.logPlace := hapart _ List.mem_cons_self
  have hconfig : ∀ path ∈ s.options.config, files.target path ≠ s.logPlace := fun path hpath =>
    hapart path (by simp [Option.mem_def.mp hpath])
  have hload := load_of_spares hspares hsupplied.config hconfig
  have hread := hspares.read hsupplied.program hprogram
  have hscheduled := hsupplied.schedule
  simp only [loadConfig, hload]
  cases hnamed : s.options.keySchedule with
  | none =>
    rw [hnamed] at hscheduled
    cases hscheduled
    exact tells_runProgram haccount hread
  | some path =>
    rw [hnamed] at hscheduled
    cases hscheduled with
    | unnamed => exact tells_runProgram haccount hread
    | @file _ bytes _ hpath hbytes hlines =>
      have hexact := hspares.readExact hbytes (hapart path (by simp [hnamed]))
      have hlogged := spares_log hspares hfile [.scheduleRead path lines]
      have hread' : (s.log [.scheduleRead path lines]).files.read
          (s.log [.scheduleRead path lines]).options.program = .ok image := by
        rw [options_log]
        exact hlogged.read hsupplied.program hprogram
      simp only [readSchedule, hexact, hlines]
      exact Tells.of_log (tells_runProgram haccount hread')

end Stages

end Session

/-- Whatever an image, a configuration file and a key schedule hold, a session tells what comes of the
program, as if all of them had been handed in : its picture, ticks, ending and beeps, or one line
about why it cannot run, and the exit status that goes with it. How a session logs, and where to,
makes no difference but for the messages that it echoes in front. Neither do the random bytes of a
run without a seed, for the program takes none. Without logging, the log file is empty. -/
theorem sessions_tell_the_run {files : FileTree} {program : String} {config schedule : Option String}
    {image : List UInt8} {c : Config} {lines : List Schedule.Line}
    (hsupplied : Supplied files program config schedule image c lines)
    {result : Except Program.Error Program.Report}
    (hresult : Program.Yields image (.map c.entries) (.list (lines.map Schedule.Line.value))
      result) :
    ∃ told status, Account result told status ∧
      ∀ words o fresh, AsksFor files program config schedule words o →
        (run files words fresh).ending = .ok status ∧
        (∃ entries, (run files words fresh).output = Session.echo o entries ++ told) ∧
        (o.debug = false →
          (run files words fresh).files.entry? (files.target o.logfile) = some (.file [])) := by
  have hagain := Config.ofEntries_of_load hsupplied.config
  have hrun := hresult.eq_run hagain
  -- the outcome is the same for every source, so any one of them tells it
  obtain ⟨told, status, haccount⟩ := exists_account (Program.source c (.ofSeed 0)) image
    (Config.valid_of_load hsupplied.config) lines
  rw [← Program.run_entries hagain files, hrun files] at haccount
  refine ⟨told, status, haccount, fun words o fresh hasks => ?_⟩
  obtain ⟨place, opened, hcreate⟩ := hasks.writable
  obtain ⟨hplace, hspares, hempty⟩ := FileTree.spares_create hcreate
  obtain ⟨rfl, rfl, rfl⟩ := hasks.inputs
  have hapart := hasks.apart
  rw [← hplace] at hapart ⊢
  let s : Session := { options := o, files := opened, logPlace := place, fresh }
  have hsession : run files words fresh = s.loadConfig := by
    simp only [run, hasks.options, hcreate]
    rfl
  have htells := Session.tells_loadConfig (s := s)
    (fun u fresh => (hrun u fresh).symm ▸ haccount) hspares
    (by simp [s, hempty]) hsupplied hapart
  obtain ⟨entries, houtput⟩ := htells.output
  rw [hsession]
  refine ⟨htells.ending, ⟨entries, houtput⟩, fun hdebug => ?_⟩
  rw [htells.files hdebug]
  exact hempty

/-- A session over three files, whose image is no instruction. -/
theorem session_of_three_files :
    let files : FileTree := {
      entries := [(["p"], .file [0xFF, 0xFF]), (["k"], .file [0x30, 0x20, 0x31]),
        (["c"], .file [0x73, 0x65, 0x65, 0x64, 0x3A, 0x20, 0x31])] }
    let words := ["p", "--config", "c", "--key-schedule", "k", "--logfile", "l"]
    let o : Options := {
      program := "p", keySchedule := some "k", config := some "c", logfile := "l" }
    ∃ c told status, Supplied files "p" (some "c") (some "k") [0xFF, 0xFF] c [⟨0, "1", true⟩] ∧
      AsksFor files "p" (some "c") (some "k") words o ∧ c.seed = some 1 ∧
      Account (Program.run files [0xFF, 0xFF] (.map c.entries)
        (.list [.list [.int 0, .text "1", .bool true]])).result told status ∧
      (run files words).ending = .ok status ∧ (run files words).output = told := by
  intro files words o
  have hconfig : files.read "c" = .ok [0x73, 0x65, 0x65, 0x64, 0x3A, 0x20, 0x31] := by cbv
  have hkeys : files.readExact "k" = .ok [0x30, 0x20, 0x31] := by cbv
  have hprogram : files.read "p" = .ok [0xFF, 0xFF] := by cbv
  have htext : Text.Utf8.decode? [0x73, 0x65, 0x65, 0x64, 0x3A, 0x20, 0x31] = some "seed: 1" := by
    decide +kernel
  have hseed : (Config.ofText "c" "seed: 1").map Config.seed = .ok (some 1) := by decide +kernel
  obtain ⟨c, hc⟩ : ∃ c, Config.ofText "c" "seed: 1" = .ok c := by
    cases hc : Config.ofText "c" "seed: 1" with
    | ok c => exact ⟨c, rfl⟩
    | error e =>
      rw [hc] at hseed
      contradiction
  have hload : Config.load files (.text "c") = .ok c := by
    show Config.ofFile files "c" = .ok c
    simp only [Config.ofFile, hconfig, htext]
    exact hc
  rw [hc] at hseed
  have hseed' : c.seed = some 1 := Except.ok.inj hseed
  have hsupplied : Supplied files "p" (some "c") (some "k") [0xFF, 0xFF] c [⟨0, "1", true⟩] :=
    ⟨hprogram, hload, .file (by decide) hkeys (by decide +kernel)⟩
  have htargets : files.target "p" = ["p"] ∧ files.target "c" = ["c"] ∧ files.target "k" = ["k"] ∧
      files.target "l" = ["l"] := by cbv
  have hasks : AsksFor files "p" (some "c") (some "k") words o := {
    options := by decide +kernel
    inputs := ⟨rfl, rfl, rfl⟩
    writable := ⟨["l"], files.put ["l"] (.file []), by cbv⟩
    apart := by simp [o, htargets] }
  have hagain : Config.load files (.map c.entries) = .ok c := Config.ofEntries_of_load hload
  obtain ⟨told, status, haccount, htold⟩ :=
    sessions_tell_the_run hsupplied (.seeded hagain hseed')
  obtain ⟨hending, ⟨entries, houtput⟩, -⟩ := htold words o (.ofSeed 0) hasks
  exact ⟨c, told, status, hsupplied, hasks, hseed', haccount, hending,
    houtput.trans String.empty_append⟩

end Command

end Chip8
