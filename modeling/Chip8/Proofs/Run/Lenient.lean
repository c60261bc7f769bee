import Chip8.Run.Program

/-!
# Logs without steps

An interpreter can be told to leave the steps out of its log (`Interpreter.lenient`). A cycle then
does what it does otherwise, and its log is the same but for the steps
(`Interpreter.cycle_lenient`). So it is with a turn (`Interpreter.turn_lenient`) and, by induction
on the turns left, with a run (`Interpreter.runFor_lenient`), whether it ends or breaks off, and so
with a program (`Program.runWith_lenient`).

The entries that trace a step are those whose text begins with a word of their own
(`LogEntry.tellsState_eq_isStep`).
-/

namespace Chip8

/-! ## Entries that trace a step -/

/-- What a text begins with, it begins with when more is added. -/
theorem prefix_toList_append {front : List Char} {s : String} (h : front <+: s.toList)
    (t : String) : front <+: (s ++ t).toList := by
  rw [String.toList_append]
  exact h.trans (List.prefix_append _ _)

namespace LogEntry

/-- The word that the text of a step begins with. -/
def stateWord : String := "STATE:"

/-- Whether the text of an entry begins like that of a step. -/
def tellsState (e : LogEntry) : Bool := stateWord.toList.isPrefixOf e.text.toList

theorem text_begins_with_stateWord (snapshot : Snapshot) :
    stateWord.toList <+: (step snapshot).text.toList := by
  have hword : stateWord.toList <+: "STATE: ".toList := ⟨[' '], rfl⟩
  show stateWord.toList <+: snapshot.text.toList
  unfold Snapshot.text
  repeat apply prefix_toList_append
  exact hword

/-- The text of an entry that traces no step begins with another letter. -/
theorem exists_prefix_text {e : LogEntry} (he : e.isStep = false) :
    ∃ c, c ≠ 'S' ∧ [c] <+: e.text.toList := by
  have hbracket (tick rest : String) : ['['] <+: ("[tick " ++ tick ++ rest).toList :=
    prefix_toList_append (prefix_toList_append ⟨_, rfl⟩ _) _
  cases e with
  | step => contradiction
  | loaded | scheduled =>
    exact ⟨'D', by decide, prefix_toList_append (prefix_toList_append ⟨_, rfl⟩ _) _⟩
  | scheduleRead =>
    refine ⟨'C', by decide, prefix_toList_append (prefix_toList_append ?_ _) _⟩
    exact prefix_toList_append (prefix_toList_append ⟨_, rfl⟩ _) _
  | keyMoved =>
    exact ⟨'[', by decide, prefix_toList_append (prefix_toList_append (hbracket _ _) _) _⟩
  | keyTaken => exact ⟨'L', by decide, prefix_toList_append ⟨_, rfl⟩ _⟩
  | buzz => exact ⟨'[', by decide, hbracket _ _⟩
  | faulted => exact ⟨'[', by decide, prefix_toList_append (hbracket _ _) _⟩

theorem tellsState_eq_isStep (e : LogEntry) : e.tellsState = e.isStep := by
  cases he : e.isStep with
  | false =>
    obtain ⟨c, hc, rest, htext⟩ := exists_prefix_text he
    have hword : stateWord.toList = 'S' :: "TATE:".toList := rfl
    rw [tellsState, ← htext, hword]
    simp [List.isPrefixOf, hc.symm]
  | true =>
    cases e with
    | step snapshot => exact List.isPrefixOf_iff_prefix.mpr (text_begins_with_stateWord snapshot)
    | _ => contradiction

end LogEntry

/-! ## Logs without steps -/

/-- The entries of a log that trace no step. -/
def untraced (log : List LogEntry) : List LogEntry := log.filter fun e => !e.isStep

@[simp] theorem untraced_append (log more : List LogEntry) :
    untraced (log ++ more) = untraced log ++ untraced more :=
  List.filter_append ..

@[simp] theorem untraced_logged (tick : Int) (events : List KeyEvent) :
    untraced (KeyEvent.logged tick events) = KeyEvent.logged tick events := by
  simp [untraced, KeyEvent.logged, LogEntry.isStep]

variable {ρ : Type}

namespace Interpreter

/-- The interpreter with a log that leaves steps out. -/
def lenient (it : Interpreter ρ) : Interpreter ρ :=
  { it with settings := { it.settings with lenientLog := true } }

@[simp] theorem untraced_keyLog (m : Machine) (i : Instruction) :
    untraced (keyLog m i) = keyLog m i := by
  unfold keyLog
  split
  · cases m.keys.lowest? <;> rfl
  · rfl

@[simp] theorem untraced_buzzLog (it : Interpreter ρ) : untraced it.buzzLog = it.buzzLog := by
  unfold buzzLog
  split <;> rfl

@[simp] theorem untraced_trace (it : Interpreter ρ) (phase : Phase) (pc : Int) :
    untraced (it.trace phase pc) = [] := by
  unfold trace
  split <;> rfl

@[simp] theorem trace_lenient (it : Interpreter ρ) (phase : Phase) (pc : Int) :
    it.lenient.trace phase pc = [] := rfl

end Interpreter

/-- What a finished cycle leaves to a log without steps. -/
def Cycled.lenient (done : Cycled ρ) : Cycled ρ :=
  ⟨done.state, done.next.lenient, untraced done.log⟩

/-- The same halt in an interpreter with a log that leaves steps out. -/
def Halt.lenient : Halt ρ → Halt ρ
  | .fault f => .fault f
  | .misuse e left => .misuse e left.lenient

/-- What a turn leads to with a log without steps. -/
def Turn.lenient : Turn ρ → Turn ρ
  | .more state next log => .more state next.lenient (untraced log)
  | .ended ending final log => .ended ending final.lenient (untraced log)

namespace Interpreter

variable [ByteSource ρ]

theorem execute_lenient (it : Interpreter ρ) (i : Instruction) :
    it.lenient.execute i = ((it.execute i).map Cycled.lenient).mapError Halt.lenient := by
  have hdraw : it.lenient.draw i = it.draw i := rfl
  have hmachine : it.lenient.machine = it.machine := rfl
  simp only [execute, hdraw, hmachine]
  cases it.machine.execute i (it.draw i).1 with
  | ok machine =>
    simp only [Except.map, Except.mapError_ok, Cycled.lenient, untraced_keyLog]
    rfl
  | error stop => cases stop <;> rfl

theorem cycle_lenient (it : Interpreter ρ) :
    it.lenient.cycle = (it.cycle.map Cycled.lenient).mapError Halt.lenient := by
  have hdecode : it.lenient.decode = it.decode := rfl
  have hadvance : it.lenient.advance = it.advance.lenient := rfl
  simp only [cycle, hdecode, hadvance, execute_lenient]
  cases it.decode with
  | error f => rfl
  | ok i =>
    cases hx : it.advance.execute i with
    | error halt => simp [Except.map, bind, Except.bind, hx]
    | ok done =>
      simp [Except.map, bind, Except.bind, pure, Except.pure, hx, Cycled.lenient]

theorem turn_lenient (it : Interpreter ρ) : it.lenient.turn = it.turn.lenient := by
  have hpauses : it.lenient.pauses = it.pauses := rfl
  have hmachine : it.lenient.machine = it.machine := rfl
  have hdue : it.lenient.deliverDue = it.deliverDue.lenient := rfl
  simp only [turn, hpauses, hmachine, hdue, cycle_lenient]
  split
  · simp only [Turn.lenient, untraced_trace, trace_lenient]
  · cases it.deliverDue.cycle with
    | error halt =>
      cases halt with
      | fault f =>
        simp only [Except.map, Except.mapError_error, Halt.lenient, Turn.lenient,
          untraced_append, untraced_logged]
        rfl
      | misuse e left =>
        simp only [Except.map, Except.mapError_error, Halt.lenient, Turn.lenient,
          untraced_logged]
    | ok done =>
      have hnext : done.next.lenient.nextTick = done.next.nextTick.lenient := rfl
      have hframe (it : Interpreter ρ) :
          it.lenient.settings.cyclesPerFrame = it.settings.cyclesPerFrame := rfl
      have hends (it : Interpreter ρ) : it.lenient.frameEnds = it.frameEnds := rfl
      simp only [Except.map, Except.mapError_ok, Cycled.lenient, hnext, hframe, hends]
      split
      · simp only [Turn.lenient, untraced_append, untraced_logged]
      · split
        · simp only [Turn.lenient, untraced_append, untraced_logged, untraced_buzzLog]
          rfl
        · simp only [Turn.lenient, untraced_append, untraced_logged]

/-- A run with a log that leaves steps out ends in the same way, and only its log differs : it is
the other log without its steps. -/
theorem runFor_lenient (last : CycleState) (log more : Array LogEntry)
    (hlog : more.toList = untraced log.toList) (n : Nat) (it : Interpreter ρ) :
    (runFor last more n it.lenient).ending = (runFor last log n it).ending ∧
      (runFor last more n it.lenient).final = (runFor last log n it).final.lenient ∧
      (runFor last more n it.lenient).log.toList = untraced (runFor last log n it).log.toList := by
  induction n generalizing it last log more with
  | zero => exact ⟨rfl, rfl, hlog⟩
  | succ n ih =>
    simp only [runFor, turn_lenient]
    cases it.turn with
    | more state next entries =>
      refine ih state (log.appendList entries) (more.appendList (untraced entries)) ?_ next
      simp [hlog]
    | ended ending final entries =>
      refine ⟨rfl, rfl, ?_⟩
      simp [Turn.lenient, hlog]

theorem run_lenient (it : Interpreter ρ) :
    it.lenient.run.ending = it.run.ending ∧ it.lenient.run.final = it.run.final.lenient ∧
      it.lenient.run.log.toList = untraced it.run.log.toList :=
  runFor_lenient .running #[] #[] rfl it.ticksLeft it

end Interpreter

namespace Program

variable [ByteSource ρ]

/-- A program does the same with a log that leaves steps out, and this log is the other one without
its steps. -/
theorem runWith_lenient (source : ρ) (image : List UInt8) (c : Config) (keys : Value) :
    (runWith source image { c with lenientLog := true } keys).result =
        (runWith source image c keys).result ∧
      (runWith source image { c with lenientLog := true } keys).log.toList =
        untraced (runWith source image c keys).log.toList := by
  rw [runWith, runWith]
  cases boot image with
  | error e => exact ⟨rfl, rfl⟩
  | ok machine =>
    cases eventsOf keys with
    | error e => exact ⟨rfl, rfl⟩
    | ok events =>
      let it : Interpreter ρ := {
        machine := (events.map machine.schedule).getD machine
        settings := settings c
        source }
      obtain ⟨hending, hfinal, hlog⟩ := it.run_lenient
      refine ⟨?_, ?_⟩
      · show report it.lenient.run = report it.run
        rw [report, report, hending, hfinal]
        rfl
      · show (_ ++ it.lenient.run.log).toList = untraced (_ ++ it.run.log).toList
        rw [Array.toList_append, Array.toList_append, untraced_append, hlog]
        cases events <;> rfl

end Program

end Chip8
