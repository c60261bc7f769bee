import Mathlib.Data.List.Forall2
import Chip8.Proofs.Config.Setting
import Chip8.Proofs.Run.Lenient
import Chip8.Proofs.Run.Program
import Chip8.Proofs.Run.Timers

/-!
# The trace of a run

A cycle that completes an instruction leaves a step in the log, and one that faults leaves none
(`Interpreter.log_cycle`). What else a turn logs traces no step, but for the pause
(`Interpreter.log_turn`), so by induction on the turns left a run traces its cycles in their order,
and then its pause (`Interpreter.log_runFor`).

A step tells the machine after its instruction, but the tick has not moved on yet and the program
counter is where the instruction was fetched, so what it tells of the instruction is what was there
before (`Snapshot.Tells`, `Interpreter.tells_seen`). The cycles of a run are completed at one tick
after the other (`Interpreter.TakesTurns.ticks_completed`). For a program this is put together with
what a log is without its steps in `Program.lenient_log_leaves_out_the_trace`.
-/

namespace Chip8

/-- A step of a trace tells of an instruction that was completed : the tick, where it was fetched,
and the word that was there. -/
structure Snapshot.Tells (s : Snapshot) (c : Completed) : Prop where
  execution : s.phase.stepName = "EXECUTION"
  tick : s.tick = c.machine.tick
  pc : s.pc = c.machine.pc
  /-- It is the instruction of the word that was fetched, though it may have written over it. -/
  word : Instruction.decode c.machine.word = .ok c.instruction
  mnemonic : s.phase.instructionText = c.instruction.mnemonic

variable {ρ : Type}

/-- The entries that a turn leaves. -/
def Turn.log : Turn ρ → List LogEntry
  | .more _ _ log => log
  | .ended _ _ log => log

/-- The entries of a log that trace a step. -/
def traced (log : List LogEntry) : List LogEntry := log.filter LogEntry.isStep

@[simp] theorem traced_append (log more : List LogEntry) :
    traced (log ++ more) = traced log ++ traced more :=
  List.filter_append ..

/-- Nothing is traced in a log that is the same without its steps. -/
theorem traced_eq_nil {log : List LogEntry} (h : untraced log = log) : traced log = [] := by
  rw [traced, List.filter_eq_nil_iff]
  simpa [untraced, List.filter_eq_self] using h

@[simp] theorem traced_logged (tick : Int) (events : List KeyEvent) :
    traced (KeyEvent.logged tick events) = [] :=
  traced_eq_nil (untraced_logged tick events)

namespace Interpreter

/-- What a trace shows of an interpreter, after a step that began at `pc`. -/
def snapshot (it : Interpreter ρ) (phase : Phase) (pc : Int) : Snapshot where
  phase
  tick := it.machine.tick
  pc
  index := it.machine.index
  depth := it.machine.stack.depth
  delay := it.machine.delay
  sound := it.machine.sound
  registers := it.machine.registers

@[simp] theorem traced_keyLog (m : Machine) (i : Instruction) : traced (keyLog m i) = [] :=
  traced_eq_nil (untraced_keyLog m i)

@[simp] theorem traced_buzzLog (it : Interpreter ρ) : traced it.buzzLog = [] :=
  traced_eq_nil (untraced_buzzLog it)

theorem trace_eq {it : Interpreter ρ} (hfull : it.settings.lenientLog = false) (phase : Phase)
    (pc : Int) : it.trace phase pc = [.step (it.snapshot phase pc)] := by
  rw [trace, if_neg (by simp [hfull])]
  rfl

end Interpreter

variable [ByteSource ρ]

/-- What a step leaves in a trace. -/
def Step.traced (s : Step) (it : Interpreter ρ) : List Snapshot :=
  match s with
  | .call .cycle _ =>
    (it.completes?.map fun i =>
      (Step.cycle.on it).snapshot (.executed (it.advance.stateAfter i) i) it.machine.pc).toList
  | _ => []

namespace Interpreter

/-- A cycle traces the instruction that it completes. -/
theorem log_cycle {it : Interpreter ρ} (h : it.machine.HoldsBytes)
    (hfull : it.settings.lenientLog = false) {done : Cycled ρ} (hc : it.cycle = .ok done) :
    traced done.log = (Step.cycle.traced it).map .step := by
  rcases cycle_cases h with ⟨-, ⟨f, hc'⟩, -⟩ | ⟨i, done', hi, hc', hd, hr, hnext, hon⟩
  · rw [hc'] at hc
    contradiction
  · have hlog : done.log = keyLog it.advance.machine i ++
        (it.advance.executed i).trace (.executed (it.advance.stateAfter i) i) it.machine.pc := by
      rw [cycle_eq h, hd] at hc
      simp only [hr, Option.elim_none, Except.ok.injEq] at hc
      rw [← hc]
    have hkept : (it.advance.executed i).settings.lenientLog = false := hfull
    have htraced : Step.cycle.traced it = [(it.advance.executed i).snapshot
        (.executed (it.advance.stateAfter i) i) it.machine.pc] := by
      simp [Step.traced, hi, hon]
    rw [hlog, trace_eq hkept, traced_append, traced_keyLog, htraced]
    rfl

/-- A turn traces its pause, or else its cycle. -/
theorem log_turn {it : Interpreter ρ} (h : it.machine.HoldsBytes)
    (hfull : it.settings.lenientLog = false) :
    traced it.turn.log =
      if it.pauses then [.step (it.snapshot .paused it.machine.pc)]
      else (it.seen Step.traced it.turnSteps).map .step := by
  have hseen : it.seen Step.traced it.turnSteps = Step.cycle.traced it.deliverDue :=
    seen_turnSteps (fun _ => rfl) (fun _ => rfl) it
  have hbytes : it.deliverDue.machine.HoldsBytes := h.deliver _
  have hfull' : it.deliverDue.settings.lenientLog = false := hfull
  simp only [hseen, turn]
  split
  · rw [Turn.log, trace_eq hfull]
    rfl
  · cases hc : it.deliverDue.cycle with
    | error halt =>
      obtain ⟨f, rfl⟩ := cycle_eq_error hbytes hc
      have hnone : it.deliverDue.completes? = none := by rw [completes?, hc]
      simp only [Turn.log, traced_append, traced_logged, Step.traced, hnone]
      rfl
    | ok done =>
      rw [← log_cycle hbytes hfull' hc]
      dsimp only
      split
      · simp only [Turn.log, traced_append, traced_logged, List.nil_append]
      · split
        · simp only [Turn.log, traced_append, traced_logged, traced_buzzLog, List.nil_append,
            List.append_nil]
        · simp only [Turn.log, traced_append, traced_logged, List.nil_append]

/-- The entry that a run traces at its end : one if it pauses. -/
def lastTraced (ran : Ran ρ) : List LogEntry :=
  if ran.ending = .ok .paused then [.step (ran.final.snapshot .paused ran.final.machine.pc)]
  else []

/-- A run traces its cycles, and then its pause. -/
theorem log_runFor {it : Interpreter ρ} (h : it.machine.HoldsBytes)
    (hframe : it.settings.cyclesPerFrame ≠ 0) (hfull : it.settings.lenientLog = false)
    (last : CycleState) (log : Array LogEntry) (n : Nat) :
    traced (runFor last log n it).log.toList =
      traced log.toList ++ (it.seen Step.traced (it.turns n).flatten).map .step ++
        lastTraced (runFor last log n it) := by
  induction n generalizing it last log with
  | zero =>
    have hending : (runFor last log 0 it).ending ≠ .ok .paused := by
      cases last <;> simp [runFor]
    have hnone : lastTraced (runFor last log 0 it) = [] := if_neg hending
    rw [hnone]
    simp [runFor, turns]
  | succ n ih =>
    have hturn := log_turn h hfull
    rw [turns_succ h hframe]
    rcases turn_cases h hframe with ⟨hp, _, ht⟩ | ⟨hp, state, next, _, hb, ht⟩ | ⟨hp, hb, _, ht⟩
    · rw [ht, Turn.log, if_pos hp] at hturn
      simp [runFor, ht, hp, lastTraced, hturn]
    · rw [ht, Turn.log, hp, if_neg Bool.false_ne_true] at hturn
      have hafter : it.after it.turnSteps = next := by rw [after_turnSteps h, hb]
      have hfull' : next.settings.lenientLog = false := by rw [settings_beat h hb, hfull]
      have hrest := ih (holdsBytes_beat h hb) (settings_beat h hb ▸ hframe) hfull' state
      simp [runFor, ht, hp, hb, hrest, hturn, hafter]
    · rw [ht, Turn.log, hp, if_neg Bool.false_ne_true] at hturn
      simp [runFor, ht, hp, hb, lastTraced, hturn]

/-- A trace tells what was completed, one by one. -/
theorem tells_on (s : Step) {it : Interpreter ρ} (h : it.machine.HoldsBytes) :
    List.Forall₂ Snapshot.Tells (s.traced it) (s.completed it) := by
  cases s with
  | set | nextTick | endFrame => exact .nil
  | call o brief =>
    cases o with
    | cycle =>
      show List.Forall₂ Snapshot.Tells (Step.cycle.traced it) (Step.cycle.completed it)
      rcases cycle_cases h with ⟨hnone, -⟩ | ⟨i, done, hi, -, hd, -, -, hon⟩
      · simp [Step.traced, Step.completed, hnone]
      · rw [Step.completed_of_some hi]
        simp only [Step.traced, hi]
        refine .cons ⟨rfl, ?_, rfl, (decode_eq_ok hd).2.2, rfl⟩ .nil
        rw [hon]
        rfl
    | _ => exact .nil

theorem tells_seen (steps : List Step) {it : Interpreter ρ} (h : it.machine.HoldsBytes) :
    List.Forall₂ Snapshot.Tells (it.seen Step.traced steps) (it.seen Step.completed steps) := by
  induction steps generalizing it with
  | nil => exact .nil
  | cons s steps ih => exact List.rel_append (tells_on s h) (ih (holdsBytes_on s h))

omit [ByteSource ρ] in
theorem ticks_eq_of_tells {trace : List Snapshot} {done : List Completed}
    (h : List.Forall₂ Snapshot.Tells trace done) :
    trace.map (·.tick) = done.map (·.machine.tick) := by
  induction h with
  | nil => rfl
  | cons h _ ih => rw [List.map_cons, List.map_cons, h.tick, ih]

/-- The cycles of turns are completed at ticks that follow each other. -/
theorem TakesTurns.ticks_completed {it : Interpreter ρ} {turns : List (List Step)}
    (hturns : it.TakesTurns turns) (h : it.machine.HoldsBytes)
    (hframe : 0 < it.settings.cyclesPerFrame) :
    (it.seen Step.completed turns.flatten).map (·.machine.tick) =
      (List.range (it.seen Step.completed turns.flatten).length).map
        fun k : Nat => it.machine.tick + k := by
  induction hturns with
  | nil => rfl
  | @cons it turns hturns ih =>
    have hseen : it.seen Step.completed it.turnSteps = Step.cycle.completed it.deliverDue :=
      seen_turnSteps (fun _ => rfl) (fun _ => rfl) it
    have hcycles := (cadence_turnSteps h hframe).2
    have hset := settings_after (takesSteps_turnSteps h)
    have hrest := ih (holdsBytes_after h _) (hset ▸ hframe)
    rw [List.flatten_cons, seen_append, List.map_append, hrest, List.length_append, hseen]
    rw [hseen] at hcycles
    cases hi : it.deliverDue.completes? with
    | none =>
      rw [Step.completed_of_none hi] at hcycles ⊢
      have hstays : (it.after it.turnSteps).machine.tick = it.machine.tick := by
        rw [List.length_nil] at hcycles
        omega
      simp [hstays]
    | some i =>
      rw [Step.completed_of_some hi] at hcycles ⊢
      have hmoves : (it.after it.turnSteps).machine.tick = it.machine.tick + 1 := by
        rw [List.length_singleton] at hcycles
        omega
      have hhere : it.deliverDue.machine.tick = it.machine.tick := rfl
      simp [hmoves, hhere, Nat.add_comm 1, List.range_succ_eq_map, Function.comp_def,
        Int.add_assoc, Int.add_comm 1]

end Interpreter

namespace Program

/-- What the messages of a run tell that begin like those of steps. -/
structure Trace (start : Interpreter ρ) (told : Report) (messages : List LogEntry)
    (cycles : List Snapshot) : Prop where
  /-- There is one for each cycle, and one for the pause if the run is paused. -/
  messages_eq : messages = cycles.map .step ++
    if told.ending = .paused then
      [.step (start.run.final.snapshot .paused start.run.final.machine.pc)]
    else []
  /-- The cycles are those of the run that complete an instruction, in their order. -/
  tells : List.Forall₂ Snapshot.Tells cycles (start.seen Step.completed start.runTurns.flatten)
  /-- Their ticks are the numbers below the ticks of the run. -/
  ticks : cycles.map (·.tick) = (List.range told.ticks.toNat).map fun k : Nat => (k : Int)
  count : (messages.length : Int) = told.ticks + if told.ending = .paused then 1 else 0

omit [ByteSource ρ] in
theorem report_eq_ok {ran : Ran ρ} {told : Report} (h : report ran = .ok told) :
    ran.ending = .ok told.ending ∧ told.ticks = ran.final.machine.tick := by
  unfold report at h
  split at h
  · next ending hending =>
    obtain rfl := Except.ok.inj h
    exact ⟨hending, rfl⟩
  · contradiction

/-- The log of a program is that of its run, after entries that trace no step. -/
theorem log_runWith {source : ρ} {image : List UInt8} {c : Config} {keys : Value}
    {it : Interpreter ρ} (h : start source image c keys = .ok it) :
    traced (runWith source image c keys).log.toList = traced it.run.log.toList := by
  unfold start at h
  obtain ⟨machine, hboot, h⟩ := bind_eq_ok_iff.mp h
  obtain ⟨events, hevents, h⟩ := bind_eq_ok_iff.mp h
  obtain rfl := Except.ok.inj h
  simp only [runWith, hboot, hevents, Array.toList_append, traced_append]
  cases events <;> rfl

/-- The trace of a program that runs with a log that leaves nothing out. -/
theorem exists_trace {source : ρ} {image : List UInt8} {c : Config} {keys : Value}
    {it : Interpreter ρ} (hvalid : c.Valid) (hfull : c.lenientLog = false)
    (hstart : start source image c keys = .ok it) {told : Report}
    (htold : (runWith source image c keys).result = .ok told) :
    ∃ cycles, Trace it told (traced (runWith source image c keys).log.toList) cycles := by
  have h := holdsBytes_start hstart
  have hframe := cyclesPerFrame_start hvalid hstart
  obtain ⟨htick, hlog⟩ : it.machine.tick = 0 ∧ it.settings.lenientLog = false := by
    obtain ⟨memory, pending, rfl⟩ := start_eq_ok hstart
    exact ⟨rfl, hfull⟩
  rw [result_runWith, hstart] at htold
  obtain ⟨hending, hticks⟩ := report_eq_ok htold
  have hturns := Interpreter.takesTurns_run h hframe
  have htells := Interpreter.tells_seen it.runTurns.flatten h
  have hcycles := (hturns.cadence h hframe).2
  rw [← Interpreter.final_run h hframe, ← hticks, htick, ← htells.length_eq] at hcycles
  have hmessages : traced (runWith source image c keys).log.toList =
      (it.seen Step.traced it.runTurns.flatten).map .step ++
        if told.ending = .paused then
          [.step (it.run.final.snapshot .paused it.run.final.machine.pc)]
        else [] := by
    have htraced := Interpreter.log_runFor h (Int.ne_of_gt hframe) hlog .running #[] it.ticksLeft
    have hlast : Interpreter.lastTraced it.run = if told.ending = .paused then
        [.step (it.run.final.snapshot .paused it.run.final.machine.pc)] else [] := by
      simp only [Interpreter.lastTraced, hending, Except.ok.injEq]
    rw [log_runWith hstart, ← hlast]
    exact htraced
  refine ⟨_, hmessages, htells, ?_, ?_⟩
  · have hcount : (it.seen Step.completed it.runTurns.flatten).length = told.ticks.toNat := by
      rw [← htells.length_eq]
      omega
    rw [Interpreter.ticks_eq_of_tells htells, hturns.ticks_completed h hframe, hcount, htick]
    simp
  · rw [hmessages, List.length_append, List.length_map]
    split <;> simp <;> omega

/-- A program runs under a mapping that sets the log. Whether steps are left out of the log changes
nothing else : the same comes of the program, be it a report or an error, and the entries that are
left out are those whose messages begin like that of a step. If the program runs to an end, they
trace the cycles of its run. -/
theorem lenient_log_leaves_out_the_trace (files : FileTree) (image : List UInt8)
    (given : List (Value × Value)) (keys : Value) (fresh : Twister) :
    let full := run files image (.map (Config.setLenient given false)) keys fresh
    let lenient := run files image (.map (Config.setLenient given true)) keys fresh
    lenient.result = full.result ∧
      lenient.log.toList = full.log.toList.filter (fun e => !e.tellsState) ∧
      ∀ told, full.result = .ok told → ∃ c start cycles,
        Config.load files (.map (Config.setLenient given false)) = .ok c ∧
        Program.start (source c fresh) image c keys = .ok start ∧
        Trace start told (full.log.toList.filter LogEntry.tellsState) cycles := by
  intro full lenient
  have hlenient := Config.ofEntries_setLenient given true
  cases hload : Config.ofEntries (Config.setLenient given false) with
  | error e =>
    rw [hload] at hlenient
    have hfull : full = ⟨#[], .error (.config e)⟩ := by
      show run files image _ keys fresh = _
      rw [run, Config.load, hload]
    have hother : lenient = ⟨#[], .error (.config e)⟩ := by
      show run files image _ keys fresh = _
      rw [run, Config.load, hlenient]
      rfl
    rw [hfull, hother]
    refine ⟨rfl, rfl, fun told htold => ?_⟩
    contradiction
  | ok c =>
    rw [hload] at hlenient
    have hloadFull : Config.load files (.map (Config.setLenient given false)) = .ok c := hload
    have hloadLenient : Config.load files (.map (Config.setLenient given true)) =
        .ok { c with lenientLog := true } := hlenient
    have hfull : full = runWith (source c fresh) image c keys :=
      run_of_load hloadFull image keys fresh
    have hother : lenient = runWith (source c fresh) image { c with lenientLog := true } keys :=
      run_of_load hloadLenient image keys fresh
    have hlog : c.lenientLog = false := by
      have hset := (Config.ofEntries_eq_ok_iff.mp hload).lenient
      rw [Config.setting, Config.setLenient, Value.lookup?_setKey_same] at hset
      exact (Value.bool.inj hset).symm
    have htells : LogEntry.tellsState = LogEntry.isStep := funext LogEntry.tellsState_eq_isStep
    obtain ⟨hresult, huntraced⟩ := runWith_lenient (source c fresh) image c keys
    rw [hfull, hother, htells]
    refine ⟨hresult, huntraced, fun told htold => ?_⟩
    cases hstart : start (source c fresh) image c keys with
    | error e =>
      rw [result_runWith, hstart] at htold
      contradiction
    | ok it =>
      obtain ⟨cycles, htrace⟩ := exists_trace (Config.valid_of_ofEntries hload) hlog hstart htold
      exact ⟨c, it, cycles, hload, hstart, htrace⟩

/-- A program that jumps to itself until it is paused at the third tick. -/
theorem trace_of_paused_loop :
    let given : List (Value × Value) := [(.text "pause_tick", .int 2)]
    let full := run {} [0x12, 0x00] (.map (Config.setLenient given false)) .null
    ∃ told c start cycles, full.result = .ok told ∧
      Program.start (source c) [0x12, 0x00] c .null = .ok start ∧
      Trace start told (full.log.toList.filter LogEntry.tellsState) cycles := by
  intro given full
  let c : Config := { pauseTick := some 2 }
  have hload : Config.load {} (.map (Config.setLenient given false)) = .ok c := rfl
  have hfull : full = runWith (source c) [0x12, 0x00] c .null := run_of_load hload _ _ _
  let it : Interpreter Twister := {
    machine := { Machine.powerOn with
      memory := Machine.powerOn.memory.write Memory.programStart [0x12, 0x00] }
    settings := settings c
    source := source c }
  have hstart : start (source c) [0x12, 0x00] c .null = .ok it := rfl
  obtain ⟨ending, hresult⟩ := report_of_start (Config.valid_of_load hload) hstart
  have hprogram := lenient_log_leaves_out_the_trace {} [0x12, 0x00] given .null (.ofSeed 0)
  obtain ⟨c, start, cycles, -, hstart, htrace⟩ := hprogram.2.2 _ (hfull ▸ hresult)
  exact ⟨_, c, start, cycles, hfull ▸ hresult, hstart, htrace⟩

end Program

end Chip8
