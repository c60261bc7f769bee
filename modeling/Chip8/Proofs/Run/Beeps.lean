import Chip8.Proofs.Run.Program
import Chip8.Proofs.Run.Steps

/-!
# The account of the beeps

An instruction that sets the sound to a register that is not zero owes a beep
(`Completed.startsSound`). The beep is heard when the sound ends, or it is still to come as long as
the sound is running (`Machine.sounding`), or it is lost to a later instruction that sets the sound
while it is running (`Completed.cutsSound`).

No step of a run leaves the account open (`Interpreter.balance_on`), so it balances between any two
points (`Interpreter.balance_after`). A program starts with a sound that is off and no beeps, and
`Program.beeps_are_conserved` follows.
-/

namespace Chip8

namespace Completed

/-- Whether an instruction sets the sound to a register that is not zero. -/
def startsSound (c : Completed) : Bool :=
  c.instruction.op = .ldSt ∧ c.machine.reg c.instruction.vx ≠ 0

/-- Whether an instruction sets the sound while it is running. -/
def cutsSound (c : Completed) : Bool := c.instruction.op = .ldSt ∧ 0 < c.machine.sound

end Completed

/-- One if the sound is running. -/
def Machine.sounding (m : Machine) : Nat := if 0 < m.sound then 1 else 0

variable {ρ : Type} [ByteSource ρ]

namespace Interpreter

/-- The instructions among those completed that set the sound to a register that is not zero. -/
def soundsStarted (it : Interpreter ρ) (steps : List Step) : Nat :=
  (it.seen Step.completed steps).countP Completed.startsSound

/-- The instructions among those completed that set the sound while it is running. -/
def soundsCut (it : Interpreter ρ) (steps : List Step) : Nat :=
  (it.seen Step.completed steps).countP Completed.cutsSound

/-- An instruction that sets the sound starts one, or cuts one off, or both, or neither, and the
account balances. -/
theorem balance_on {s : Step} (hs : s.OfRun) {it : Interpreter ρ} (h : it.machine.HoldsBytes) :
    (s.on it).beeps + (s.on it).machine.sounding + (s.completed it).countP Completed.cutsSound =
      it.beeps + it.machine.sounding + (s.completed it).countP Completed.startsSound := by
  cases hs with
  | deliver | nextTick => rfl
  | cycle =>
    rcases cycle_cases h with ⟨hnone, -, hon⟩ | ⟨i, done, hi, -, -, -, -, hon⟩
    · rw [hon, Step.completed_of_none hnone]
      rfl
    · have hbyte := h.reg i.vx
      have hsound : (it.advance.executed i).machine.sound =
          if i.op = .ldSt then it.machine.reg i.vx else it.machine.sound := rfl
      have hbeeps : (it.advance.executed i).beeps = it.beeps := rfl
      rw [hon, Step.completed_of_some hi, hbeeps]
      simp only [Machine.sounding, hsound, List.countP_singleton, Completed.startsSound,
        Completed.cutsSound, decide_eq_true_eq]
      by_cases hop : i.op = .ldSt
      · simp only [hop, if_true, true_and]
        split_ifs <;> omega
      · simp [hop]
  | endFrame =>
    have hbyte := h.sound
    have hsound : (Step.endFrame.on it).machine.sound =
        if 0 < it.machine.sound then it.machine.sound - 1 else it.machine.sound := rfl
    have hbeeps : (Step.endFrame.on it).beeps =
        if it.machine.sound == 1 then it.beeps + 1 else it.beeps := rfl
    have hcompleted : Step.endFrame.completed it = [] := rfl
    rw [hcompleted, hbeeps, Machine.sounding, Machine.sounding, hsound]
    simp only [List.countP_nil, beq_iff_eq]
    split_ifs <;> omega

/-- Between two points the account balances : the beeps that are heard, still to come or lost at the
second are those of the first and those that were started. -/
theorem balance_after {it : Interpreter ρ} {steps : List Step} (hsteps : it.TakesSteps steps) :
    (it.after steps).beeps + (it.after steps).machine.sounding + it.soundsCut steps =
      it.beeps + it.machine.sounding + it.soundsStarted steps := by
  unfold soundsCut soundsStarted
  induction hsteps with
  | nil => rfl
  | cons h hs _ ih =>
    have hfirst := balance_on hs h
    rw [after_cons, seen_cons, List.countP_append, List.countP_append]
    omega

/-- The account of the beeps after steps of a run that started with the sound off. -/
structure BeepsConserved (start : Interpreter ρ) (steps : List Step) : Prop where
  /-- What was started was heard, is running, or was cut off. -/
  balance : start.soundsStarted steps =
    (start.after steps).beeps + (start.after steps).machine.sounding + start.soundsCut steps
  /-- Each beep that is heard after some of the steps has a start of its own after them, but for one
  whose sound was running then. -/
  own : ∀ front between, steps = front ++ between →
    (start.after steps).beeps ≤ (start.after front).beeps + (start.after front).machine.sounding +
      (start.after front).soundsStarted between
  /-- If beeps are missing, a sound was cut off, or one is still running. -/
  missing : (start.after steps).beeps < start.soundsStarted steps →
    (∃ c ∈ start.seen Step.completed steps, c.cutsSound = true) ∨
      0 < (start.after steps).machine.sound

theorem beepsConserved {start : Interpreter ρ} (hbeeps : start.beeps = 0)
    (hsound : start.machine.sound = 0) {steps : List Step} (hsteps : start.TakesSteps steps) :
    start.BeepsConserved steps := by
  have hbalance := balance_after hsteps
  have hoff : start.machine.sounding = 0 := by simp [Machine.sounding, hsound]
  refine ⟨by omega, ?_, ?_⟩
  · rintro front between rfl
    have hbetween := balance_after hsteps.split.2
    rw [after_append]
    omega
  · intro hfewer
    by_cases hcut : start.soundsCut steps = 0
    · refine Or.inr ?_
      have hon : (start.after steps).machine.sounding ≠ 0 := by omega
      by_contra hsilent
      exact hon (if_neg hsilent)
    · exact Or.inl (List.countP_pos_iff.mp (Nat.pos_of_ne_zero hcut))

end Interpreter

namespace Program

/-- A program runs, whatever its image, its configuration, its key events and its random bytes. It
comes to an end, the report tells of the beeps there, and at every point of its run the beeps are
conserved. -/
theorem beeps_are_conserved (source : ρ) (files : FileTree) (image : List UInt8)
    (config keys : Value) {c : Config} (hconfig : Config.load files config = .ok c)
    {start : Interpreter ρ} (hstart : Program.start source image c keys = .ok start) :
    (∃ told, (runWith source image c keys).result = .ok told ∧
      told.beeps = (start.after start.runTurns.flatten).beeps) ∧
    ∀ steps, steps <+: start.runTurns.flatten → start.BeepsConserved steps := by
  have hvalid := Config.valid_of_load hconfig
  have h : start.machine.HoldsBytes := holdsBytes_start hstart
  have hframe := cyclesPerFrame_start hvalid hstart
  obtain ⟨hbeeps, hsound⟩ : start.beeps = 0 ∧ start.machine.sound = 0 := by
    obtain ⟨memory, pending, rfl⟩ := start_eq_ok hstart
    exact ⟨rfl, rfl⟩
  have hrun := Interpreter.takesSteps_run h hframe
  refine ⟨?_, fun steps hfront => ?_⟩
  · obtain ⟨ending, hresult⟩ := report_of_start hvalid hstart
    exact ⟨_, hresult, congrArg Interpreter.beeps (Interpreter.final_run h hframe)⟩
  · exact Interpreter.beepsConserved hbeeps hsound (hrun.of_prefix hfront)

/-- A program that sets the sound once and then jumps to itself. -/
theorem beeps_of_one_sound :
    let image : List UInt8 := [0x60, 0x02, 0xF0, 0x18, 0x12, 0x04]
    let c : Config := {}
    let start : Interpreter CyclicTape := {
      machine := { Machine.powerOn with
        memory := Machine.powerOn.memory.write Memory.programStart image }
      settings := settings c
      source := .ofList [] }
    (Config.load {} .null = .ok c ∧ Program.start (.ofList []) image c .null = .ok start) ∧
      start.BeepsConserved start.runTurns.flatten := by
  intro image c start
  have hconfig : Config.load {} .null = .ok c := rfl
  have hstart : Program.start (.ofList []) image c .null = .ok start := rfl
  have hconserved :=
    (beeps_are_conserved (CyclicTape.ofList []) {} image .null .null hconfig hstart).2
  exact ⟨⟨hconfig, hstart⟩, hconserved start.runTurns.flatten (List.prefix_refl _)⟩

end Program

end Chip8
