import Chip8.Proofs.Run.Resume
import Chip8.Proofs.Run.Steps

/-!
# The timers of a run

In the steps of a run nothing but the end of a frame counts a timer down, and nothing but its own
instruction sets it (`Interpreter.delay_on`, `Interpreter.sound_on`). So as long as that instruction
is not completed, a timer is less by the number of the frames that ended, and stays at zero
(`Interpreter.delay_after`, `Interpreter.sound_after`).

How many frames end is told by the ticks alone. A turn whose cycle is completed, stalled or not,
moves the tick on by one and ends a frame if the new tick is a multiple of the length of a frame. A
turn that faults does neither (`Interpreter.cadence_turnSteps`). The frames of turns that follow
each other are the multiples that the tick has passed (`Interpreter.TakesTurns.cadence`), so what
becomes of the timers has a closed form (`Interpreter.timers_keep_cadence`).
-/

namespace Chip8

/-- The number of frames that end in steps. -/
def framesEnded (steps : List Step) : Nat := steps.countP Step.endsFrame

@[simp] theorem framesEnded_nil : framesEnded [] = 0 := rfl

@[simp] theorem framesEnded_cons (s : Step) (steps : List Step) :
    framesEnded (s :: steps) = framesEnded steps + if s.endsFrame then 1 else 0 :=
  List.countP_cons

@[simp] theorem framesEnded_append (steps more : List Step) :
    framesEnded (steps ++ more) = framesEnded steps + framesEnded more :=
  List.countP_append

namespace Interpreter

variable {ρ : Type} [ByteSource ρ]

/-- What steps of a run do to the timers, with frames of so many cycles. -/
structure KeepsCadence (cyclesPerFrame : Int) (first : Interpreter ρ) (steps : List Step) :
    Prop where
  /-- A frame ends at each multiple of its length that the tick has passed. -/
  frames : (framesEnded steps : Int) =
    (first.after steps).machine.tick / cyclesPerFrame - first.machine.tick / cyclesPerFrame
  /-- The tick has passed one for each cycle that was completed. -/
  cycles : ((first.seen Step.completed steps).length : Int) =
    (first.after steps).machine.tick - first.machine.tick
  /-- The delay is less by the frames, if it was not set. -/
  delay : (∀ c ∈ first.seen Step.completed steps, c.instruction.op ≠ .ldDt) →
    (first.after steps).machine.delay = max 0 (first.machine.delay - framesEnded steps)
  /-- The sound is less by the frames, if it was not set, and the one that ends is a beep. -/
  sound : (∀ c ∈ first.seen Step.completed steps, c.instruction.op ≠ .ldSt) →
    (first.after steps).machine.sound = max 0 (first.machine.sound - framesEnded steps) ∧
      (first.after steps).beeps = first.beeps +
        if 1 ≤ first.machine.sound ∧ first.machine.sound ≤ framesEnded steps then 1 else 0

/-! ## Timers -/

theorem settings_on {s : Step} (hs : s.OfRun) {it : Interpreter ρ} (h : it.machine.HoldsBytes) :
    (s.on it).settings = it.settings := by
  cases hs with
  | cycle =>
    rcases cycle_cases h with ⟨-, -, hon⟩ | ⟨i, done, -, -, -, -, -, hon⟩
    · rw [hon]
    · rw [hon]
      rfl
  | deliver | nextTick | endFrame => rfl

theorem settings_after {it : Interpreter ρ} {steps : List Step} (hsteps : it.TakesSteps steps) :
    (it.after steps).settings = it.settings := by
  induction hsteps with
  | nil => rfl
  | cons h hs _ ih => rw [after_cons, ih, settings_on hs h]

theorem delay_on {s : Step} (hs : s.OfRun) {it : Interpreter ρ} (h : it.machine.HoldsBytes)
    (hset : ∀ c ∈ s.completed it, c.instruction.op ≠ .ldDt) :
    (s.on it).machine.delay = max 0 (it.machine.delay - if s.endsFrame then 1 else 0) := by
  have hbyte := h.delay
  have hkept : it.machine.delay = max 0 (it.machine.delay - 0) := by omega
  cases hs with
  | cycle =>
    rcases cycle_cases h with ⟨-, -, hon⟩ | ⟨i, done, hi, -, -, -, -, hon⟩
    · rw [hon]
      exact hkept
    · have hother : i.op ≠ .ldDt := hset ⟨it.machine, i⟩ (by simp [Step.completed_of_some hi])
      rw [hon]
      exact (if_neg hother).trans hkept
  | deliver | nextTick => exact hkept
  | endFrame =>
    show (if 0 < it.machine.delay then it.machine.delay - 1 else it.machine.delay) =
      max 0 (it.machine.delay - 1)
    split <;> omega

theorem sound_on {s : Step} (hs : s.OfRun) {it : Interpreter ρ} (h : it.machine.HoldsBytes)
    (hset : ∀ c ∈ s.completed it, c.instruction.op ≠ .ldSt) :
    (s.on it).machine.sound = max 0 (it.machine.sound - if s.endsFrame then 1 else 0) ∧
      (s.on it).beeps =
        it.beeps + if s.endsFrame ∧ it.machine.sound = 1 then 1 else 0 := by
  have hbyte := h.sound
  have hkept : it.machine.sound = max 0 (it.machine.sound - 0) := by omega
  cases hs with
  | cycle =>
    rcases cycle_cases h with ⟨-, -, hon⟩ | ⟨i, done, hi, -, -, -, -, hon⟩
    · rw [hon]
      exact ⟨hkept, rfl⟩
    · have hother : i.op ≠ .ldSt := hset ⟨it.machine, i⟩ (by simp [Step.completed_of_some hi])
      rw [hon]
      exact ⟨(if_neg hother).trans hkept, rfl⟩
  | deliver | nextTick => exact ⟨hkept, rfl⟩
  | endFrame =>
    refine ⟨?_, ?_⟩
    · show (if 0 < it.machine.sound then it.machine.sound - 1 else it.machine.sound) =
        max 0 (it.machine.sound - 1)
      split <;> omega
    · show (if it.machine.sound == 1 then it.beeps + 1 else it.beeps) = _
      by_cases hone : it.machine.sound = 1
      · simp [Step.endsFrame, hone]
      · simp [Step.endsFrame, hone]

theorem delay_after {it : Interpreter ρ} {steps : List Step} (hsteps : it.TakesSteps steps)
    (hset : ∀ c ∈ it.seen Step.completed steps, c.instruction.op ≠ .ldDt) :
    (it.after steps).machine.delay = max 0 (it.machine.delay - framesEnded steps) := by
  induction hsteps with
  | @nil it h =>
    have hbyte := h.delay
    show it.machine.delay = max 0 (it.machine.delay - 0)
    omega
  | cons h hs _ ih =>
    rw [seen_cons] at hset
    have hfirst := delay_on hs h fun c hc => hset c (List.mem_append_left _ hc)
    have hrest := ih fun c hc => hset c (List.mem_append_right _ hc)
    rw [after_cons, hrest, hfirst, framesEnded_cons]
    split <;> omega

theorem sound_after {it : Interpreter ρ} {steps : List Step} (hsteps : it.TakesSteps steps)
    (hset : ∀ c ∈ it.seen Step.completed steps, c.instruction.op ≠ .ldSt) :
    (it.after steps).machine.sound = max 0 (it.machine.sound - framesEnded steps) ∧
      (it.after steps).beeps = it.beeps +
        if 1 ≤ it.machine.sound ∧ it.machine.sound ≤ framesEnded steps then 1 else 0 := by
  induction hsteps with
  | @nil it h =>
    have hbyte := h.sound
    have hnone : ¬ (1 ≤ it.machine.sound ∧ it.machine.sound ≤ (0 : Nat)) := by omega
    refine ⟨?_, ?_⟩
    · show it.machine.sound = max 0 (it.machine.sound - 0)
      omega
    · rw [framesEnded_nil, if_neg hnone]
      rfl
  | @cons it s steps h hs _ ih =>
    rw [seen_cons] at hset
    obtain ⟨hsound, hbeeps⟩ := sound_on hs h fun c hc => hset c (List.mem_append_left _ hc)
    obtain ⟨hsound', hbeeps'⟩ := ih fun c hc => hset c (List.mem_append_right _ hc)
    rw [after_cons, hsound', hbeeps', hbeeps, hsound, framesEnded_cons]
    -- the sound ends in the first step, in one of the others, or not at all
    cases s.endsFrame with
    | true =>
      simp only [if_true, true_and]
      refine ⟨by omega, ?_⟩
      split_ifs <;> omega
    | false =>
      simp only [Bool.false_eq_true, if_false, false_and]
      refine ⟨by omega, ?_⟩
      split_ifs <;> omega

/-! ## The cadence of turns -/

/-- The next number passes a multiple if it is one. -/
theorem add_one_ediv {c : Int} (hc : 0 < c) (t : Int) :
    (t + 1) / c = t / c + if (t + 1) % c = 0 then 1 else 0 := by
  have hdiv := Int.emod_add_mul_ediv t c
  have hlow := Int.emod_nonneg t (Int.ne_of_gt hc)
  have hhigh := Int.emod_lt_of_pos t hc
  by_cases hlast : t % c + 1 = c
  · have hnext : (t + 1) / c = t / c + 1 ∧ (t + 1) % c = 0 := by
      rw [Int.ediv_emod_unique hc, Int.mul_add]
      omega
    rw [hnext.1, if_pos hnext.2]
  · have hnext : (t + 1) / c = t / c ∧ (t + 1) % c = t % c + 1 := by
      rw [Int.ediv_emod_unique hc]
      omega
    rw [hnext.1, if_neg (by omega), Int.add_zero]

/-- A turn whose cycle is completed moves the tick on, and ends a frame if the tick is a multiple of
the length of a frame. Another one does neither. -/
theorem cadence_turnSteps {it : Interpreter ρ} (h : it.machine.HoldsBytes)
    (hframe : 0 < it.settings.cyclesPerFrame) :
    (framesEnded it.turnSteps : Int) =
        (it.after it.turnSteps).machine.tick / it.settings.cyclesPerFrame -
          it.machine.tick / it.settings.cyclesPerFrame ∧
      ((it.seen Step.completed it.turnSteps).length : Int) =
        (it.after it.turnSteps).machine.tick - it.machine.tick := by
  have hseen : it.seen Step.completed it.turnSteps = Step.cycle.completed it.deliverDue :=
    seen_turnSteps (fun _ => rfl) (fun _ => rfl) it
  have hcount : framesEnded it.turnSteps = framesEnded it.deliverDue.closing := by
    simp [turnSteps, Step.endsFrame]
  have hbytes : it.deliverDue.machine.HoldsBytes := h.deliver _
  have hdue : it.deliverDue.machine.tick = it.machine.tick ∧
      it.deliverDue.settings = it.settings := ⟨rfl, rfl⟩
  rw [hseen, hcount, after_turnSteps h, closing_eq hbytes, hdue.1, hdue.2]
  rcases cycle_cases hbytes with ⟨hnone, ⟨f, hc⟩, -⟩ | ⟨i, done, hi, hc, -, -, hnext, -⟩
  · simp only [beat, hc, hnone, Step.completed_of_none hnone, hdue.1, Int.sub_self]
    exact ⟨rfl, rfl⟩
  · have hmoves : done.next.onward.machine.tick = it.machine.tick + 1 := by
      rw [onward_tick, hnext]
      rfl
    simp only [beat, hc, hi, Step.completed_of_some hi, List.length_singleton, hmoves,
      add_one_ediv hframe, Option.isSome_some, if_true]
    refine ⟨?_, by omega⟩
    split
    · have hone : framesEnded [.nextTick, .endFrame] = 1 := rfl
      omega
    · have hzero : framesEnded [.nextTick] = 0 := rfl
      omega

/-- The frames of turns are the multiples of the length of a frame that the tick passes. -/
theorem TakesTurns.cadence {it : Interpreter ρ} {turns : List (List Step)}
    (hturns : it.TakesTurns turns) (h : it.machine.HoldsBytes)
    (hframe : 0 < it.settings.cyclesPerFrame) :
    (framesEnded turns.flatten : Int) =
        (it.after turns.flatten).machine.tick / it.settings.cyclesPerFrame -
          it.machine.tick / it.settings.cyclesPerFrame ∧
      ((it.seen Step.completed turns.flatten).length : Int) =
        (it.after turns.flatten).machine.tick - it.machine.tick := by
  induction hturns with
  | nil => simp
  | @cons it turns hturns ih =>
    have hset := settings_after (takesSteps_turnSteps h)
    obtain ⟨hframes, hcycles⟩ := cadence_turnSteps h hframe
    obtain ⟨hframes', hcycles'⟩ := ih (holdsBytes_after h _) (hset ▸ hframe)
    rw [hset] at hframes'
    rw [List.flatten_cons, framesEnded_append, seen_append, after_append, List.length_append]
    exact ⟨by omega, by omega⟩

/-- A machine that operations lead to runs, under any settings. Whatever turns of the run follow
each other, they keep the cadence of the timers. -/
theorem timers_keep_cadence (source : ρ) (ops : List Operation) {s : Settings}
    (hframe : 0 < s.cyclesPerFrame) :
    let start := (play Operation.on ops (powerOn source)).2.under s
    start.run.final = start.after start.runTurns.flatten ∧
      ∀ before segment rest, start.runTurns = before ++ segment ++ rest →
        KeepsCadence s.cyclesPerFrame (start.after before.flatten) segment.flatten := by
  intro start
  have h : start.machine.HoldsBytes := (bounded_play source ops).toHoldsBytes
  refine ⟨final_run h hframe, fun before segment rest hrun => ?_⟩
  have hturns : start.TakesTurns (before ++ (segment ++ rest)) := by
    rw [← List.append_assoc, ← hrun]
    exact takesTurns_run h hframe
  obtain ⟨hbefore, hturns⟩ := hturns.split
  have hsegment := hturns.split.1
  have hbytes := holdsBytes_after h before.flatten
  have hset : (start.after before.flatten).settings = s := settings_after (hbefore.takesSteps h)
  have hsteps := hsegment.takesSteps hbytes
  obtain ⟨hframes, hcycles⟩ := hsegment.cadence hbytes (by rwa [hset])
  rw [hset] at hframes
  exact ⟨hframes, hcycles, delay_after hsteps, sound_after hsteps⟩

/-- A program that jumps to itself, with frames of two cycles. -/
theorem timers_of_idle_loop :
    let s : Settings := { cyclesPerFrame := 2, tickLimit := 5 }
    let start :=
      (play Operation.on [.load [0x12, 0x00]] (powerOn (CyclicTape.ofList []))).2.under s
    0 < s.cyclesPerFrame ∧ KeepsCadence s.cyclesPerFrame start start.runTurns.flatten := by
  intro s start
  have hframe : 0 < s.cyclesPerFrame := by decide
  have hcadence := (timers_keep_cadence (CyclicTape.ofList []) [.load [0x12, 0x00]] hframe).2
  exact ⟨hframe, hcadence [] start.runTurns [] (List.append_nil _).symm⟩

end Interpreter

end Chip8
