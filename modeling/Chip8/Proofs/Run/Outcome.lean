import Mathlib.Data.Nat.Find
import Chip8.Proofs.Run.Timers

/-!
# How a run ends

Three things end a run, and at every tick they are looked for in the same order : the limit, the
pause, and a fault of the cycle that follows the keys due (`Interpreter.exit?`). As long as there is
none of them, the run goes on from beat to beat (`Interpreter.course_of_exit_none`). The first one
that there is ends it (`Interpreter.course_of_exit`), and since every beat moves the tick on, the
limit is reached if nothing else ends the run (`Interpreter.exists_firstExit`).

`Interpreter.runs_end_at_first_exit` puts this together for a machine that operations lead to. What
the run is told to end in depends on the first exit alone, and at the limit on whether the last
cycle of this run stalled.
-/

namespace Chip8

/-- What ends a run. -/
inductive Exit where
  | limit
  | pause
  | fault

namespace Exit

/-- How a run is told to end, after a cycle that ended in `last`. -/
def ending (last : CycleState) : Exit → Ending
  | limit => if last = .stalled then .stalled else .stopped
  | pause => .paused
  | fault => .fault

variable (exit : Exit) (last : CycleState)

theorem ending_eq_fault_iff : exit.ending last = .fault ↔ exit = fault := by
  cases exit <;> cases last <;> simp [ending]

theorem ending_eq_paused_iff : exit.ending last = .paused ↔ exit = pause := by
  cases exit <;> cases last <;> simp [ending]

theorem ending_eq_stalled_iff :
    exit.ending last = .stalled ↔ exit = limit ∧ last = .stalled := by
  cases exit <;> cases last <;> simp [ending]

theorem ending_eq_stopped_iff :
    exit.ending last = .stopped ↔ exit = limit ∧ ¬ last = .stalled := by
  cases exit <;> cases last <;> simp [ending]

end Exit

namespace Interpreter

variable {ρ : Type} [ByteSource ρ]

/-- What ends a run at a tick : its limit, or else its pause, or else a fault of the cycle after the
keys due. -/
def exit? (it : Interpreter ρ) : Option Exit :=
  if it.settings.tickLimit ≤ it.machine.tick then some .limit
  else if it.settings.pauseTick = some it.machine.tick then some .pause
  else
    match it.deliverDue.cycle with
    | .ok _ => none
    | .error _ => some .fault

/-- What a run leaves where something ends it : a fault comes after the keys due, the limit and the
pause before. -/
def leaves (it : Interpreter ρ) : Exit → Interpreter ρ
  | .fault => it.deliverDue
  | .limit | .pause => it

/-- Something ends a run after a number of beats, and nothing does before. -/
structure FirstExit (start : Interpreter ρ) (n : Nat) (exit : Exit) : Prop where
  before : ∀ k < n, (start.beats k).exit? = none
  here : (start.beats n).exit? = some exit

/-- The last of a number of beats had a cycle that stalled. -/
def LastStalled (start : Interpreter ρ) : Nat → Prop
  | 0 => False
  | n + 1 => ∃ done, (start.beats n).deliverDue.cycle = .ok done ∧ done.state = .stalled

/-- What becomes of a run that something ends after a number of beats. -/
structure Outcome (start : Interpreter ρ) (n : Nat) (exit : Exit) (ending : Ending) : Prop
    extends FirstExit start n exit where
  /-- Until then the keys due are delivered, a cycle is completed, the tick moves on, and the timers
  count down where a frame ends. -/
  way : ∀ k < n, ∃ done, (start.beats k).deliverDue.cycle = .ok done ∧
    start.beats (k + 1) = done.next.onward
  tick : ∀ k ≤ n, (start.beats k).machine.tick = start.machine.tick + k
  settings : ∀ k, (start.beats k).settings = start.settings
  /-- The run completes a cycle for each beat, and no other. -/
  completed : (start.seen Step.completed start.runTurns.flatten).length = n
  ran : start.run.ending = .ok ending
  fault_iff : ending = .fault ↔ exit = .fault
  paused_iff : ending = .paused ↔ exit = .pause
  stalled_iff : ending = .stalled ↔ exit = .limit ∧ start.LastStalled n
  stopped_iff : ending = .stopped ↔ exit = .limit ∧ ¬ start.LastStalled n
  /-- A fault leaves nothing of its turn but the keys delivered. -/
  final_of_fault : exit = .fault → (∃ f, (start.beats n).deliverDue.cycle = .error (.fault f)) ∧
    start.run.final = (start.beats n).deliverDue
  /-- Another exit leaves nothing of its turn. -/
  final : exit ≠ .fault → start.run.final = start.beats n

/-! ## One turn -/

/-- What is there where a run ends, and where it does not. -/
theorem exit_spec {it : Interpreter ρ} (h : it.machine.HoldsBytes) :
    match it.exit? with
    | some .limit => it.settings.tickLimit ≤ it.machine.tick
    | some .pause => it.machine.tick < it.settings.tickLimit ∧ it.pauses = true
    | some .fault => it.machine.tick < it.settings.tickLimit ∧ it.pauses = false ∧
        ∃ f, it.deliverDue.cycle = .error (.fault f)
    | none => it.machine.tick < it.settings.tickLimit ∧ it.pauses = false ∧
        ∃ done, it.deliverDue.cycle = .ok done := by
  have hpauses : it.pauses = true ↔ it.settings.pauseTick = some it.machine.tick := pauses_iff
  by_cases hlimit : it.settings.tickLimit ≤ it.machine.tick
  · simp only [exit?, if_pos hlimit]
    exact hlimit
  · have hbelow := Int.not_le.mp hlimit
    by_cases hpause : it.settings.pauseTick = some it.machine.tick
    · simp only [exit?, if_neg hlimit, if_pos hpause]
      exact ⟨hbelow, hpauses.mpr hpause⟩
    · have hgoes : it.pauses = false := Bool.eq_false_iff.mpr (mt hpauses.mp hpause)
      simp only [exit?, if_neg hlimit, if_neg hpause]
      cases hc : it.deliverDue.cycle with
      | ok done => exact ⟨hbelow, hgoes, done, rfl⟩
      | error halt =>
        obtain ⟨f, rfl⟩ := cycle_eq_error (h.deliver _) hc
        exact ⟨hbelow, hgoes, f, rfl⟩

/-- Where nothing ends a run, there is a beat, and the run goes on from the next tick as it would
from its beginning. -/
theorem course_of_exit_none {it : Interpreter ρ} (h : it.machine.HoldsBytes)
    (hexit : it.exit? = none) : ∃ done, it.deliverDue.cycle = .ok done ∧
      it.beat = some (done.state, done.next.onward) ∧
      ∀ last, it.course last it.ticksLeft =
        done.next.onward.course done.state done.next.onward.ticksLeft := by
  have hspec := exit_spec h
  rw [hexit] at hspec
  obtain ⟨hlimit, hpause, done, hc⟩ := hspec
  have hb : it.beat = some (done.state, done.next.onward) := by rw [beat, hc]
  have hleft : it.ticksLeft = done.next.onward.ticksLeft + 1 := by
    unfold ticksLeft
    rw [tick_beat h hb, settings_beat h hb]
    omega
  refine ⟨done, hc, hb, fun last => ?_⟩
  rw [hleft, course, hpause, if_neg Bool.false_ne_true, hb]

/-- Where something ends a run, it is over at once. -/
theorem course_of_exit {it : Interpreter ρ} (h : it.machine.HoldsBytes) {exit : Exit}
    (hexit : it.exit? = some exit) (last : CycleState) :
    it.course last it.ticksLeft = (exit.ending last, it.leaves exit) := by
  have hspec := exit_spec h
  rw [hexit] at hspec
  have hmore (hlimit : it.machine.tick < it.settings.tickLimit) :
      ∃ left, it.ticksLeft = left + 1 :=
    Nat.exists_eq_succ_of_ne_zero (by unfold ticksLeft; omega)
  cases exit with
  | limit =>
    have hleft : it.ticksLeft = 0 := Int.toNat_of_nonpos (Int.sub_nonpos_of_le hspec)
    rw [hleft]
    rfl
  | pause =>
    obtain ⟨left, hleft⟩ := hmore hspec.1
    rw [hleft, course, if_pos hspec.2]
    rfl
  | fault =>
    obtain ⟨hlimit, hpause, f, hc⟩ := hspec
    obtain ⟨left, hleft⟩ := hmore hlimit
    rw [hleft, course, hpause, if_neg Bool.false_ne_true, beat, hc]
    rfl

/-! ## Many turns -/

theorem beats_succ_of_beat {it next : Interpreter ρ} {n : Nat} {state : CycleState}
    (hb : (it.beats n).beat = some (state, next)) : it.beats (n + 1) = next := by
  rw [beats_add, beats, hb]
  rfl

/-- A run that nothing has ended goes on after its beats, and knows whether the last one stalled. -/
theorem course_of_before {it : Interpreter ρ} (h : it.machine.HoldsBytes) {n : Nat}
    (hbefore : ∀ k < n, (it.beats k).exit? = none) :
    ∃ last, (last = .stalled ↔ it.LastStalled n) ∧
      it.course .running it.ticksLeft = (it.beats n).course last (it.beats n).ticksLeft := by
  induction n with
  | zero => exact ⟨.running, by simp [LastStalled], rfl⟩
  | succ n ih =>
    obtain ⟨last, -, hcourse⟩ := ih fun k hk => hbefore k (Nat.lt_succ_of_lt hk)
    obtain ⟨done, hc, hb, hstep⟩ :=
      course_of_exit_none (holdsBytes_beats n h) (hbefore n (Nat.lt_succ_self n))
    refine ⟨done.state, by simp [LastStalled, hc], ?_⟩
    rw [hcourse, hstep, beats_succ_of_beat hb]

/-- The limit ends a run if nothing else does before. -/
theorem exists_firstExit {it : Interpreter ρ} (h : it.machine.HoldsBytes) :
    ∃ n exit, it.FirstExit n exit := by
  have hends : ∃ n, (it.beats n).exit? ≠ none := by
    refine ⟨it.ticksLeft, fun hnone => ?_⟩
    have hspec := exit_spec (holdsBytes_beats it.ticksLeft h)
    rw [hnone] at hspec
    obtain ⟨hlimit, -, done, hc⟩ := hspec
    rw [settings_beats _ h] at hlimit
    rcases tick_beats it.ticksLeft h with htick | ⟨hstuck, -⟩
    · rw [htick, ticksLeft] at hlimit
      omega
    · have hnone := hstuck.beat
      simp [beat, hc] at hnone
  classical
  obtain ⟨exit, hexit⟩ := Option.ne_none_iff_exists'.mp (Nat.find_spec hends)
  exact ⟨Nat.find hends, exit, fun k hk => not_not.mp (Nat.find_min hends hk), hexit⟩

namespace FirstExit

variable {start : Interpreter ρ} {n : Nat} {exit : Exit} (hfirst : start.FirstExit n exit)

include hfirst

theorem way (h : start.machine.HoldsBytes) (k : Nat) (hk : k < n) :
    ∃ done, (start.beats k).deliverDue.cycle = .ok done ∧
      start.beats (k + 1) = done.next.onward := by
  obtain ⟨done, hc, hb, -⟩ := course_of_exit_none (holdsBytes_beats k h) (hfirst.before k hk)
  exact ⟨done, hc, beats_succ_of_beat hb⟩

theorem tick (h : start.machine.HoldsBytes) (k : Nat) (hk : k ≤ n) :
    (start.beats k).machine.tick = start.machine.tick + k := by
  induction k with
  | zero => exact (Int.add_zero _).symm
  | succ k ih =>
    have hbytes := holdsBytes_beats k h
    obtain ⟨done, -, hb, -⟩ := course_of_exit_none hbytes (hfirst.before k hk)
    rw [beats_succ_of_beat hb, tick_beat hbytes hb, ih (by omega)]
    omega

/-- A run ends at its first exit. -/
theorem outcome (h : start.machine.HoldsBytes) (hframe : 0 < start.settings.cyclesPerFrame) :
    ∃ ending, Outcome start n exit ending := by
  have hbytes := holdsBytes_beats n h
  obtain ⟨last, hlast, hcourse⟩ := course_of_before h hfirst.before
  obtain ⟨hending, hfinal⟩ := runFor_eq_course h (by omega) .running #[] start.ticksLeft
  rw [← run, hcourse, course_of_exit hbytes hfirst.here] at hending hfinal
  have hcompleted : (start.seen Step.completed start.runTurns.flatten).length = n := by
    have hcycles := ((takesTurns_run h hframe).cadence h hframe).2
    have htick := hfirst.tick h n (Nat.le_refl n)
    have hthere : start.run.final.machine.tick = (start.beats n).machine.tick := by
      rw [hfinal]
      cases exit <;> rfl
    rw [← final_run h hframe, hthere] at hcycles
    omega
  refine ⟨exit.ending last, hfirst, hfirst.way h, hfirst.tick h,
    fun k => settings_beats k h, hcompleted, hending, exit.ending_eq_fault_iff last,
    exit.ending_eq_paused_iff last, ?_, ?_, ?_, ?_⟩
  · rw [exit.ending_eq_stalled_iff, hlast]
  · rw [exit.ending_eq_stopped_iff, hlast]
  · rintro rfl
    have hspec := exit_spec hbytes
    rw [hfirst.here] at hspec
    exact ⟨hspec.2.2, hfinal⟩
  · intro hother
    cases exit with
    | fault => contradiction
    | limit | pause => exact hfinal

end FirstExit

/-- A run that ends in a fault is left at the cycle that faults. -/
theorem fault_of_run {start : Interpreter ρ} (h : start.machine.HoldsBytes)
    (hframe : 0 < start.settings.cyclesPerFrame) (hfault : start.run.ending = .ok .fault) :
    ∃ f, start.run.final.cycle = .error (.fault f) := by
  obtain ⟨n, exit, hfirst⟩ := exists_firstExit h
  obtain ⟨ending, houtcome⟩ := hfirst.outcome h hframe
  have hending : ending = .fault := Except.ok.inj (houtcome.ran.symm.trans hfault)
  obtain ⟨⟨f, hcycle⟩, hfinal⟩ := houtcome.final_of_fault (houtcome.fault_iff.mp hending)
  exact ⟨f, by rw [hfinal, hcycle]⟩

/-- A run that is over at its first tick. -/
theorem run_of_exit {start : Interpreter ρ} (h : start.machine.HoldsBytes)
    (hframe : 0 < start.settings.cyclesPerFrame) {exit : Exit} (hexit : start.exit? = some exit) :
    start.run.ending = .ok (exit.ending .running) ∧ start.run.final = start.leaves exit := by
  obtain ⟨hending, hfinal⟩ := runFor_eq_course h (by omega) .running #[] start.ticksLeft
  rw [← run, course_of_exit h hexit] at hending hfinal
  exact ⟨hending, hfinal⟩

/-- A machine that operations lead to runs, under any settings, to the first tick at which its limit
is reached, its pause is due or its cycle faults. It tells the picture that it ends with, that tick,
and how it ended. -/
theorem runs_end_at_first_exit (source : ρ) (ops : List Operation) {s : Settings}
    (hframe : 0 < s.cyclesPerFrame) :
    let it := (play Operation.on ops (powerOn source)).2
    let start := it.under s
    ∃ n exit ending, Outcome start n exit ending ∧
      (Operation.run s hframe).on.run it =
        .ok (.ran start.run.final.machine.screen.picture (it.machine.tick + n) ending)
          start.run.final := by
  intro it start
  have h : start.machine.HoldsBytes := (bounded_play source ops).toHoldsBytes
  obtain ⟨n, exit, hfirst⟩ := exists_firstExit h
  obtain ⟨ending, houtcome⟩ := hfirst.outcome h hframe
  have hticks : start.run.final.machine.tick = it.machine.tick + n := by
    have hthere := houtcome.tick n (Nat.le_refl n)
    by_cases hfault : exit = .fault
    · rw [(houtcome.final_of_fault hfault).2]
      exact hthere
    · rw [houtcome.final hfault]
      exact hthere
  refine ⟨n, exit, ending, houtcome, ?_⟩
  show conclude start.run = _
  rw [conclude, houtcome.ran, hticks]

/-- A program that waits for a key, up to its limit. -/
theorem outcome_of_waiting :
    let s : Settings := { tickLimit := 3 }
    let start :=
      (play Operation.on [.load [0xF0, 0x0A]] (powerOn (CyclicTape.ofList []))).2.under s
    0 < s.cyclesPerFrame ∧ ∃ n exit ending, Outcome start n exit ending := by
  intro s start
  have hframe : 0 < s.cyclesPerFrame := by decide
  obtain ⟨n, exit, ending, houtcome, -⟩ :=
    runs_end_at_first_exit (CyclicTape.ofList []) [.load [0xF0, 0x0A]] hframe
  exact ⟨hframe, n, exit, ending, houtcome⟩

end Interpreter

end Chip8
