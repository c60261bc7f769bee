import Chip8.Proofs.History
import Chip8.Run.Program

/-!
# Runs that are taken up again

A run that is cut at a tick, by a pause or by its limit, leaves the interpreter where the beats up
to that tick lead (`Interpreter.run_cut`). A fault on the way stops the beats, and taking the run
up again faults once more and changes nothing (`Interpreter.Stuck`), so beats add up with no
condition (`Interpreter.beats_add`) and the way to a tick can be gone in stages
(`Interpreter.reach_reach`).

`Interpreter.cuts_are_transparent` follows for any number of cuts : the last run ends like one run
without any cut, and leaves the same. Only the settings differ between the runs, and a beat
depends on nothing in them but the length of a frame (`Interpreter.beat_under`).
-/

namespace Chip8

/-- A place where a run is cut : it pauses at a tick, or has the tick as its limit. -/
inductive Cut where
  | pause (tick : Int)
  | limit (tick : Int)

namespace Cut

/-- The tick of a cut. -/
def tick : Cut → Int
  | pause tick | limit tick => tick

/-- The settings of a run that is cut, made from those of the run that is not. -/
def settings (s : Settings) : Cut → Settings
  | pause tick => { s with pauseTick := some tick }
  | limit tick => { s with tickLimit := tick }

theorem cyclesPerFrame_settings (s : Settings) (c : Cut) :
    (c.settings s).cyclesPerFrame = s.cyclesPerFrame := by
  cases c <;> rfl

end Cut

namespace Interpreter

variable {ρ : Type}

/-- The interpreter with other settings. -/
def under (it : Interpreter ρ) (s : Settings) : Interpreter ρ := { it with settings := s }

variable [ByteSource ρ]

/-! ## Beats under other settings -/

omit [ByteSource ρ] in
theorem onward_under {it : Interpreter ρ} {s : Settings}
    (hs : s.cyclesPerFrame = it.settings.cyclesPerFrame) :
    (it.under s).onward = it.onward.under s := by
  have hends : (it.under s).nextTick.frameEnds = it.nextTick.frameEnds := by
    simp only [frameEnds, nextTick, under, hs]
  rw [onward, onward, hends]
  split <;> rfl

theorem beat_under {it : Interpreter ρ} (h : it.machine.HoldsBytes) {s : Settings}
    (hs : s.cyclesPerFrame = it.settings.cyclesPerFrame) :
    (it.under s).beat = it.beat.map fun p => (p.1, p.2.under s) := by
  have hdue : it.deliverDue.machine.HoldsBytes := h.deliver _
  have hdue' : (it.deliverDue.under s).machine.HoldsBytes := hdue
  have hunder : (it.under s).deliverDue = it.deliverDue.under s := rfl
  have hdecode : (it.deliverDue.under s).decode = it.deliverDue.decode := rfl
  rw [beat, beat, hunder, cycle_eq hdue, cycle_eq hdue', hdecode]
  cases it.deliverDue.decode with
  | error f => rfl
  | ok i =>
    have hrefusal : (it.deliverDue.under s).advance.machine.refusal i =
        it.deliverDue.advance.machine.refusal i := rfl
    simp only [hrefusal]
    cases it.deliverDue.advance.machine.refusal i with
    | some f => rfl
    | none =>
      have honward : ((it.deliverDue.advance.executed i).under s).onward =
          (it.deliverDue.advance.executed i).onward.under s := onward_under hs
      exact congrArg (fun next => some (it.deliverDue.advance.stateAfter i, next)) honward

theorem beats_under {s : Settings} (n : Nat) {it : Interpreter ρ} (h : it.machine.HoldsBytes)
    (hs : s.cyclesPerFrame = it.settings.cyclesPerFrame) :
    (it.under s).beats n = (it.beats n).under s := by
  induction n generalizing it with
  | zero => rfl
  | succ n ih =>
    rw [beats, beats, beat_under h hs]
    cases hb : it.beat with
    | none => rfl
    | some p =>
      obtain ⟨state, next⟩ := p
      exact ih (holdsBytes_beat h hb) (hs.trans (congrArg _ (settings_beat h hb).symm))

/-! ## Beats in stages -/

/-- The next beat faults, and its keys are delivered already. -/
structure Stuck (it : Interpreter ρ) : Prop where
  beat : it.beat = none
  due : it.deliverDue = it

theorem Stuck.beats {it : Interpreter ρ} (h : it.Stuck) : ∀ n, it.beats n = it
  | 0 => rfl
  | n + 1 => by rw [Interpreter.beats, h.beat, h.due]

theorem stuck_deliverDue {it : Interpreter ρ} (h : it.beat = none) : it.deliverDue.Stuck where
  beat := (beat_deliverDue it).trans h
  due := deliverDue_deliverDue it

/-- Beats in two goes lead where they lead in one, whether or not one of them faults. -/
theorem beats_add (m n : Nat) (it : Interpreter ρ) : it.beats (m + n) = (it.beats m).beats n := by
  induction m generalizing it with
  | zero => rw [Nat.zero_add, beats]
  | succ m ih =>
    rw [Nat.add_right_comm, beats, beats]
    cases hb : it.beat with
    | none => exact ((stuck_deliverDue hb).beats n).symm
    | some p => exact ih p.2

/-- How a run ends depends on its last beats alone, if there are any. -/
theorem endingAfter_add (m n : Nat) (last again : CycleState) (it : Interpreter ρ) :
    it.endingAfter last (m + (n + 1)) = (it.beats m).endingAfter again (n + 1) := by
  induction m generalizing it last with
  | zero => rw [Nat.zero_add, beats, endingAfter, endingAfter]
  | succ m ih =>
    rw [Nat.add_right_comm, endingAfter, beats]
    cases hb : it.beat with
    | none => rw [endingAfter, (stuck_deliverDue hb).beat]
    | some p => exact ih p.1 p.2

/-- What a beat and the delivery of keys keep holds after any number of beats. -/
theorem beats_keeps {P : Interpreter ρ → Prop} (hdue : ∀ {it}, P it → P it.deliverDue)
    (hbeat : ∀ {it state next}, P it → it.beat = some (state, next) → P next) (n : Nat)
    {it : Interpreter ρ} (h : P it) : P (it.beats n) := by
  induction n generalizing it with
  | zero => exact h
  | succ n ih =>
    rw [beats]
    cases hb : it.beat with
    | none => exact hdue h
    | some p => exact ih (hbeat h hb)

theorem holdsBytes_beats (n : Nat) {it : Interpreter ρ} (h : it.machine.HoldsBytes) :
    (it.beats n).machine.HoldsBytes :=
  beats_keeps (P := fun next => next.machine.HoldsBytes) (fun h => h.deliver _)
    (fun h hb => holdsBytes_beat h hb) n h

theorem settings_beats (n : Nat) {it : Interpreter ρ} (h : it.machine.HoldsBytes) :
    (it.beats n).settings = it.settings :=
  (beats_keeps (P := fun next => next.machine.HoldsBytes ∧ next.settings = it.settings)
    (fun h => ⟨h.1.deliver _, h.2⟩)
    (fun h hb => ⟨holdsBytes_beat h.1 hb, (settings_beat h.1 hb).trans h.2⟩) n ⟨h, rfl⟩).2

/-- Every beat takes the tick on by one, until one faults. -/
theorem tick_beats (n : Nat) {it : Interpreter ρ} (h : it.machine.HoldsBytes) :
    (it.beats n).machine.tick = it.machine.tick + n ∨
      (it.beats n).Stuck ∧ (it.beats n).machine.tick < it.machine.tick + n := by
  induction n generalizing it with
  | zero => exact Or.inl (Int.add_zero _).symm
  | succ n ih =>
    rw [beats]
    cases hb : it.beat with
    | none =>
      have htick : it.deliverDue.machine.tick = it.machine.tick := rfl
      exact Or.inr ⟨stuck_deliverDue hb, by simp only [htick]; omega⟩
    | some p =>
      obtain ⟨state, next⟩ := p
      have htick := tick_beat h hb
      rcases ih (holdsBytes_beat h hb) with hn | ⟨hstuck, hn⟩
      · exact Or.inl (by simp only [hn, htick]; omega)
      · exact Or.inr ⟨hstuck, by simp only [htick] at hn ⊢; omega⟩

/-! ## Runs up to a tick -/

/-- Where the beats up to a tick lead. -/
def reach (tick : Int) (it : Interpreter ρ) : Interpreter ρ :=
  it.beats (tick - it.machine.tick).toNat

/-- A tick can be reached in stages. -/
theorem reach_reach {it : Interpreter ρ} (h : it.machine.HoldsBytes) {p q : Int}
    (hp : it.machine.tick ≤ p) (hq : p ≤ q) : (it.reach p).reach q = it.reach q := by
  have hsum : (q - it.machine.tick).toNat = (p - it.machine.tick).toNat + (q - p).toNat := by omega
  unfold reach
  rw [hsum, beats_add]
  rcases tick_beats (p - it.machine.tick).toNat h with htick | ⟨hstuck, -⟩
  · have hthere : (it.beats (p - it.machine.tick).toNat).machine.tick = p := by omega
    rw [hthere]
  · rw [hstuck.beats, hstuck.beats]

/-- A run without a pause takes all its beats. -/
theorem course_of_no_pause {it : Interpreter ρ} (h : it.machine.HoldsBytes)
    (hpause : it.settings.pauseTick = none) (last : CycleState) (n : Nat) :
    it.course last n = (it.endingAfter last n, it.beats n) := by
  induction n generalizing it last with
  | zero => rfl
  | succ n ih =>
    have hpauses : ¬ it.pauses = true := by simp [pauses_iff, hpause]
    rw [course, if_neg hpauses, endingAfter, beats]
    cases hb : it.beat with
    | none => rfl
    | some p =>
      obtain ⟨state, next⟩ := p
      exact ih (holdsBytes_beat h hb) ((congrArg _ (settings_beat h hb)).trans hpause) state

/-- A run that pauses no later than at its limit is over at the pause. -/
theorem course_of_pause {it : Interpreter ρ} (h : it.machine.HoldsBytes) {p : Int}
    (hpause : it.settings.pauseTick = some p) (hp : it.machine.tick ≤ p) (last : CycleState)
    (n : Nat) (hn : p - it.machine.tick ≤ n) : (it.course last n).2 = it.reach p := by
  induction n generalizing it last with
  | zero =>
    have hthere : (p - it.machine.tick).toNat = 0 := by omega
    rw [reach, hthere]
    rfl
  | succ n ih =>
    have hiff : it.pauses = true ↔ p = it.machine.tick := by
      rw [pauses_iff, hpause, Option.some_inj]
    rw [course]
    by_cases hthere : p = it.machine.tick
    · have hzero : (p - it.machine.tick).toNat = 0 := by omega
      rw [if_pos (hiff.mpr hthere), reach, hzero]
      rfl
    · have hmore : (p - it.machine.tick).toNat = (p - (it.machine.tick + 1)).toNat + 1 := by
        omega
      rw [if_neg (mt hiff.mp hthere), reach, hmore, beats]
      cases hb : it.beat with
      | none => rfl
      | some pair =>
        obtain ⟨state, next⟩ := pair
        have htick := tick_beat h hb
        have hset := settings_beat h hb
        have hnext := ih (holdsBytes_beat h hb) (by rw [hset, hpause]) (by omega) state (by omega)
        rw [hnext, reach, htick]

theorem run_of_no_pause {it : Interpreter ρ} (h : it.machine.HoldsBytes)
    (hframe : 0 < it.settings.cyclesPerFrame) (hpause : it.settings.pauseTick = none) :
    it.run.ending = .ok (it.endingAfter .running it.ticksLeft) ∧
      it.run.final = it.reach it.settings.tickLimit := by
  have hrun := runFor_eq_course h (by omega) .running #[] it.ticksLeft
  rwa [course_of_no_pause h hpause] at hrun

/-- How a run ends is told from any tick on its way. -/
theorem endingAfter_reach {it : Interpreter ρ} (h : it.machine.HoldsBytes) {p q : Int}
    (hp : it.machine.tick ≤ p) (hq : p < q) (last again : CycleState) :
    (it.reach p).endingAfter again (q - (it.reach p).machine.tick).toNat =
      it.endingAfter last (q - it.machine.tick).toNat := by
  obtain ⟨rest, hrest⟩ : ∃ rest, (q - p).toNat = rest + 1 :=
    Nat.exists_eq_succ_of_ne_zero (by omega)
  have hsum : (q - it.machine.tick).toNat = (p - it.machine.tick).toNat + (rest + 1) := by omega
  rw [hsum, endingAfter_add _ _ _ again, reach]
  rcases tick_beats (p - it.machine.tick).toNat h with htick | ⟨hstuck, htick⟩
  · have hleft : (q - (it.beats (p - it.machine.tick).toNat).machine.tick).toNat = rest + 1 := by
      omega
    rw [hleft]
  · obtain ⟨more, hmore⟩ : ∃ more,
        (q - (it.beats (p - it.machine.tick).toNat).machine.tick).toNat = more + 1 :=
      Nat.exists_eq_succ_of_ne_zero (by omega)
    rw [hmore, endingAfter, endingAfter, hstuck.beat]

/-- A run without a pause can be taken up on its way. -/
theorem run_reach {it : Interpreter ρ} (h : it.machine.HoldsBytes)
    (hframe : 0 < it.settings.cyclesPerFrame) (hpause : it.settings.pauseTick = none) {p : Int}
    (hp : it.machine.tick ≤ p) (hlimit : p < it.settings.tickLimit) :
    (it.reach p).run.ending = it.run.ending ∧ (it.reach p).run.final = it.run.final := by
  have hset : (it.reach p).settings = it.settings := settings_beats _ h
  have hbytes : (it.reach p).machine.HoldsBytes := holdsBytes_beats _ h
  obtain ⟨hending, hfinal⟩ := run_of_no_pause h hframe hpause
  obtain ⟨hending', hfinal'⟩ := run_of_no_pause hbytes (by rwa [hset]) (by rwa [hset])
  refine ⟨?_, ?_⟩
  · rw [hending, hending', ticksLeft, ticksLeft, hset, endingAfter_reach h hp hlimit]
  · rw [hfinal, hfinal', hset, reach_reach h hp (by omega)]

/-! ## Cut runs -/

/-- Run to one cut after another. -/
def runCuts (s : Settings) : List Cut → Interpreter ρ → Interpreter ρ
  | [], it => it
  | c :: cuts, it => runCuts s cuts (it.under (c.settings s)).run.final

/-- A run that is cut leads to the cut. -/
theorem run_cut {it : Interpreter ρ} (h : it.machine.HoldsBytes) {s : Settings}
    (hframe : 0 < s.cyclesPerFrame) (hpause : s.pauseTick = none) {c : Cut}
    (hfrom : it.machine.tick ≤ c.tick) (hto : c.tick < s.tickLimit) :
    (it.under (c.settings s)).run.final = (it.under (c.settings s)).reach c.tick := by
  have hcut : (it.under (c.settings s)).machine.HoldsBytes := h
  cases c with
  | pause p =>
    have hrun := (runFor_eq_course hcut (by simp only [under, Cut.settings]; omega) .running #[]
      (it.under (Cut.settings s (.pause p))).ticksLeft).2
    refine hrun.trans (course_of_pause hcut rfl hfrom _ _ ?_)
    simp only [Cut.tick, ticksLeft, under, Cut.settings] at *
    omega
  | limit p => exact (run_of_no_pause hcut hframe hpause).2

theorem run_cut_under {it : Interpreter ρ} (h : it.machine.HoldsBytes) {s : Settings}
    (hframe : 0 < s.cyclesPerFrame) (hpause : s.pauseTick = none) {c : Cut}
    (hfrom : it.machine.tick ≤ c.tick) (hto : c.tick < s.tickLimit) :
    (it.under (c.settings s)).run.final.under s = (it.under s).reach c.tick := by
  have hbytes : (it.under s).machine.HoldsBytes := h
  have hunder := beats_under (c.tick - it.machine.tick).toNat hbytes (c.cyclesPerFrame_settings s)
  have hset : ((it.under s).reach c.tick).settings = s := settings_beats _ h
  rw [run_cut h hframe hpause hfrom hto]
  calc ((it.under (c.settings s)).reach c.tick).under s
    _ = (((it.under s).reach c.tick).under (c.settings s)).under s :=
      congrArg (fun it => it.under s) hunder
    _ = ((it.under s).reach c.tick).under ((it.under s).reach c.tick).settings := by rw [hset]; rfl
    _ = (it.under s).reach c.tick := rfl

theorem tick_reach {it : Interpreter ρ} (h : it.machine.HoldsBytes) {p : Int}
    (hp : it.machine.tick ≤ p) : (it.reach p).machine.tick ≤ p := by
  unfold reach
  rcases tick_beats (p - it.machine.tick).toNat h with htick | ⟨-, htick⟩ <;> omega

/-- Cuts change neither how the last run ends nor what it leaves. -/
theorem run_runCuts {s : Settings} (hframe : 0 < s.cyclesPerFrame) (hpause : s.pauseTick = none) :
    ∀ (cuts : List Cut) {it : Interpreter ρ}, it.machine.HoldsBytes →
      (cuts.map Cut.tick).Pairwise (· ≤ ·) →
      (∀ c ∈ cuts, it.machine.tick ≤ c.tick ∧ c.tick < s.tickLimit) →
      ((runCuts s cuts it).under s).run.ending = (it.under s).run.ending ∧
        ((runCuts s cuts it).under s).run.final = (it.under s).run.final
  | [], _, _, _, _ => ⟨rfl, rfl⟩
  | c :: cuts, it, h, hsorted, hcuts => by
    obtain ⟨hfrom, hto⟩ := hcuts c (by simp)
    obtain ⟨hlater, hsorted⟩ := List.pairwise_cons.mp hsorted
    have hcut := run_cut h hframe hpause hfrom hto
    have hbytes' : (it.under (c.settings s)).machine.HoldsBytes := h
    have hbytes : (it.under (c.settings s)).run.final.machine.HoldsBytes := by
      rw [hcut]
      exact holdsBytes_beats _ h
    have htick : (it.under (c.settings s)).run.final.machine.tick ≤ c.tick := by
      rw [hcut]
      exact tick_reach hbytes' hfrom
    obtain ⟨hending, hfinal⟩ := run_runCuts hframe hpause cuts hbytes hsorted fun d hd =>
      ⟨Int.le_trans htick (hlater d.tick (List.mem_map_of_mem hd)),
        (hcuts d (List.mem_cons_of_mem _ hd)).2⟩
    have hwhole : (it.under s).machine.HoldsBytes := h
    obtain ⟨hending', hfinal'⟩ := run_reach hwhole hframe hpause hfrom hto
    rw [← run_cut_under h hframe hpause hfrom hto] at hending' hfinal'
    exact ⟨hending.trans hending', hfinal.trans hfinal'⟩

/-- From a machine that operations lead to, runs up to any cuts in the order of their ticks and
then one up to the limit end as a single run up to the limit. What is told of them is the same,
and so is everything that they leave : machine, source and beeps. -/
theorem cuts_are_transparent (source : ρ) (ops : List Operation) {s : Settings}
    (hframe : 0 < s.cyclesPerFrame) (hpause : s.pauseTick = none) (cuts : List Cut)
    (hsorted : (cuts.map Cut.tick).Pairwise (· ≤ ·))
    (hcuts : ∀ c ∈ cuts,
      (play Operation.on ops (Interpreter.powerOn source)).2.machine.tick ≤ c.tick ∧
        c.tick < s.tickLimit) :
    let it := (play Operation.on ops (Interpreter.powerOn source)).2
    let whole := (it.under s).run
    let last := ((runCuts s cuts it).under s).run
    (∃ ending, whole.ending = .ok ending ∧ last.ending = .ok ending) ∧
      last.final = whole.final ∧ Program.report last = Program.report whole := by
  intro it whole last
  have h : (it.under s).machine.HoldsBytes := (bounded_play source ops).toHoldsBytes
  have hbytes : it.machine.HoldsBytes := h
  obtain ⟨hending, hfinal⟩ := run_runCuts hframe hpause cuts hbytes hsorted hcuts
  have hwhole := (run_of_no_pause h hframe hpause).1
  refine ⟨⟨_, hwhole, hending.trans hwhole⟩, hfinal, ?_⟩
  simp only [Program.report, last, whole, hending, hfinal]

/-- A program that jumps to itself, cut by a pause and then by a limit. -/
theorem cuts_of_idle_loop :
    let it :=
      (play Operation.on [.load [0x12, 0x00]] (Interpreter.powerOn (CyclicTape.ofList []))).2
    let s : Settings := { cyclesPerFrame := 2, tickLimit := 5 }
    (0 < s.cyclesPerFrame ∧ it.machine.tick = 0) ∧
      ((runCuts s [.pause 1, .limit 3] it).under s).run.final = (it.under s).run.final := by
  intro it s
  have htick : it.machine.tick = 0 := rfl
  have hcuts : ∀ c ∈ [Cut.pause 1, Cut.limit 3],
      it.machine.tick ≤ c.tick ∧ c.tick < s.tickLimit := by
    simp [htick, Cut.tick, s]
  exact ⟨⟨by decide, htick⟩, (cuts_are_transparent (CyclicTape.ofList []) [.load [0x12, 0x00]]
    (s := s) (by decide) rfl [.pause 1, .limit 3] (by decide) hcuts).2.1⟩

end Interpreter

end Chip8
