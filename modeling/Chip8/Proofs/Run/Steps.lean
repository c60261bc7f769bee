import Chip8.Proofs.History

/-!
# Steps

A step is the smallest thing that happens to an interpreter (`Step`) : an operation that is no run,
other settings, the next tick, or the end of a frame. Any steps in any order are an execution
(`Interpreter.after`), and what is looked at in each step on the way is a list
(`Interpreter.seen`), such as the instructions that cycles complete (`Step.completed`).

A run is an execution. Each of its turns delivers the keys due and attempts a cycle, and a turn
whose cycle is completed goes on to the next tick, which may end a frame
(`Interpreter.turnSteps`). The steps of the turns that a run takes lead where the run leads
(`Interpreter.final_run`), so every history of operations is an execution
(`Interpreter.after_stepsOfAll`).

What is said of whole runs follows by induction on the steps (`Interpreter.TakesSteps`), or on the
turns where it takes a whole turn (`Interpreter.TakesTurns`). A cycle of a run is attempted just
after the keys of its tick are delivered (`Interpreter.TakesTurns.split_at_cycle`).
-/

namespace Chip8

/-- The settings of an operation that is a run. -/
def Operation.settings? : Operation → Option Settings
  | .run settings _ => some settings
  | _ => none

/-- The smallest things that happen to an interpreter. -/
inductive Step where
  /-- An operation is called that is no run. -/
  | call (o : Operation) (brief : o.settings? = none)
  /-- Other settings are made. -/
  | set (settings : Settings)
  /-- The next tick begins. -/
  | nextTick
  /-- A frame ends : the timers count down, and a sound that ends is a beep. -/
  | endFrame

/-- An instruction that a cycle completed, with the machine that it was fetched from. -/
structure Completed where
  machine : Machine
  instruction : Instruction

namespace Step

/-- A cycle is attempted. -/
@[match_pattern]
abbrev cycle : Step := .call .cycle rfl

/-- The keys due at a tick are delivered. -/
@[match_pattern]
abbrev deliver (tick : Int) : Step := .call (.deliver tick) rfl

/-- Whether a step ends a frame. -/
def endsFrame : Step → Bool
  | .endFrame => true
  | _ => false

/-- The steps that a run takes. -/
inductive OfRun : Step → Prop
  | deliver (tick : Int) : OfRun (.deliver tick)
  | cycle : OfRun .cycle
  | nextTick : OfRun .nextTick
  | endFrame : OfRun .endFrame

end Step

variable {ρ : Type} [ByteSource ρ]

namespace Interpreter

/-- The instruction that a cycle completes. -/
def completes? (it : Interpreter ρ) : Option Instruction :=
  match it.cycle with
  | .ok _ => it.decode.toOption
  | .error _ => none

end Interpreter

namespace Step

/-- A step taken by an interpreter. One that raises an error leaves what it leaves. -/
def on (s : Step) (it : Interpreter ρ) : Interpreter ρ :=
  match s with
  | .call o _ => left (o.on.run it)
  | .set settings => { it with settings }
  | .nextTick => it.nextTick
  | .endFrame => it.tickTimers

/-- The instruction that a step completes, if it is a cycle that completes one. -/
def completed (s : Step) (it : Interpreter ρ) : List Completed :=
  match s with
  | .call .cycle _ => (it.completes?.map (Completed.mk it.machine)).toList
  | _ => []

theorem completed_of_some {it : Interpreter ρ} {i : Instruction} (hi : it.completes? = some i) :
    Step.cycle.completed it = [⟨it.machine, i⟩] := by
  simp [completed, hi]

theorem completed_of_none {it : Interpreter ρ} (hnone : it.completes? = none) :
    Step.cycle.completed it = [] := by
  simp [completed, hnone]

end Step

namespace Interpreter

/-- The interpreter after steps. -/
def after (it : Interpreter ρ) (steps : List Step) : Interpreter ρ :=
  steps.foldl (fun it s => s.on it) it

/-- What is seen of steps, each of them in the interpreter that it is taken in. -/
def seen {α : Type} (see : Step → Interpreter ρ → List α) : List Step → Interpreter ρ → List α
  | [], _ => []
  | s :: steps, it => see s it ++ seen see steps (s.on it)

@[simp] theorem after_nil (it : Interpreter ρ) : it.after [] = it := rfl

@[simp] theorem after_cons (it : Interpreter ρ) (s : Step) (steps : List Step) :
    it.after (s :: steps) = (s.on it).after steps := rfl

@[simp] theorem after_append (it : Interpreter ρ) (steps more : List Step) :
    it.after (steps ++ more) = (it.after steps).after more :=
  List.foldl_append

section Seen

variable {α : Type} (see : Step → Interpreter ρ → List α) (it : Interpreter ρ)

@[simp] theorem seen_nil : it.seen see [] = [] := rfl

@[simp] theorem seen_cons (s : Step) (steps : List Step) :
    it.seen see (s :: steps) = see s it ++ (s.on it).seen see steps := rfl

@[simp] theorem seen_append (steps more : List Step) :
    it.seen see (steps ++ more) = it.seen see steps ++ (it.after steps).seen see more := by
  induction steps generalizing it with
  | nil => rfl
  | cons s steps ih => simp [ih]

theorem seen_eq_nil {see : Step → Interpreter ρ → List α} {steps : List Step} {it : Interpreter ρ}
    (hnone : ∀ s ∈ steps, ∀ it, see s it = []) : it.seen see steps = [] := by
  induction steps generalizing it with
  | nil => rfl
  | cons s steps ih =>
    rw [seen_cons, hnone s List.mem_cons_self, List.nil_append]
    exact ih fun s hs => hnone s (List.mem_cons_of_mem _ hs)

end Seen

/-! ## One step -/

/-- A cycle faults and changes nothing, or it completes the instruction at the program counter. -/
theorem cycle_cases {it : Interpreter ρ} (h : it.machine.HoldsBytes) :
    (it.completes? = none ∧ (∃ f, it.cycle = .error (.fault f)) ∧ Step.cycle.on it = it) ∨
      ∃ i done, it.completes? = some i ∧ it.cycle = .ok done ∧ it.decode = .ok i ∧
        it.advance.machine.refusal i = none ∧ done.next = it.advance.executed i ∧
        Step.cycle.on it = it.advance.executed i := by
  cases hc : it.cycle with
  | error halt =>
    obtain ⟨f, rfl⟩ := cycle_eq_error h hc
    refine Or.inl ⟨by rw [completes?, hc], ⟨f, rfl⟩, ?_⟩
    simp only [Step.on, Operation.on, EStateM.run, hc]
    rfl
  | ok done =>
    obtain ⟨i, hd, hr, -, hnext⟩ := cycle_eq_ok h hc
    refine Or.inr ⟨i, done, ?_, rfl, hd, hr, hnext, ?_⟩
    · rw [completes?, hc, hd]
      rfl
    · simp only [Step.on, Operation.on, EStateM.run, hc, ← hnext]
      rfl

theorem holdsBytes_on (s : Step) {it : Interpreter ρ} (h : it.machine.HoldsBytes) :
    (s.on it).machine.HoldsBytes := by
  cases s with
  | call o => exact o.holdsBytes h
  | set settings => exact h
  | nextTick => exact ⟨h.reg, h.delay, h.sound⟩
  | endFrame => exact h.tickTimers

theorem holdsBytes_after {it : Interpreter ρ} (h : it.machine.HoldsBytes) (steps : List Step) :
    (it.after steps).machine.HoldsBytes := by
  induction steps generalizing it with
  | nil => exact h
  | cons s steps ih => exact ih (holdsBytes_on s h)

/-! ## Turns -/

/-- The steps of a turn after its cycle : the next tick, and the end of a frame if the tick ends
one. A cycle that faults has none. -/
def closing (it : Interpreter ρ) : List Step :=
  match it.cycle with
  | .ok done => .nextTick :: if done.next.nextTick.frameEnds then [.endFrame] else []
  | .error _ => []

/-- The steps of a turn that does not pause. -/
def turnSteps (it : Interpreter ρ) : List Step :=
  .deliver it.machine.tick :: .cycle :: it.deliverDue.closing

/-- The turns that are taken, as long as there are turns left and none of them ends the run. A turn
that pauses takes no step. -/
def turns : Nat → Interpreter ρ → List (List Step)
  | 0, _ => []
  | left + 1, it =>
    match it.turn with
    | .more _ next _ => it.turnSteps :: turns left next
    | .ended (.ok .paused) _ _ => []
    | .ended _ _ _ => [it.turnSteps]

/-- The turns of a run. -/
def runTurns (it : Interpreter ρ) : List (List Step) := it.turns it.ticksLeft

/-- The steps of an operation. -/
def stepsOf (o : Operation) (it : Interpreter ρ) : List Step :=
  match brief : o.settings? with
  | none => [.call o brief]
  | some settings => .set settings :: ({ it with settings } : Interpreter ρ).runTurns.flatten

/-- The steps of a history of operations. -/
def stepsOfAll : List Operation → Interpreter ρ → List Step
  | [], _ => []
  | o :: ops, it => it.stepsOf o ++ stepsOfAll ops (left (o.on.run it))

/-- Turns that an interpreter takes one after another. -/
inductive TakesTurns : Interpreter ρ → List (List Step) → Prop
  | nil (it : Interpreter ρ) : TakesTurns it []
  | cons {it : Interpreter ρ} {turns : List (List Step)} :
    TakesTurns (it.after it.turnSteps) turns → TakesTurns it (it.turnSteps :: turns)

/-- Steps of a run that an interpreter takes one after another, starting with bytes in its registers
and timers. -/
inductive TakesSteps : Interpreter ρ → List Step → Prop
  | nil {it : Interpreter ρ} (h : it.machine.HoldsBytes) : TakesSteps it []
  | cons {it : Interpreter ρ} {s : Step} {steps : List Step} (h : it.machine.HoldsBytes)
    (hs : s.OfRun) : TakesSteps (s.on it) steps → TakesSteps it (s :: steps)

theorem mem_closing {it : Interpreter ρ} {s : Step} (hs : s ∈ it.closing) :
    s = .nextTick ∨ s = .endFrame := by
  unfold closing at hs
  split at hs
  · rcases List.mem_cons.mp hs with rfl | hs
    · exact Or.inl rfl
    · split at hs
      · exact Or.inr (List.mem_singleton.mp hs)
      · contradiction
  · contradiction

/-- After a cycle that is completed comes the next tick, and a frame ends if the tick is a multiple
of its length. -/
theorem closing_eq {it : Interpreter ρ} (h : it.machine.HoldsBytes) :
    it.closing =
      if it.completes?.isSome then
        .nextTick ::
          if (it.machine.tick + 1) % it.settings.cyclesPerFrame = 0 then [.endFrame] else []
      else [] := by
  rw [closing]
  rcases cycle_cases h with ⟨hnone, ⟨f, hc⟩, -⟩ | ⟨i, done, hi, hc, -, -, hnext, -⟩
  · rw [hnone, hc]
    rfl
  · have hends : done.next.nextTick.frameEnds = true ↔
        (it.machine.tick + 1) % it.settings.cyclesPerFrame = 0 := by
      rw [frameEnds_iff, hnext]
      rfl
    simp only [hi, hc, hends]
    rfl

theorem ofRun_of_mem_turnSteps {it : Interpreter ρ} {s : Step} (hs : s ∈ it.turnSteps) :
    s.OfRun := by
  simp only [turnSteps, List.mem_cons] at hs
  rcases hs with rfl | rfl | hs
  · exact .deliver _
  · exact .cycle
  · rcases mem_closing hs with rfl | rfl
    · exact .nextTick
    · exact .endFrame

/-- A turn is seen in the delivery of its keys and in its cycle, if the next tick and the end of a
frame show nothing. -/
theorem seen_turnSteps {α : Type} {see : Step → Interpreter ρ → List α}
    (htick : ∀ it, see .nextTick it = []) (hframe : ∀ it, see .endFrame it = [])
    (it : Interpreter ρ) :
    it.seen see it.turnSteps = see (.deliver it.machine.tick) it ++ see .cycle it.deliverDue := by
  have hclosing : ∀ s ∈ it.deliverDue.closing, ∀ it, see s it = [] := by
    intro s hs
    rcases mem_closing hs with rfl | rfl
    · exact htick
    · exact hframe
  rw [turnSteps, seen_cons, seen_cons, seen_eq_nil hclosing, List.append_nil]
  rfl

/-- A turn leads where its beat leads, or as far as the keys if its cycle faults. -/
theorem after_turnSteps {it : Interpreter ρ} (h : it.machine.HoldsBytes) :
    it.after it.turnSteps =
      match it.beat with
      | some (_, next) => next
      | none => it.deliverDue := by
  have hdue : (Step.deliver it.machine.tick).on it = it.deliverDue := rfl
  have hbytes : it.deliverDue.machine.HoldsBytes := h.deliver _
  rw [turnSteps, beat, after_cons, after_cons, hdue, closing]
  rcases cycle_cases hbytes with ⟨-, ⟨f, hc⟩, hon⟩ | ⟨i, done, -, hc, -, -, hnext, hon⟩
  · rw [hc, hon]
    rfl
  · simp only [hc, hon, ← hnext, after_cons, onward]
    split <;> rfl

theorem turns_succ {it : Interpreter ρ} (h : it.machine.HoldsBytes)
    (hframe : it.settings.cyclesPerFrame ≠ 0) (n : Nat) :
    it.turns (n + 1) =
      if it.pauses then []
      else it.turnSteps :: it.beat.elim [] fun p => p.2.turns n := by
  rw [turns]
  rcases turn_cases h hframe with ⟨hp, _, ht⟩ | ⟨hp, state, next, _, hb, ht⟩ | ⟨hp, hb, _, ht⟩
  · simp [hp, ht]
  · simp [hp, hb, ht]
  · simp [hp, hb, ht]

/-- The turns that are taken lead where the beats lead. -/
theorem after_turns {it : Interpreter ρ} (h : it.machine.HoldsBytes)
    (hframe : it.settings.cyclesPerFrame ≠ 0) (last : CycleState) (n : Nat) :
    it.after (it.turns n).flatten = (it.course last n).2 := by
  induction n generalizing it last with
  | zero => rfl
  | succ n ih =>
    have hturn := after_turnSteps h
    rw [turns_succ h hframe, course]
    split
    · rfl
    · cases hb : it.beat with
      | none =>
        rw [hb] at hturn
        simpa using hturn
      | some p =>
        obtain ⟨state, next⟩ := p
        rw [hb] at hturn
        simp only [List.flatten_cons, after_append, hturn]
        exact ih (holdsBytes_beat h hb) (settings_beat h hb ▸ hframe) state

/-- A run leads where its steps lead. -/
theorem final_run {it : Interpreter ρ} (h : it.machine.HoldsBytes)
    (hframe : 0 < it.settings.cyclesPerFrame) :
    it.run.final = it.after it.runTurns.flatten := by
  have hframe : it.settings.cyclesPerFrame ≠ 0 := by omega
  rw [runTurns, after_turns h hframe .running]
  exact (runFor_eq_course h hframe .running #[] it.ticksLeft).2

theorem after_stepsOf {it : Interpreter ρ} (h : it.machine.HoldsBytes) (o : Operation) :
    it.after (it.stepsOf o) = left (o.on.run it) := by
  unfold stepsOf
  split
  · rfl
  · next settings hrun =>
    cases o with
    | run settings' frame =>
      obtain rfl : settings' = settings := Option.some.inj hrun
      have hset : ({ it with settings := settings' } : Interpreter ρ).machine.HoldsBytes := h
      have hfinal := final_run hset frame
      show ({ it with settings := settings' } : Interpreter ρ).after _ =
        left (conclude ({ it with settings := settings' } : Interpreter ρ).run)
      rw [← hfinal, conclude]
      split <;> rfl
    | _ => simp [Operation.settings?] at hrun

/-- A history of operations, runs included, is an execution. -/
theorem after_stepsOfAll (ops : List Operation) {it : Interpreter ρ} (h : it.machine.HoldsBytes) :
    it.after (it.stepsOfAll ops) = (play Operation.on ops it).2 := by
  induction ops generalizing it with
  | nil => rfl
  | cons o ops ih =>
    rw [stepsOfAll, after_append, after_stepsOf h, ih (o.holdsBytes h)]
    rfl

theorem takesTurns_turns {it : Interpreter ρ} (h : it.machine.HoldsBytes)
    (hframe : it.settings.cyclesPerFrame ≠ 0) (n : Nat) : it.TakesTurns (it.turns n) := by
  induction n generalizing it with
  | zero => exact .nil it
  | succ n ih =>
    have hturn := after_turnSteps h
    rw [turns_succ h hframe]
    split
    · exact .nil it
    · cases hb : it.beat with
      | none => exact .cons (.nil _)
      | some p =>
        obtain ⟨state, next⟩ := p
        rw [hb] at hturn
        refine .cons ?_
        rw [hturn]
        exact ih (holdsBytes_beat h hb) (settings_beat h hb ▸ hframe)

theorem takesTurns_run {it : Interpreter ρ} (h : it.machine.HoldsBytes)
    (hframe : 0 < it.settings.cyclesPerFrame) : it.TakesTurns it.runTurns :=
  takesTurns_turns h (by omega) _

/-- A run that is not over at its beginning takes a turn. -/
theorem runTurns_eq_cons {it : Interpreter ρ} (h : it.machine.HoldsBytes)
    (hframe : 0 < it.settings.cyclesPerFrame) (hpause : it.pauses = false)
    (hlimit : it.machine.tick < it.settings.tickLimit) :
    ∃ rest, it.runTurns = it.turnSteps :: rest := by
  obtain ⟨left, hleft⟩ : ∃ left, it.ticksLeft = left + 1 :=
    Nat.exists_eq_succ_of_ne_zero (by unfold ticksLeft; omega)
  rw [runTurns, hleft, turns_succ h (by omega), hpause, if_neg Bool.false_ne_true]
  exact ⟨_, rfl⟩

namespace TakesSteps

theorem holdsBytes {it : Interpreter ρ} {steps : List Step} (h : it.TakesSteps steps) :
    it.machine.HoldsBytes := by
  cases h with
  | nil h => exact h
  | cons h => exact h

theorem of_ofRun {it : Interpreter ρ} {steps : List Step} (h : it.machine.HoldsBytes)
    (hrun : ∀ s ∈ steps, s.OfRun) : it.TakesSteps steps := by
  induction steps generalizing it with
  | nil => exact .nil h
  | cons s steps ih =>
    refine .cons h (hrun s List.mem_cons_self) (ih (holdsBytes_on s h) fun s hs => ?_)
    exact hrun s (List.mem_cons_of_mem _ hs)

/-- Steps are taken in two goes as in one. -/
theorem split {it : Interpreter ρ} {steps more : List Step} (h : it.TakesSteps (steps ++ more)) :
    it.TakesSteps steps ∧ (it.after steps).TakesSteps more := by
  induction steps generalizing it with
  | nil => exact ⟨.nil h.holdsBytes, h⟩
  | cons s steps ih =>
    cases h with
    | cons h hs hrest =>
      obtain ⟨hsteps, hmore⟩ := ih hrest
      exact ⟨.cons h hs hsteps, hmore⟩

theorem of_prefix {it : Interpreter ρ} {front steps : List Step} (h : it.TakesSteps steps)
    (hfront : front <+: steps) : it.TakesSteps front := by
  obtain ⟨more, rfl⟩ := hfront
  exact h.split.1

end TakesSteps

namespace TakesTurns

/-- Turns are taken in two goes as in one. -/
theorem split {it : Interpreter ρ} {turns more : List (List Step)}
    (h : it.TakesTurns (turns ++ more)) :
    it.TakesTurns turns ∧ (it.after turns.flatten).TakesTurns more := by
  induction turns generalizing it with
  | nil => exact ⟨.nil it, h⟩
  | cons turn turns ih =>
    cases h with
    | cons h =>
      obtain ⟨hturns, hmore⟩ := ih h
      refine ⟨.cons hturns, ?_⟩
      rwa [List.flatten_cons, after_append]

theorem ofRun {it : Interpreter ρ} {turns : List (List Step)} (h : it.TakesTurns turns) :
    ∀ s ∈ turns.flatten, s.OfRun := by
  induction h with
  | nil => simp
  | cons _ ih =>
    intro s hs
    rcases List.mem_append.mp hs with hs | hs
    · exact ofRun_of_mem_turnSteps hs
    · exact ih s hs

theorem takesSteps {it : Interpreter ρ} {turns : List (List Step)} (hturns : it.TakesTurns turns)
    (h : it.machine.HoldsBytes) : it.TakesSteps turns.flatten :=
  .of_ofRun h hturns.ofRun

/-- The keys of the tick are delivered just before a cycle, as the first step of its turn. -/
theorem split_at_cycle {it : Interpreter ρ} {turns : List (List Step)} (h : it.TakesTurns turns)
    {steps more : List Step} (hcycle : turns.flatten = steps ++ .cycle :: more) :
    ∃ before rest, turns = before ++ rest ∧
      steps = before.flatten ++ [.deliver (it.after before.flatten).machine.tick] := by
  induction h generalizing steps with
  | nil => simp at hcycle
  | @cons it turns _ ih =>
    rw [List.flatten_cons, turnSteps, List.cons_append, List.cons_append] at hcycle
    rcases steps with _ | ⟨s, _ | ⟨s', steps⟩⟩
    · obtain ⟨hfirst, -⟩ := List.cons.inj hcycle
      cases hfirst
    · obtain ⟨hfirst, -⟩ := List.cons.inj hcycle
      rw [← hfirst]
      exact ⟨[], it.turnSteps :: turns, rfl, rfl⟩
    · obtain ⟨hfirst, hcycle⟩ := List.cons.inj hcycle
      obtain ⟨hsecond, hcycle⟩ := List.cons.inj hcycle
      -- no cycle follows in the same turn, so the one looked for is in a later turn
      obtain ⟨later, rfl, hlater⟩ : ∃ later, steps = it.deliverDue.closing ++ later ∧
          turns.flatten = later ++ .cycle :: more := by
        rcases List.append_eq_append_iff.mp hcycle with h | ⟨rest, hclosing, hrest⟩
        · exact h
        · cases rest with
          | nil => exact ⟨[], by simpa using hclosing.symm, by simpa using hrest.symm⟩
          | cons s rest =>
            obtain ⟨rfl, -⟩ := List.cons.inj hrest
            rcases mem_closing (hclosing ▸ List.mem_append_right _ List.mem_cons_self) with h | h
            · cases h
            · cases h
      obtain ⟨before, rest, hturns, hsteps⟩ := ih hlater
      refine ⟨it.turnSteps :: before, rest, by rw [hturns, List.cons_append], ?_⟩
      rw [← hfirst, ← hsecond, hsteps, List.flatten_cons, after_append, List.append_assoc]
      rfl

end TakesTurns

theorem takesSteps_turnSteps {it : Interpreter ρ} (h : it.machine.HoldsBytes) :
    it.TakesSteps it.turnSteps :=
  .of_ofRun h fun _ => ofRun_of_mem_turnSteps

/-- A run takes its steps. -/
theorem takesSteps_run {it : Interpreter ρ} (h : it.machine.HoldsBytes)
    (hframe : 0 < it.settings.cyclesPerFrame) : it.TakesSteps it.runTurns.flatten :=
  (takesTurns_run h hframe).takesSteps h

end Interpreter

end Chip8
