import Chip8.Proofs.Bare.Agreement.Execute

/-!
# The bare machine does what the machine does

On the bare state of an interpreter, a run of the bare machine takes the beats that the
interpreter's run takes (`Bare.run_loop`), and every call returns or raises what it does on the
interpreter and leaves the bare state of what it leaves there (`Bare.run_operate`,
`Bare.run_perform`).

That is so for masks that keep the low sixteen bits on any machine that holds bytes, and for masks
that refuse any other address on any machine within bounds (`Bare.Suits`).
-/

namespace Chip8

namespace Bare

variable {ρ : Type}

theorem run_countDelay {m : Machine} {source : ρ} {beeps : Nat} :
    countDelay.run (.of m source beeps) =
      .ok ()
        (.of { m with delay := if 0 < m.delay then m.delay - 1 else m.delay } source beeps) := by
  rw [countDelay, run_bind_ok (EStateM.run_get _), State.of_delay]
  split <;> rfl

theorem run_countSound {m : Machine} {source : ρ} {beeps : Nat} :
    countSound.run (.of m source beeps) =
      .ok m.buzzes
        (.of { m with sound := if 0 < m.sound then m.sound - 1 else m.sound } source beeps) := by
  rw [countSound, run_bind_ok (EStateM.run_get _), State.of_sound]
  split
  · rfl
  · have hquiet : m.buzzes = false := by
      simp only [Machine.buzzes, beq_eq_false_iff_ne]
      omega
    rw [hquiet]
    rfl

theorem run_tickTimers {m : Machine} {source : ρ} {beeps : Nat} :
    tickTimers.run (.of m source beeps) = .ok m.buzzes (.of m.tickTimers source beeps) := by
  rw [tickTimers, run_bind_ok run_countDelay, run_countSound]
  rfl

theorem run_endFrame (it : Interpreter ρ) :
    endFrame.run it.bare = .ok () it.tickTimers.bare := by
  rw [endFrame, Interpreter.bare, run_bind_ok run_tickTimers, Interpreter.tickTimers]
  cases it.machine.buzzes <;> rfl

variable [ByteSource ρ] {mask : Mask}

omit [ByteSource ρ] in
theorem run_nextTick {it : Interpreter ρ} (hframe : it.settings.cyclesPerFrame ≠ 0) :
    (nextTick it.settings.cyclesPerFrame).run it.bare = .ok () it.onward.bare := by
  have hmoved : (modify fun s => { s with tick := s.tick + 1 } : Prog ρ PUnit).run it.bare =
      .ok () it.nextTick.bare := rfl
  rw [nextTick, run_bind_ok hmoved, run_bind_ok (EStateM.run_get _), if_neg hframe,
    Interpreter.onward]
  by_cases hends : it.nextTick.bare.tick % it.settings.cyclesPerFrame = 0
  · have hframeEnds : it.nextTick.frameEnds = true := Interpreter.frameEnds_iff.mpr hends
    rw [if_pos hends, if_pos hframeEnds, run_endFrame]
  · have hframeEnds : ¬ it.nextTick.frameEnds = true := mt Interpreter.frameEnds_iff.mp hends
    rw [if_neg hends, if_neg hframeEnds]
    rfl

/-- What a run keeps, and where a mask is as good as keeping the low sixteen bits. -/
structure Suits (ρ : Type) [ByteSource ρ] (mask : Mask) (P : Machine → Prop) : Prop extends
    Interpreter.Steady ρ P where
  masks : ∀ {m}, P m → Masks mask m

theorem suits_wrap : Suits ρ wrap Machine.HoldsBytes where
  toSteady := Interpreter.steady_holdsBytes ρ
  masks _ := masks_wrap _

theorem suits_strict : Suits ρ strict Machine.Bounded where
  toSteady := Interpreter.steady_bounded ρ
  masks h := masks_strict h

variable {P : Machine → Prop}

theorem run_attempt (hs : Suits ρ mask P) {it : Interpreter ρ} (h : P it.machine) :
    (tryCatch (attempt mask) handle).run it.bare =
      match it.cycle with
      | .ok done => .ok (some done.state) done.next.bare
      | .error _ => .ok none it.bare := by
  have hcycle := run_cycle (hs.bytes h) (hs.masks h)
  rw [run_tryCatch]
  cases hc : it.cycle with
  | ok done =>
    rw [hc] at hcycle
    rw [attempt, run_bind_ok hcycle]
    rfl
  | error halt =>
    obtain ⟨f, rfl⟩ := Interpreter.cycle_eq_error (hs.bytes h) hc
    rw [hc] at hcycle
    rw [attempt, run_bind_error hcycle]
    rfl

/-- A turn pauses, or it is a beat, or it faults, as long as the tick is below the limit. -/
theorem run_turn (hs : Suits ρ mask P) {it : Interpreter ρ} (h : P it.machine)
    (hframe : it.settings.cyclesPerFrame ≠ 0) (hmore : it.machine.tick < it.settings.tickLimit)
    (last : CycleState) :
    (turn mask it.settings last).run it.bare =
      if it.pauses then .ok (.inl .paused) it.bare
      else
        match it.beat with
        | some (state, next) => .ok (.inr state) next.bare
        | none => .ok (.inl .fault) it.deliverDue.bare := by
  have hdue : P it.deliverDue.machine := hs.deliver h it.machine.tick
  have hdeliver := run_deliver it.machine it.source it.beeps
    it.machine.tick it.machine.pending it.machine.keys
  have hattempt := run_attempt hs hdue
  have hbelow : ¬ it.settings.tickLimit ≤ it.bare.tick := Int.not_le.mpr hmore
  rw [turn, run_bind_ok (EStateM.run_get _), if_neg hbelow]
  by_cases hpause : it.settings.pauseTick = some it.machine.tick
  · have hpauses : it.pauses = true := Interpreter.pauses_iff.mpr hpause
    have hbare : it.settings.pauseTick = some it.bare.tick := hpause
    rw [if_pos hbare, if_pos hpauses]
    rfl
  · have hpauses : ¬ it.pauses = true := mt Interpreter.pauses_iff.mp hpause
    have hbare : ¬ it.settings.pauseTick = some it.bare.tick := hpause
    rw [if_neg hbare, if_neg hpauses, Interpreter.beat]
    refine (run_bind_ok hdeliver).trans ?_
    cases hc : it.deliverDue.cycle with
    | error halt =>
      rw [hc] at hattempt
      exact run_bind_ok hattempt
    | ok done =>
      obtain ⟨i, -, -, -, hnext⟩ := Interpreter.cycle_eq_ok (hs.bytes hdue) hc
      have hsettings : done.next.settings = it.settings := by
        rw [hnext]
        rfl
      have hframe' : done.next.settings.cyclesPerFrame ≠ 0 := hsettings ▸ hframe
      have hmoved := run_nextTick hframe'
      rw [hc] at hattempt
      rw [hsettings] at hmoved
      exact (run_bind_ok hattempt).trans (run_bind_ok hmoved)

/-- A run takes the beats of the interpreter, and its grant is enough. -/
theorem run_loop (hs : Suits ρ mask P) (n : Nat) {it : Interpreter ρ} (h : P it.machine)
    (hframe : it.settings.cyclesPerFrame ≠ 0) (hn : n = it.ticksLeft) (last : CycleState) :
    (loop mask it.settings (n + 1) last).run it.bare =
      .ok (it.course last n).1 (it.course last n).2.bare := by
  induction n generalizing it last with
  | zero =>
    have hend : it.settings.tickLimit ≤ it.bare.tick := by
      simp only [Interpreter.ticksLeft] at hn
      exact (by omega : it.settings.tickLimit ≤ it.machine.tick)
    have hturn : (turn mask it.settings last).run it.bare =
        .ok (.inl (if last = .stalled then .stalled else .stopped)) it.bare := by
      rw [turn, run_bind_ok (EStateM.run_get _), if_pos hend]
      rfl
    exact run_bind_ok hturn
  | succ n ih =>
    have hmore : it.machine.tick < it.settings.tickLimit := by
      simp only [Interpreter.ticksLeft] at hn
      omega
    have hturn := run_turn hs h hframe hmore last
    rw [loop, Interpreter.course]
    by_cases hp : it.pauses = true
    · rw [if_pos hp] at hturn ⊢
      exact run_bind_ok hturn
    · rw [if_neg hp] at hturn ⊢
      cases hb : it.beat with
      | none =>
        rw [hb] at hturn
        exact run_bind_ok hturn
      | some p =>
        obtain ⟨state, next⟩ := p
        have htick := Interpreter.tick_beat (hs.bytes h) hb
        have hset := Interpreter.settings_beat (hs.bytes h) hb
        rw [hb] at hturn
        refine (run_bind_ok hturn).trans ?_
        rw [← hset]
        refine ih (hs.beat h hb) (hset ▸ hframe) ?_ state
        simp only [Interpreter.ticksLeft, htick, hset] at hn ⊢
        omega

theorem run_run (hs : Suits ρ mask P) {it : Interpreter ρ} (h : P it.machine)
    (hframe : 0 < it.settings.cyclesPerFrame) :
    (run mask it.settings).run it.bare = along Interpreter.bare (Interpreter.conclude it.run) := by
  have hloop := run_loop hs _ h (by omega) rfl .running
  rw [Interpreter.conclude_run (hs.bytes h) hframe, run, run_bind_ok (EStateM.run_get _)]
  exact run_bind_ok hloop

/-- An operation does on the bare machine what it does on the interpreter. -/
theorem run_operate (hs : Suits ρ mask P) {it : Interpreter ρ} (h : P it.machine) (o : Operation) :
    (operate mask o).run it.bare = along Interpreter.bare (o.on.run it) := by
  cases o with
  | load image =>
    show _ = along Interpreter.bare (it.change (it.machine.load image))
    rw [operate, Machine.load]
    by_cases hfits : image.length > Memory.capacity
    · rw [if_pos hfits, if_pos hfits]
      rfl
    · have hsize : Memory.capacity = 3584 := rfl
      have hsplice := Row.splice_memory it.machine.memory image (a := 0x200)
        (b := 0x200 + image.length) (by decide) rfl (by omega)
      rw [if_neg hfits, if_neg hfits]
      refine (run_bind_ok (EStateM.run_modify _ _)).trans ?_
      rw [Interpreter.bare, State.of_memory, hsplice]
      rfl
  | reset =>
    refine (run_bind_ok (EStateM.run_modify _ _)).trans ?_
    show EStateM.Result.ok Answer.done (State.powerOn it.source it.beeps) = _
    rw [← State.of_powerOn]
    rfl
  | cycle =>
    refine (run_return Answer.cycled (run_cycle (hs.bytes h) (hs.masks h))).trans ?_
    simp only [Operation.on, EStateM.run]
    rcases it.cycle with halt | done
    · cases halt <;> rfl
    · rfl
  | tickTimers => exact run_bind_ok run_tickTimers
  | run settings frame =>
    have hset : P ({ it with settings } : Interpreter ρ).machine := h
    exact run_run hs hset frame
  | moveKey key pressed =>
    refine (run_return _ (run_moveKey it.machine it.source it.beeps key pressed)).trans ?_
    simp only [Operation.on, EStateM.run]
    cases Key.resolve key <;> rfl
  | schedule events =>
    refine (run_return _ (run_schedule it.machine it.source it.beeps events)).trans ?_
    simp only [Operation.on, EStateM.run]
    cases KeyEvent.ofValues events <;> rfl
  | deliver tick => exact run_bind_ok (run_deliver it.machine it.source it.beeps _ _ _)
  | toggle x y => exact run_bind_ok (run_toggle it.machine it.source it.beeps x y)
  | clear => exact run_bind_ok (run_clear it.machine it.source it.beeps)

/-- A call does on the bare machine what it does on the interpreter. -/
theorem run_perform {it : Interpreter ρ} (h : it.machine.HoldsBytes) (c : Call) :
    (perform wrap c).run it.bare = along Interpreter.bare (c.on.run it) := by
  cases c with
  | operation o => exact run_operate suits_wrap h o
  | push address =>
    have hmask : wrap address = wrap address := rfl
    refine (run_return _ (run_push it.machine it.source it.beeps hmask)).trans ?_
    simp only [Call.on, EStateM.run, Machine.push]
    cases it.machine.stack.push? address <;> rfl
  | pop =>
    refine (run_return Answer.address (run_pop it.machine it.source it.beeps)).trans ?_
    simp only [Call.on, EStateM.run, Machine.pop]
    cases it.machine.stack.pop? <;> rfl
  | fetch =>
    refine (run_return Answer.word (run_fetch it.machine it.source it.beeps)).trans ?_
    simp only [Call.on, EStateM.run, Machine.fetch_eq]
    cases Memory.fault? it.machine.pc 2 "fetch" <;> rfl
  | execute i decoded =>
    have hexecute := run_execute h decoded.inRange (show wrap _ = _ from rfl) rfl
    refine (run_return Answer.cycled hexecute).trans ?_
    simp only [Call.on, EStateM.run, Interpreter.execute_eq h decoded.inRange]
    cases it.machine.refusal i <;> rfl

end Bare

end Chip8
