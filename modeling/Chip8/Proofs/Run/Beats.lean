import Mathlib.Data.List.DropRight
import Chip8.Proofs.Run.Cycle
import Chip8.Run.Loop

/-!
# The beats of a run

A beat is a turn of a run that goes on : the keys due are delivered, a cycle is completed, the
tick moves on, and the timers count down where a frame ends (`Interpreter.beat`). A run is a
number of beats and the way it ends (`Interpreter.course`, `Interpreter.runFor_eq_course`), so it
never breaks off on a machine that holds bytes.

A beat that faults has delivered the keys of its tick and done nothing else, so it faults again
when it is tried again (`Interpreter.beat_deliverDue`). What cycles, key events and timers keep, a
run keeps (`Interpreter.Steady.course`).
-/

namespace Chip8

namespace Machine

/-- What was due at a tick is not due once more later. -/
theorem deliver_deliver_of_le (m : Machine) {tick later : Int} (h : tick ≤ later) :
    (m.deliver tick).deliver later = m.deliver later := by
  have hsplit : m.due tick ++ m.pending.dropWhile (·.tick ≤ tick) = m.pending :=
    List.takeWhile_append_dropWhile
  have hfront : ∀ e ∈ m.due tick, decide (e.tick ≤ later) = true := fun e he => by
    have hdue := List.mem_takeWhile_imp he
    simp only [decide_eq_true_eq] at hdue ⊢
    omega
  have hdue : m.due later = m.due tick ++ (m.deliver tick).due later := by
    rw [due, ← hsplit]
    exact List.takeWhile_append_of_pos hfront
  have hleft : m.pending.dropWhile (·.tick ≤ later) =
      (m.deliver tick).pending.dropWhile (·.tick ≤ later) := by
    rw [← hsplit]
    exact List.dropWhile_append_of_pos hfront
  have hkeys : m.keys.deliver (m.due later) =
      (m.keys.deliver (m.due tick)).deliver ((m.deliver tick).due later) := by
    rw [hdue]
    exact List.foldl_append
  symm
  rw [deliver, hkeys, hleft]
  rfl

theorem deliver_deliver (m : Machine) (tick : Int) :
    (m.deliver tick).deliver tick = m.deliver tick :=
  m.deliver_deliver_of_le (Int.le_refl tick)

theorem HoldsBytes.deliver {m : Machine} (h : m.HoldsBytes) (tick : Int) :
    (m.deliver tick).HoldsBytes :=
  ⟨h.reg, h.delay, h.sound⟩

theorem Bounded.deliver {m : Machine} (h : m.Bounded) (tick : Int) : (m.deliver tick).Bounded :=
  ⟨⟨h.reg, h.delay, h.sound⟩, h.pc, h.index, h.live, h.tick,
    h.pending.sublist (List.dropWhile_sublist _)⟩

theorem Bounded.tickTimers {m : Machine} (h : m.Bounded) : m.tickTimers.Bounded :=
  ⟨h.toHoldsBytes.tickTimers, h.pc, h.index, h.live, h.tick, h.pending⟩

end Machine

namespace Interpreter

variable {ρ : Type} [ByteSource ρ]

/-- What a completed cycle of a run leads to : the next tick, with the timers counted down if it
begins a frame. -/
def onward (it : Interpreter ρ) : Interpreter ρ :=
  if it.nextTick.frameEnds then it.nextTick.tickTimers else it.nextTick

/-- One beat of a run. There is none if its cycle faults. -/
def beat (it : Interpreter ρ) : Option (CycleState × Interpreter ρ) :=
  match it.deliverDue.cycle with
  | .ok done => some (done.state, done.next.onward)
  | .error _ => none

/-- Where a number of beats leads. A beat that faults delivers its keys and is the last. -/
def beats : Nat → Interpreter ρ → Interpreter ρ
  | 0, it => it
  | n + 1, it =>
    match it.beat with
    | some (_, next) => next.beats n
    | none => it.deliverDue

/-- How a run of a number of beats ends, after a cycle that ended in `last`. -/
def endingAfter (last : CycleState) : Nat → Interpreter ρ → Ending
  | 0, _ => if last = .stalled then .stalled else .stopped
  | n + 1, it =>
    match it.beat with
    | some (state, next) => next.endingAfter state n
    | none => .fault

/-- How a run ends that looks for its pause before each beat, and where. -/
def course (last : CycleState) : Nat → Interpreter ρ → Ending × Interpreter ρ
  | 0, it => (if last = .stalled then .stalled else .stopped, it)
  | n + 1, it =>
    if it.pauses then (.paused, it)
    else
      match it.beat with
      | some (state, next) => next.course state n
      | none => (.fault, it.deliverDue)

omit [ByteSource ρ] in
theorem pauses_iff {it : Interpreter ρ} :
    it.pauses = true ↔ it.settings.pauseTick = some it.machine.tick := beq_iff_eq

omit [ByteSource ρ] in
theorem frameEnds_iff {it : Interpreter ρ} :
    it.frameEnds = true ↔ it.machine.tick % it.settings.cyclesPerFrame = 0 := beq_iff_eq

/-! ## What a beat keeps -/

omit [ByteSource ρ] in
theorem deliverDue_deliverDue (it : Interpreter ρ) : it.deliverDue.deliverDue = it.deliverDue := by
  have := it.machine.deliver_deliver it.machine.tick
  simp only [deliverDue]
  exact congrArg (fun machine => { it with machine }) this

theorem beat_deliverDue (it : Interpreter ρ) : it.deliverDue.beat = it.beat := by
  rw [beat, deliverDue_deliverDue, beat]

omit [ByteSource ρ] in
theorem onward_tick (it : Interpreter ρ) : it.onward.machine.tick = it.machine.tick + 1 := by
  unfold onward
  split <;> rfl

omit [ByteSource ρ] in
theorem onward_settings (it : Interpreter ρ) : it.onward.settings = it.settings := by
  unfold onward
  split <;> rfl

theorem beat_eq_some {it : Interpreter ρ} {state : CycleState} {next : Interpreter ρ}
    (hb : it.beat = some (state, next)) :
    ∃ done, it.deliverDue.cycle = .ok done ∧ done.state = state ∧ done.next.onward = next := by
  unfold beat at hb
  split at hb
  · next done hc => exact ⟨done, hc, by simpa using hb⟩
  · contradiction

theorem tick_beat {it : Interpreter ρ} (h : it.machine.HoldsBytes) {state : CycleState}
    {next : Interpreter ρ} (hb : it.beat = some (state, next)) :
    next.machine.tick = it.machine.tick + 1 := by
  obtain ⟨done, hc, -, rfl⟩ := beat_eq_some hb
  obtain ⟨i, -, -, -, hnext⟩ := cycle_eq_ok (h.deliver _) hc
  rw [onward_tick, hnext]
  rfl

theorem settings_beat {it : Interpreter ρ} (h : it.machine.HoldsBytes) {state : CycleState}
    {next : Interpreter ρ} (hb : it.beat = some (state, next)) : next.settings = it.settings := by
  obtain ⟨done, hc, -, rfl⟩ := beat_eq_some hb
  obtain ⟨i, -, -, -, hnext⟩ := cycle_eq_ok (h.deliver _) hc
  rw [onward_settings, hnext]
  rfl

/-! ## What a run keeps -/

variable (ρ) in
/-- What the parts of a turn keep : the keys, the cycle, the tick and the timers. -/
structure Steady (P : Machine → Prop) : Prop where
  bytes : ∀ {m}, P m → m.HoldsBytes
  deliver : ∀ {m}, P m → ∀ tick, P (m.deliver tick)
  cycle : ∀ {it : Interpreter ρ} {done}, P it.machine → it.cycle = .ok done → P done.next.machine
  nextTick : ∀ {m}, P m → P { m with tick := m.tick + 1 }
  tickTimers : ∀ {m}, P m → P m.tickTimers

namespace Steady

variable {P : Machine → Prop} (hs : Steady ρ P) {it : Interpreter ρ}

include hs

theorem onward (h : P it.machine) : P it.onward.machine := by
  unfold Interpreter.onward
  split
  · exact hs.tickTimers (hs.nextTick h)
  · exact hs.nextTick h

theorem beat (h : P it.machine) {state : CycleState} {next : Interpreter ρ}
    (hb : it.beat = some (state, next)) : P next.machine := by
  obtain ⟨done, hc, -, rfl⟩ := beat_eq_some hb
  exact hs.onward (hs.cycle (hs.deliver h _) hc)

theorem course (last : CycleState) (n : Nat) (h : P it.machine) :
    P (it.course last n).2.machine := by
  induction n generalizing it last with
  | zero => exact h
  | succ n ih =>
    unfold Interpreter.course
    split
    · exact h
    · split
      · next hb => exact ih _ (hs.beat h hb)
      · exact hs.deliver h _

end Steady

variable (ρ) in
theorem steady_holdsBytes : Steady ρ Machine.HoldsBytes where
  bytes h := h
  deliver h tick := h.deliver tick
  cycle h hc := holdsBytes_cycle h hc
  nextTick h := ⟨h.reg, h.delay, h.sound⟩
  tickTimers h := h.tickTimers

variable (ρ) in
theorem steady_bounded : Steady ρ Machine.Bounded where
  bytes h := h.toHoldsBytes
  deliver h tick := h.deliver tick
  cycle h hc := bounded_cycle h hc
  nextTick {m} h := by
    have htick := h.tick
    exact ⟨⟨h.reg, h.delay, h.sound⟩, h.pc, h.index, h.live, by dsimp only; omega, h.pending⟩
  tickTimers h := h.tickTimers

theorem holdsBytes_beat {it : Interpreter ρ} (h : it.machine.HoldsBytes) {state : CycleState}
    {next : Interpreter ρ} (hb : it.beat = some (state, next)) : next.machine.HoldsBytes :=
  (steady_holdsBytes ρ).beat h hb

/-! ## Runs are beats -/

/-- A turn pauses, or it is a beat, or it faults. -/
theorem turn_cases {it : Interpreter ρ} (h : it.machine.HoldsBytes)
    (hframe : it.settings.cyclesPerFrame ≠ 0) :
    (it.pauses = true ∧ ∃ log, it.turn = .ended (.ok .paused) it log) ∨
      (it.pauses = false ∧ ∃ state next log, it.beat = some (state, next) ∧
        it.turn = .more state next log) ∨
      (it.pauses = false ∧ it.beat = none ∧
        ∃ log, it.turn = .ended (.ok .fault) it.deliverDue log) := by
  cases hp : it.pauses with
  | true => exact Or.inl ⟨rfl, _, by simp [turn, hp]; rfl⟩
  | false =>
    cases hc : it.deliverDue.cycle with
    | error halt =>
      obtain ⟨f, rfl⟩ := cycle_eq_error (h.deliver _) hc
      exact Or.inr (Or.inr ⟨rfl, by simp [beat, hc], _, by simp [turn, hp, hc]; rfl⟩)
    | ok done =>
      obtain ⟨i, -, -, -, hnext⟩ := cycle_eq_ok (h.deliver _) hc
      have hset : done.next.nextTick.settings.cyclesPerFrame ≠ 0 := by
        rw [nextTick, hnext]
        exact hframe
      refine Or.inr (Or.inl ⟨rfl, done.state, done.next.onward, ?_⟩)
      cases hf : done.next.nextTick.frameEnds with
      | true => exact ⟨_, by simp [beat, hc], by simp [turn, hp, hc, hset, hf, onward]; rfl⟩
      | false => exact ⟨_, by simp [beat, hc], by simp [turn, hp, hc, hset, hf, onward]; rfl⟩

theorem runFor_eq_course {it : Interpreter ρ} (h : it.machine.HoldsBytes)
    (hframe : it.settings.cyclesPerFrame ≠ 0) (last : CycleState) (log : Array LogEntry) (n : Nat) :
    (runFor last log n it).ending = .ok (it.course last n).1 ∧
      (runFor last log n it).final = (it.course last n).2 := by
  induction n generalizing it last log with
  | zero => exact ⟨rfl, rfl⟩
  | succ n ih =>
    rcases turn_cases h hframe with ⟨hp, _, ht⟩ | ⟨hp, state, next, _, hb, ht⟩ | ⟨hp, hb, _, ht⟩
    · simp [runFor, course, hp, ht]
    · simp only [runFor, course, hp, hb, ht]
      exact ih (holdsBytes_beat h hb) (settings_beat h hb ▸ hframe) _ _
    · simp [runFor, course, hp, hb, ht]

end Interpreter

end Chip8
