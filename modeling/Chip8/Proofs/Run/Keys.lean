import Chip8.Proofs.Run.Resume
import Chip8.Proofs.Run.Steps
import Chip8.Proofs.Schedule.Timeline

/-!
# The keys of a run

The steps of a run only ever take events off the front of the timeline and deliver them
(`Interpreter.keys_after`). A turn takes off those that are due at its tick
(`Interpreter.seen_delivers_turnSteps`), and a timeline is in the order of its ticks, so at a cycle
what was taken off is all that is due and what is left is all that is not
(`Interpreter.delivered_at_cycle`).

The keys are then as the timeline says (`Interpreter.keys_follow_timeline`). Which of the events of
a key is the one that counts is told in the list that was handed in, by the ticks and by the
places in it.
-/

namespace Chip8

variable {ρ : Type} [ByteSource ρ]

/-- The events that a step delivers. -/
def Step.delivers (s : Step) (it : Interpreter ρ) : List KeyEvent :=
  match s with
  | .call (.deliver tick) _ => it.machine.due tick
  | _ => []

theorem Machine.tick_le_of_mem_due {m : Machine} {tick : Int} {e : KeyEvent} (he : e ∈ m.due tick) :
    e.tick ≤ tick := by
  have hdue := List.mem_takeWhile_imp he
  exact of_decide_eq_true hdue

namespace Interpreter

/-- What the events of a list say of an interpreter whose keys were `start` before any of them. -/
structure KeepsTimeline (events : List KeyEvent) (start : Keypad) (delivered : List KeyEvent)
    (now : Interpreter ρ) : Prop where
  /-- A key is down if the last of its events that are due pressed it, or if none is due and it was
  down. -/
  down : ∀ key : Key, now.machine.keys.get key = true ↔
    (∃ place e, KeyEvent.Decides events key now.machine.tick place e ∧ e.pressed = true) ∨
      (∀ e ∈ events, e.key = key → now.machine.tick < e.tick) ∧ start.get key = true
  /-- The events that are left are those that are not due. -/
  pending : now.machine.pending.Perm (events.filter fun e => now.machine.tick < e.tick)
  /-- The events that are due have been delivered, each of them once. -/
  once : delivered.Perm (events.filter fun e => e.tick ≤ now.machine.tick)
  /-- What the program does next changes neither the keys nor the events that are left. -/
  cycle : (Step.cycle.on now).machine.keys = now.machine.keys ∧
    (Step.cycle.on now).machine.pending = now.machine.pending

/-- A cycle, completed or not, leaves the keys, the events that are left and the tick. -/
theorem keys_cycle {it : Interpreter ρ} (h : it.machine.HoldsBytes) :
    (Step.cycle.on it).machine.keys = it.machine.keys ∧
      (Step.cycle.on it).machine.pending = it.machine.pending ∧
      (Step.cycle.on it).machine.tick = it.machine.tick := by
  rcases cycle_cases h with ⟨-, -, hon⟩ | ⟨i, done, -, -, -, -, -, hon⟩
  · rw [hon]
    exact ⟨rfl, rfl, rfl⟩
  · rw [hon]
    exact ⟨rfl, rfl, rfl⟩

/-- A step of a run takes events off the front of the timeline and delivers them. -/
theorem keys_on {s : Step} (hs : s.OfRun) {it : Interpreter ρ} (h : it.machine.HoldsBytes) :
    (s.on it).machine.keys = it.machine.keys.deliver (s.delivers it) ∧
      s.delivers it ++ (s.on it).machine.pending = it.machine.pending ∧
      it.machine.tick ≤ (s.on it).machine.tick := by
  cases hs with
  | deliver tick => exact ⟨rfl, List.takeWhile_append_dropWhile, Int.le_refl _⟩
  | cycle =>
    obtain ⟨hkeys, hpending, htick⟩ := keys_cycle h
    exact ⟨hkeys, hpending, Int.le_of_eq htick.symm⟩
  | nextTick => exact ⟨rfl, rfl, Int.le_add_one (Int.le_refl _)⟩
  | endFrame => exact ⟨rfl, rfl, Int.le_refl _⟩

theorem keys_after {it : Interpreter ρ} {steps : List Step} (hsteps : it.TakesSteps steps) :
    (it.after steps).machine.keys = it.machine.keys.deliver (it.seen Step.delivers steps) ∧
      it.seen Step.delivers steps ++ (it.after steps).machine.pending = it.machine.pending ∧
      it.machine.tick ≤ (it.after steps).machine.tick := by
  induction hsteps with
  | nil => exact ⟨rfl, rfl, Int.le_refl _⟩
  | cons h hs _ ih =>
    obtain ⟨hkeys, hpending, htick⟩ := keys_on hs h
    obtain ⟨hkeys', hpending', htick'⟩ := ih
    refine ⟨?_, ?_, Int.le_trans htick htick'⟩
    · rw [after_cons, seen_cons, hkeys', hkeys, Keypad.deliver_append]
    · rw [after_cons, seen_cons, List.append_assoc, hpending', hpending]

/-- A turn delivers the events that are due at its tick. -/
theorem seen_delivers_turnSteps (it : Interpreter ρ) :
    it.seen Step.delivers it.turnSteps = it.machine.due it.machine.tick := by
  rw [seen_turnSteps (fun _ => rfl) fun _ => rfl]
  exact List.append_nil _

/-- Events are delivered at or after their ticks. -/
theorem TakesTurns.tick_delivered {it : Interpreter ρ} {turns : List (List Step)}
    (hturns : it.TakesTurns turns) (h : it.machine.HoldsBytes) :
    ∀ e ∈ it.seen Step.delivers turns.flatten,
      e.tick ≤ (it.after turns.flatten).machine.tick := by
  induction hturns with
  | nil => simp
  | @cons it turns hturns ih =>
    have hbytes := holdsBytes_after h it.turnSteps
    have hturn := (keys_after (takesSteps_turnSteps h)).2.2
    have hlater := (keys_after (hturns.takesSteps hbytes)).2.2
    intro e he
    rw [List.flatten_cons, seen_append, seen_delivers_turnSteps] at he
    rw [List.flatten_cons, after_append]
    rcases List.mem_append.mp he with hdue | hrest
    · have := Machine.tick_le_of_mem_due hdue
      omega
    · exact ih hbytes e hrest

/-- At a cycle of a run what was delivered is what is due, and what is left is what is not. -/
theorem delivered_at_cycle {it : Interpreter ρ} {turns : List (List Step)}
    (hturns : it.TakesTurns turns) (h : it.machine.HoldsBytes)
    (hsorted : it.machine.pending.Pairwise fun a b => a.tick ≤ b.tick)
    {steps more : List Step} (hcycle : turns.flatten = steps ++ .cycle :: more) :
    it.seen Step.delivers steps =
        it.machine.pending.filter (fun e => e.tick ≤ (it.after steps).machine.tick) ∧
      (it.after steps).machine.pending =
        it.machine.pending.filter fun e => (it.after steps).machine.tick < e.tick := by
  have hwhole := (keys_after (hcycle ▸ hturns.takesSteps h).split.1).2.1
  obtain ⟨before, rest, rfl, rfl⟩ := hturns.split_at_cycle hcycle
  have hbefore := hturns.split.1
  rw [← hwhole]
  refine KeyEvent.filter_append_due (fun e he => ?_) fun e he => ?_
  · rw [seen_append] at he
    rw [after_append]
    rcases List.mem_append.mp he with he | he
    · exact hbefore.tick_delivered h e he
    · rw [seen_cons, seen_nil, List.append_nil] at he
      exact Machine.tick_le_of_mem_due he
  · have hpending := (keys_after (hbefore.takesSteps h)).2.1
    rw [after_append] at he ⊢
    exact KeyEvent.lt_tick_of_mem_dropWhile
      (hsorted.sublist (hpending ▸ List.sublist_append_right _ _)) he

/-- A machine that operations lead to is given key events and runs, under any settings. Then at
each cycle of the run, completed or not, the keys are as the events due at its tick left them, and
the events that are left are those that are not due. -/
theorem keys_follow_timeline (source : ρ) (ops : List Operation) {value : Value}
    {events : List KeyEvent} (hevents : KeyEvent.ofValues value = .ok events) {s : Settings}
    (hframe : 0 < s.cyclesPerFrame) :
    let it := (play Operation.on ops (powerOn source)).2
    let start := (left ((Operation.schedule value).on.run it)).under s
    start.run.final = start.after start.runTurns.flatten ∧
      ∀ steps more, start.runTurns.flatten = steps ++ .cycle :: more →
        (start.after steps).KeepsTimeline events it.machine.keys
          (start.seen Step.delivers steps) := by
  intro it start
  have hbytes : it.machine.HoldsBytes := (bounded_play source ops).toHoldsBytes
  have hstart : start = { it with machine := it.machine.schedule events, settings := s } := by
    simp only [start, Operation.on, EStateM.run, hevents]
    rfl
  have h : start.machine.HoldsBytes := by
    rw [hstart]
    exact ⟨hbytes.reg, hbytes.delay, hbytes.sound⟩
  have hset : 0 < start.settings.cyclesPerFrame := hframe
  have hpending : start.machine.pending = KeyEvent.timeline events := by rw [hstart]; rfl
  refine ⟨final_run h hset, fun steps more hcycle => ?_⟩
  have hturns := takesTurns_run h hset
  obtain ⟨hdelivered, hleft⟩ :=
    delivered_at_cycle hturns h (hpending ▸ KeyEvent.pairwise_timeline events) hcycle
  obtain ⟨hkeys, -, -⟩ := keys_after (hcycle ▸ hturns.takesSteps h).split.1
  have hnext := keys_cycle (holdsBytes_after h steps)
  rw [hpending] at hdelivered hleft
  refine ⟨fun key => ?_, ?_, ?_, hnext.1, hnext.2.1⟩
  · have hfirst : start.machine.keys = it.machine.keys := by rw [hstart]; rfl
    rw [hkeys, hdelivered, hfirst]
    exact Keypad.get_deliver_due it.machine.keys events _ key
  · rw [hleft]
    exact (KeyEvent.timeline_perm events).filter _
  · rw [hdelivered]
    exact (KeyEvent.timeline_perm events).filter _

/-- A key that goes down and up at one tick, at the first cycle of a run. -/
theorem keys_of_press_and_release :
    let value : Value :=
      .list [.list [.int 0, .int 3, .bool true], .list [.int 0, .int 3, .bool false]]
    let events : List KeyEvent := [⟨0, 3, true⟩, ⟨0, 3, false⟩]
    let it := powerOn (CyclicTape.ofList [])
    let start := (left ((Operation.schedule value).on.run it)).under { tickLimit := 1 }
    KeyEvent.ofValues value = .ok events ∧
      ∃ more, start.runTurns.flatten = [.deliver 0] ++ .cycle :: more ∧
        (start.after [.deliver 0]).KeepsTimeline events .released
          (start.seen Step.delivers [.deliver 0]) := by
  intro value events it start
  have hevents : KeyEvent.ofValues value = .ok events := rfl
  have hbytes : start.machine.HoldsBytes :=
    ⟨Machine.HoldsBytes.powerOn.reg, by decide, by decide⟩
  obtain ⟨rest, hrest⟩ := runTurns_eq_cons hbytes (by decide) rfl (by decide)
  have hcycle : start.runTurns.flatten =
      [.deliver 0] ++ .cycle :: (start.deliverDue.closing ++ rest.flatten) := by
    rw [hrest]
    rfl
  have hkeys := (keys_follow_timeline (CyclicTape.ofList []) [] hevents
    (s := { tickLimit := 1 }) (by decide)).2 _ _ hcycle
  exact ⟨hevents, _, hcycle, hkeys⟩

end Interpreter

end Chip8
