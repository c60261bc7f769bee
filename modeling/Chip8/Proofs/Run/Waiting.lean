import Chip8.Proofs.Isa.Words
import Chip8.Proofs.Run.Keys
import Chip8.Proofs.Run.Outcome

/-!
# Waiting for a key

A machine at an instruction that waits for a key stands still as long as none is down
(`Interpreter.cycle_of_no_key`), and takes the lowest one as soon as there is one
(`Interpreter.cycle_of_key`). In a run the ticks and the timers go on meanwhile, and the events that
are due are delivered. So after a number of ticks the interpreter is known in closed form
(`Interpreter.waited`, `Interpreter.Awaits.deliverDue_beats`).

Which keys are held at a tick is told by the list of events alone (`KeyEvent.Held`). The wait ends
at the first tick at which a key is held, if that is below the limit (`Interpreter.Takes`), and
otherwise the run ends stalled at its limit (`Interpreter.GivesUp`).
`Interpreter.waits_end_at_first_key` says so of any timeline. A key that goes down and up at one
tick is not held by that, since of the two events it is the release that counts
(`KeyEvent.not_decides_of_release`).
-/

namespace Chip8

namespace KeyEvent

/-- Events that begin with every key up hold a key at a tick : of those that are due the one that
decides pressed it. -/
def Held (events : List KeyEvent) (key : Key) (tick : Int) : Prop :=
  ∃ place e, Decides events key tick place e ∧ e.pressed = true

/-- Events hold a key at a tick, and none from a start up to there. -/
structure FirstHeld (events : List KeyEvent) (start tick : Int) : Prop where
  reached : start ≤ tick
  held : ∃ key, Held events key tick
  before : ∀ earlier, start ≤ earlier → earlier < tick → ∀ key, ¬ Held events key earlier

variable {events : List KeyEvent}

/-- If a key is ever held, there is a first tick at which one is. -/
theorem exists_firstHeld {start tick : Int} (hreached : start ≤ tick)
    (hheld : ∃ key, Held events key tick) : ∃ first ≤ tick, FirstHeld events start first := by
  classical
  obtain ⟨n, rfl⟩ : ∃ n : Nat, tick = start + n := ⟨(tick - start).toNat, by omega⟩
  have hsome : ∃ n : Nat, ∃ key, Held events key (start + n) := ⟨n, hheld⟩
  have hle := Nat.find_min' hsome hheld
  refine ⟨start + Nat.find hsome, by omega, by omega, Nat.find_spec hsome, ?_⟩
  intro earlier hstart hbefore key hkey
  obtain ⟨m, rfl⟩ : ∃ m : Nat, earlier = start + m := ⟨(earlier - start).toNat, by omega⟩
  exact Nat.find_min hsome (by omega) ⟨key, hkey⟩

/-- A press that is followed by a release of the key at the same tick never decides, and if nothing
of the key follows the release at that tick, the key is not held there. -/
theorem not_decides_of_release {place later : Nat} {tick : Int} {key : Key} (hplace : place < later)
    (hpress : events[place]? = some ⟨tick, key, true⟩)
    (hrelease : events[later]? = some ⟨tick, key, false⟩) :
    (∀ now e, ¬ Decides events key now place e) ∧
      ((∀ other e, events[other]? = some e → e.key = key → e.tick = tick → other ≤ later) →
        ¬ Held events key tick) := by
  constructor
  · intro now e hdecides
    obtain rfl : e = ⟨tick, key, true⟩ := Option.some.inj (hdecides.found.symm.trans hpress)
    have hlast := hdecides.last later _ hrelease rfl hdecides.due
    simp only [Int.lt_irrefl, true_and, false_or] at hlast
    omega
  · rintro hnone ⟨other, e, hdecides, hpressed⟩
    have hbehind := hdecides.last later _ hrelease rfl (Int.le_refl tick)
    have hdue := hdecides.due
    have hother := hnone other e hdecides.found hdecides.own
    dsimp only at hbehind
    obtain rfl : other = later := by omega
    obtain rfl : e = ⟨tick, key, false⟩ := Option.some.inj (hdecides.found.symm.trans hrelease)
    contradiction

end KeyEvent

namespace Machine

/-- What is due of a timeline is all of its events up to the tick. -/
theorem due_of_timeline {m : Machine} {events : List KeyEvent}
    (hpending : m.pending = KeyEvent.timeline events) (tick : Int) :
    m.due tick = (KeyEvent.timeline events).filter fun e => e.tick ≤ tick := by
  have hsplit : m.due tick ++ m.pending.dropWhile (·.tick ≤ tick) = m.pending :=
    List.takeWhile_append_dropWhile
  have hsorted := hpending ▸ KeyEvent.pairwise_timeline events
  rw [← hpending, ← hsplit]
  exact (KeyEvent.filter_append_due (fun _ he => tick_le_of_mem_due he)
    fun _ he => KeyEvent.lt_tick_of_mem_dropWhile hsorted he).1

/-- If every key is up, the events that are due hold the keys that they press. -/
theorem get_keys_deliver {m : Machine} {events : List KeyEvent}
    (hpending : m.pending = KeyEvent.timeline events) (hup : ∀ key : Key, m.keys.get key = false)
    (tick : Int) (key : Key) :
    (m.deliver tick).keys.get key = true ↔ KeyEvent.Held events key tick := by
  have hkeys : (m.deliver tick).keys =
      m.keys.deliver ((KeyEvent.timeline events).filter fun e => e.tick ≤ tick) := by
    rw [deliver, due_of_timeline hpending]
  have hfirst : m.keys.get key = false := hup key
  rw [hkeys]
  refine (Keypad.get_deliver_due m.keys events tick key).trans ?_
  simp [hfirst, KeyEvent.Held]

/-- A timeline that is left over stays as it is if it is attached again. -/
theorem schedule_pending {m : Machine} (h : m.Bounded) : m.schedule m.pending = m := by
  have hsorted : m.pending.Pairwise fun a b => decide (a.tick ≤ b.tick) = true :=
    h.pending.imp decide_eq_true
  rw [schedule, KeyEvent.timeline, List.mergeSort_of_pairwise hsorted]

end Machine

namespace Instruction

/-- Wait for a key and put it into a register. -/
def waiting (x : Register) : Instruction := { op := .ldKey, x := x.val }

theorem encode_waiting (x : Register) : (waiting x).encode = 0xF00A + 256 * x.val := by
  revert x
  decide

theorem decode_waiting (x : Register) : decode (waiting x).encode = .ok (waiting x) :=
  decode_encode_of_register rfl (by omega)

end Instruction

namespace Interpreter

variable {ρ : Type}

/-- The interpreter after it has taken a key. -/
def took (it : Interpreter ρ) (x : Register) (key : Key) : Interpreter ρ :=
  { it with machine := { it.machine.put x key.val with pc := it.machine.pc + 2 } }

/-- The frames that end in a number of ticks. -/
def framesIn (start : Interpreter ρ) (n : Nat) : Int :=
  (start.machine.tick + n) / start.settings.cyclesPerFrame -
    start.machine.tick / start.settings.cyclesPerFrame

/-- The interpreter with its time and its timers moved on by a number of ticks, and otherwise with a
given machine. -/
def ticked (start : Interpreter ρ) (n : Nat) (machine : Machine) : Interpreter ρ :=
  { start with
    machine := { machine with
      tick := start.machine.tick + n
      delay := max 0 (start.machine.delay - start.framesIn n)
      sound := max 0 (start.machine.sound - start.framesIn n) }
    beeps := start.beeps +
      if 1 ≤ start.machine.sound ∧ start.machine.sound ≤ start.framesIn n then 1 else 0 }

/-- The interpreter after a number of ticks in which it stood still, with the keys due delivered. -/
def waited (start : Interpreter ρ) (n : Nat) : Interpreter ρ :=
  start.ticked n (start.machine.deliver (start.machine.tick + n))

variable {start : Interpreter ρ}

theorem ticked_zero (h : start.machine.HoldsBytes) : start.ticked 0 start.machine = start := by
  have hframes : start.framesIn 0 = 0 := by simp [framesIn]
  have hdelay := h.delay
  have hsound := h.sound
  have hnone : ¬ (1 ≤ start.machine.sound ∧ start.machine.sound ≤ 0) := by omega
  have hdelay' : max 0 (start.machine.delay - 0) = start.machine.delay := by omega
  have hsound' : max 0 (start.machine.sound - 0) = start.machine.sound := by omega
  have htick : start.machine.tick + ((0 : Nat) : Int) = start.machine.tick := Int.add_zero _
  simp only [ticked, hframes, hdelay', hsound', if_neg hnone, htick]
  rfl

theorem framesIn_succ (hframe : 0 < start.settings.cyclesPerFrame) (n : Nat) :
    start.framesIn (n + 1) = start.framesIn n +
      if (start.machine.tick + (n + 1 : Nat)) % start.settings.cyclesPerFrame = 0 then 1
      else 0 := by
  have hstep := add_one_ediv hframe (start.machine.tick + n)
  have hnext : start.machine.tick + (n : Int) + 1 = start.machine.tick + (n + 1 : Nat) := by omega
  rw [hnext] at hstep
  rw [framesIn, framesIn, hstep]
  omega

theorem framesIn_nonneg (hframe : 0 < start.settings.cyclesPerFrame) (n : Nat) :
    0 ≤ start.framesIn n := by
  have hle : start.machine.tick ≤ start.machine.tick + n := by omega
  exact Int.sub_nonneg_of_le (Int.ediv_le_ediv hframe hle)

/-- One tick more. -/
theorem onward_ticked (hframe : 0 < start.settings.cyclesPerFrame) (n : Nat) (machine : Machine) :
    (start.ticked n machine).onward = start.ticked (n + 1) machine := by
  have hframes := framesIn_succ hframe n
  have hnonneg := framesIn_nonneg hframe n
  have htick : start.machine.tick + (n : Int) + 1 = start.machine.tick + (n + 1 : Nat) := by omega
  have hends : (start.ticked n machine).nextTick.frameEnds = true ↔
      (start.machine.tick + (n + 1 : Nat)) % start.settings.cyclesPerFrame = 0 := by
    rw [frameEnds_iff, ← htick]
    exact Iff.rfl
  unfold onward
  split
  · next hend =>
    rw [if_pos (hends.mp hend)] at hframes
    have hdown (v : Int) : (if 0 < max 0 (v - start.framesIn n) then
        max 0 (v - start.framesIn n) - 1 else max 0 (v - start.framesIn n)) =
          max 0 (v - start.framesIn (n + 1)) := by
      split <;> omega
    have hbeeps (v : Int) (beeps : Nat) : (if max 0 (v - start.framesIn n) = 1 then
        (beeps + if 1 ≤ v ∧ v ≤ start.framesIn n then 1 else 0) + 1
          else beeps + if 1 ≤ v ∧ v ≤ start.framesIn n then 1 else 0) =
            beeps + if 1 ≤ v ∧ v ≤ start.framesIn (n + 1) then 1 else 0 := by
      split_ifs <;> omega
    simp only [tickTimers, Machine.tickTimers, Machine.buzzes, nextTick, ticked, htick, hdown,
      beq_iff_eq, hbeeps]
  · next hend =>
    rw [if_neg (mt hends.mpr hend), Int.add_zero] at hframes
    simp only [nextTick, ticked, htick, hframes]

theorem deliverDue_ticked (n : Nat) (machine : Machine) : (start.ticked n machine).deliverDue =
    start.ticked n (machine.deliver (start.machine.tick + n)) := rfl

theorem deliverDue_eq_waited (h : start.machine.HoldsBytes) :
    start.deliverDue = start.waited 0 := by
  conv_lhs => rw [← ticked_zero h]
  rfl

theorem deliverDue_onward_waited (hframe : 0 < start.settings.cyclesPerFrame) (n : Nat) :
    (start.waited n).onward.deliverDue = start.waited (n + 1) := by
  have hle : start.machine.tick + (n : Int) ≤ start.machine.tick + (n + 1 : Nat) := by omega
  rw [waited, onward_ticked hframe, deliverDue_ticked, Machine.deliver_deliver_of_le _ hle, waited]

variable [ByteSource ρ] {it : Interpreter ρ} {x : Register}

/-! ## One cycle -/

theorem execute_waiting (it : Interpreter ρ) (x : Register) : it.execute (.waiting x) =
    match it.machine.keys.lowest? with
    | none =>
      .ok ⟨.stalled, { it with machine := { it.machine with pc := it.machine.pc - 2 } }, []⟩
    | some key =>
      .ok ⟨.running, { it with machine := it.machine.put x key.val }, [.keyTaken key]⟩ := by
  have hx : 0 ≤ (x.val : Int) ∧ (x.val : Int) < 16 := by omega
  have hfield : Register.ofField x.val = x := Fin.ext (by have := Register.val_ofField hx; omega)
  have hassign (v : Int) := it.machine.assign_of_field hx v
  rw [hfield] at hassign
  have hexecute : it.machine.execute (.waiting x) 0 = it.machine.awaitKey x.val := rfl
  have hdraw : it.draw (.waiting x) = (0, it.source) := rfl
  have hop : (Instruction.waiting x).op = .ldKey := rfl
  cases hkey : it.machine.keys.lowest? with
  | none =>
    simp only [execute, hdraw, hexecute, Machine.awaitKey, Machine.stalls, keyLog, hop, hkey]
    rfl
  | some key =>
    simp only [execute, hdraw, hexecute, Machine.awaitKey, Machine.stalls, keyLog, hop, hkey,
      hassign]
    rfl

/-- With no key down the interpreter stands still. -/
theorem cycle_of_no_key (hd : it.decode = .ok (.waiting x))
    (hup : ∀ key : Key, it.machine.keys.get key = false) :
    ∃ log, it.cycle = .ok ⟨.stalled, it, log⟩ := by
  have hnone := Keypad.lowest?_eq_none_iff.mpr hup
  have hback : it.machine.pc + 2 - 2 = it.machine.pc := by omega
  have hc := cycle_eq_execute hd
  rw [advance_of_decode hd, execute_waiting] at hc
  simp only [hnone, hback] at hc
  exact ⟨_, hc⟩

/-- The lowest key that is down is taken. -/
theorem cycle_of_key (hd : it.decode = .ok (.waiting x)) {key : Key}
    (hkey : it.machine.keys.lowest? = some key) :
    ∃ log, it.cycle = .ok ⟨.running, it.took x key, log⟩ := by
  have hc := cycle_eq_execute hd
  rw [advance_of_decode hd, execute_waiting] at hc
  simp only [hkey] at hc
  exact ⟨_, hc⟩

theorem beat_of_cycle {due : Interpreter ρ} (hdue : it.deliverDue = due) {done : Cycled ρ}
    (hc : due.cycle = .ok done) : it.beat = some (done.state, done.next.onward) := by
  rw [beat, hdue, hc]

/-! ## A run -/

/-- A run is to begin at an instruction that waits for a key, with every key up, a timeline and no
pause. -/
structure Awaits (start : Interpreter ρ) (events : List KeyEvent) (x : Register) : Prop where
  bytes : start.machine.HoldsBytes
  frame : 0 < start.settings.cyclesPerFrame
  pause : start.settings.pauseTick = none
  word : start.decode = .ok (.waiting x)
  pending : start.machine.pending = KeyEvent.timeline events
  up : ∀ key : Key, start.machine.keys.get key = false

/-- A run stands still for a number of ticks. -/
structure Waits (start : Interpreter ρ) (events : List KeyEvent) (n : Nat) : Prop where
  /-- With the keys of the tick delivered, nothing but the keys, the time and the timers has
  changed. -/
  state : ∀ k ≤ n, (start.beats k).deliverDue = start.waited k
  keys : ∀ k ≤ n, ∀ key : Key, (start.waited k).machine.keys.get key = true ↔
    KeyEvent.Held events key (start.machine.tick + k)
  cycle : ∀ k < n, ∃ log, (start.waited k).cycle = .ok ⟨.stalled, start.waited k, log⟩
  turn : ∀ k < n, ∃ log, (start.beats k).turn = .more .stalled (start.beats (k + 1)) log

/-- A run takes a key after a number of ticks and goes on from there. -/
structure Takes (start : Interpreter ρ) (events : List KeyEvent) (x : Register) (n : Nat)
    (key : Key) : Prop extends Waits start events n where
  held : KeyEvent.Held events key (start.machine.tick + n)
  lowest : ∀ lower < key, ¬ KeyEvent.Held events lower (start.machine.tick + n)
  takes : ∃ log, (start.waited n).cycle = .ok ⟨.running, (start.waited n).took x key, log⟩
  goes : ∃ log, (start.beats n).turn = .more .running ((start.waited n).took x key).onward log
  ending : start.run.ending = ((start.waited n).took x key).onward.run.ending
  final : start.run.final = ((start.waited n).took x key).onward.run.final

/-- A run is over after a number of ticks in which it stood still. The keys of the last tick are not
delivered. -/
structure GivesUp (start : Interpreter ρ) (events : List KeyEvent) (n : Nat) : Prop
    extends Waits start events n where
  ending : start.run.ending = .ok .stalled
  final : start.run.final =
    start.ticked n (start.machine.deliver (start.machine.tick + (n - 1 : Nat)))

namespace Awaits

variable {events : List KeyEvent} {n : Nat} (h : start.Awaits events x)

include h

omit [ByteSource ρ] in
theorem keys_waited (n : Nat) (key : Key) : (start.waited n).machine.keys.get key = true ↔
    KeyEvent.Held events key (start.machine.tick + n) :=
  Machine.get_keys_deliver h.pending h.up _ key

theorem cycle_waited (hnone : ∀ key, ¬ KeyEvent.Held events key (start.machine.tick + n)) :
    ∃ log, (start.waited n).cycle = .ok ⟨.stalled, start.waited n, log⟩ := by
  have hd : (start.waited n).decode = .ok (.waiting x) := h.word
  exact cycle_of_no_key hd fun key =>
    Bool.eq_false_iff.mpr (mt (h.keys_waited n key).mp (hnone key))

/-- A cycle of the run is a turn. -/
theorem turn_of_cycle (hstate : (start.beats n).deliverDue = start.waited n) {done : Cycled ρ}
    (hc : (start.waited n).cycle = .ok done) :
    ∃ log, (start.beats n).turn = .more done.state done.next.onward log := by
  have hset : (start.beats n).settings = start.settings := settings_beats n h.bytes
  have hframe : (start.beats n).settings.cyclesPerFrame ≠ 0 := by
    rw [hset]
    exact Int.ne_of_gt h.frame
  have hgoes : (start.beats n).pauses = false := by
    rw [pauses, hset, h.pause]
    rfl
  have hbeat := beat_of_cycle hstate hc
  rcases turn_cases (holdsBytes_beats n h.bytes) hframe with
    ⟨hpause, -⟩ | ⟨-, state, next, log, hb, ht⟩ | ⟨-, hb, -⟩
  · rw [hgoes] at hpause
    contradiction
  · rw [hbeat] at hb
    obtain ⟨rfl, rfl⟩ := Prod.mk.inj (Option.some.inj hb)
    exact ⟨log, ht⟩
  · rw [hbeat] at hb
    contradiction

variable (hnone : ∀ k < n, ∀ key, ¬ KeyEvent.Held events key (start.machine.tick + k))

include hnone

/-- As long as no key is held, each beat leads to the next tick and changes nothing else. -/
theorem deliverDue_beats : (start.beats n).deliverDue = start.waited n := by
  induction n with
  | zero => exact deliverDue_eq_waited h.bytes
  | succ n ih =>
    have hstate := ih fun k hk => hnone k (Nat.lt_succ_of_lt hk)
    obtain ⟨log, hc⟩ := h.cycle_waited (hnone n (Nat.lt_succ_self n))
    rw [beats_succ_of_beat (beat_of_cycle hstate hc), deliverDue_onward_waited h.frame]

theorem waits : start.Waits events n where
  state k hk := h.deliverDue_beats fun j hj => hnone j (Nat.lt_of_lt_of_le hj hk)
  keys k _ := h.keys_waited k
  cycle k hk := h.cycle_waited (hnone k hk)
  turn k hk := by
    have hstate := h.deliverDue_beats fun j hj => hnone j (Nat.lt_trans hj hk)
    obtain ⟨log, hc⟩ := h.cycle_waited (hnone k hk)
    obtain ⟨log', hturn⟩ := h.turn_of_cycle hstate hc
    exact ⟨log', by rw [hturn, beats_succ_of_beat (beat_of_cycle hstate hc)]⟩

theorem tick_beats : (start.beats n).machine.tick = start.machine.tick + n := by
  have htick := congrArg (fun it => it.machine.tick) (h.deliverDue_beats hnone)
  exact htick

/-- Below the limit nothing ends the run while its cycle is completed. -/
theorem exit?_eq_none (hlimit : start.machine.tick + n < start.settings.tickLimit)
    {done : Cycled ρ} (hc : (start.waited n).cycle = .ok done) :
    (start.beats n).exit? = none := by
  have hbelow : ¬ start.settings.tickLimit ≤ start.machine.tick + n := Int.not_le.mpr hlimit
  have hgoes : ¬ start.settings.pauseTick = some (start.machine.tick + n) := by simp [h.pause]
  rw [exit?, settings_beats n h.bytes, h.tick_beats hnone, if_neg hbelow, if_neg hgoes,
    h.deliverDue_beats hnone, hc]

theorem exit?_before (hlimit : start.machine.tick + n ≤ start.settings.tickLimit) :
    ∀ k < n, (start.beats k).exit? = none := by
  intro k hk
  obtain ⟨log, hc⟩ := h.cycle_waited (hnone k hk)
  exact h.exit?_eq_none (fun j hj => hnone j (Nat.lt_trans hj hk)) (by omega) hc

/-- The first tick at which a key is held ends the wait. -/
theorem takes (hheld : ∃ key, KeyEvent.Held events key (start.machine.tick + n))
    (hlimit : start.machine.tick + n < start.settings.tickLimit) :
    ∃ key, start.Takes events x n key := by
  have hd : (start.waited n).decode = .ok (.waiting x) := h.word
  have hsome : (start.waited n).machine.keys.lowest? ≠ none := by
    intro hup
    obtain ⟨key, hkey⟩ := hheld
    have hdown := (h.keys_waited n key).mpr hkey
    rw [Keypad.lowest?_eq_none_iff.mp hup key] at hdown
    contradiction
  obtain ⟨key, hkey⟩ := Option.ne_none_iff_exists'.mp hsome
  obtain ⟨hdown, hlower⟩ := Keypad.lowest?_eq_some_iff.mp hkey
  obtain ⟨log, hc⟩ := cycle_of_key hd hkey
  have hstate := h.deliverDue_beats hnone
  have hbytes := holdsBytes_beats n h.bytes
  obtain ⟨last, -, hbefore⟩ := course_of_before h.bytes (h.exit?_before hnone (by omega))
  obtain ⟨done, hc', hbeat, hafter⟩ :=
    course_of_exit_none hbytes (h.exit?_eq_none hnone hlimit hc)
  rw [hstate, hc] at hc'
  obtain rfl := Except.ok.inj hc'
  have hnext := holdsBytes_beat hbytes hbeat
  have hframe : ((start.waited n).took x key).onward.settings.cyclesPerFrame ≠ 0 := by
    rw [settings_beat hbytes hbeat, settings_beats n h.bytes]
    exact Int.ne_of_gt h.frame
  obtain ⟨hending, hfinal⟩ :=
    runFor_eq_course h.bytes (Int.ne_of_gt h.frame) .running #[] start.ticksLeft
  obtain ⟨hending', hfinal'⟩ := runFor_eq_course hnext hframe .running #[]
    ((start.waited n).took x key).onward.ticksLeft
  rw [hbefore, hafter] at hending hfinal
  exact ⟨key, {
    toWaits := h.waits hnone
    held := (h.keys_waited n key).mp hdown
    lowest := fun lower hlt hheld => by
      rw [← h.keys_waited n lower, hlower lower hlt] at hheld
      contradiction
    takes := ⟨log, hc⟩
    goes := h.turn_of_cycle hstate hc
    ending := hending.trans hending'.symm
    final := hfinal.trans hfinal'.symm }⟩

/-- A run in which no key is held ends stalled at its limit. -/
theorem givesUp (hlimit : start.machine.tick + n = start.settings.tickLimit) (hn : 0 < n) :
    start.GivesUp events n := by
  obtain ⟨k, rfl⟩ := Nat.exists_eq_succ_of_ne_zero (Nat.ne_of_gt hn)
  have hhere : (start.beats (k + 1)).exit? = some .limit := by
    have hreached : start.settings.tickLimit ≤ start.machine.tick + (k + 1 : Nat) := by omega
    rw [exit?, settings_beats _ h.bytes, h.tick_beats hnone, if_pos hreached]
  have hfirst : start.FirstExit (k + 1) .limit := ⟨h.exit?_before hnone (by omega), hhere⟩
  obtain ⟨ending, houtcome⟩ := hfirst.outcome h.bytes h.frame
  -- the last cycle stalled
  have hstate := h.deliverDue_beats fun j hj => hnone j (Nat.lt_succ_of_lt hj)
  obtain ⟨log, hc⟩ := h.cycle_waited (hnone k (Nat.lt_succ_self k))
  have hstalled : start.LastStalled (k + 1) := ⟨_, hstate ▸ hc, rfl⟩
  obtain rfl := houtcome.stalled_iff.mpr ⟨rfl, hstalled⟩
  exact {
    toWaits := h.waits hnone
    ending := houtcome.ran
    final := by
      rw [houtcome.final (by simp), beats_succ_of_beat (beat_of_cycle hstate hc)]
      exact onward_ticked h.frame k _ }

end Awaits

/-- Whatever operations lead to a machine that is at an instruction that waits for a key, with every
key up, and whatever key events it is given, be it those it has left : a run without a pause stands
still up to the first tick at which a key is held and takes the lowest one there, or it ends stalled
at its limit. A key that is pressed and then released at one tick is not held by that. -/
theorem waits_end_at_first_key (source : ρ) (ops : List Operation) (events : List KeyEvent)
    (x : Register) {s : Settings} (hframe : 0 < s.cyclesPerFrame) (hpause : s.pauseTick = none)
    (hword : (play Operation.on ops (powerOn source)).2.machine.fetch = .ok (0xF00A + 256 * x.val))
    (hup : ∀ key : Key, (play Operation.on ops (powerOn source)).2.machine.keys.get key = false)
    (hlimit : (play Operation.on ops (powerOn source)).2.machine.tick < s.tickLimit) :
    let it := (play Operation.on ops (powerOn source)).2
    let start := ({ it with machine := it.machine.schedule events } : Interpreter ρ).under s
    let t := it.machine.tick
    it.machine.schedule it.machine.pending = it.machine ∧
      (∀ n : Nat, KeyEvent.FirstHeld events t (t + n) → t + n < s.tickLimit →
        ∃ key, start.Takes events x n key) ∧
      ((∀ n : Nat, KeyEvent.FirstHeld events t (t + n) → s.tickLimit ≤ t + n) →
        ∃ n : Nat, t + n = s.tickLimit ∧ start.GivesUp events n) ∧
      ∀ (place later : Nat) (tick : Int) (key : Key), place < later →
        events[place]? = some ⟨tick, key, true⟩ → events[later]? = some ⟨tick, key, false⟩ →
          (∀ now e, ¬ KeyEvent.Decides events key now place e) ∧
            ((∀ other e, events[other]? = some e → e.key = key → e.tick = tick → other ≤ later) →
              ¬ KeyEvent.Held events key tick) := by
  intro it start t
  have hbounded : it.machine.Bounded := bounded_play source ops
  have hbytes := hbounded.toHoldsBytes
  have hlast : t < s.tickLimit := hlimit
  have hfetch : start.machine.fetch = .ok (Instruction.waiting x).encode := by
    rw [Instruction.encode_waiting]
    exact hword
  have hd : start.decode = .ok (.waiting x) := decode_of_fetch hfetch (Instruction.decode_waiting x)
  have h : start.Awaits events x :=
    ⟨⟨hbytes.reg, hbytes.delay, hbytes.sound⟩, hframe, hpause, hd, rfl, hup⟩
  refine ⟨Machine.schedule_pending hbounded, fun n hfirst hbelow => ?_, fun hnever => ?_,
    fun _ _ _ _ => KeyEvent.not_decides_of_release⟩
  · have hnone : ∀ k < n, ∀ key, ¬ KeyEvent.Held events key (t + k) := fun k hk =>
      hfirst.before (t + k) (by omega) (by omega)
    exact h.takes hnone hfirst.held hbelow
  · obtain ⟨n, hn⟩ : ∃ n : Nat, t + n = s.tickLimit := ⟨(s.tickLimit - t).toNat, by omega⟩
    have hnone : ∀ k < n, ∀ key, ¬ KeyEvent.Held events key (t + k) := by
      intro k hk key hkey
      obtain ⟨first, hle, hfirst⟩ := KeyEvent.exists_firstHeld (by omega : t ≤ t + k) ⟨key, hkey⟩
      have hreached := hfirst.reached
      obtain ⟨m, rfl⟩ : ∃ m : Nat, first = t + m := ⟨(first - t).toNat, by omega⟩
      have hafter := hnever m hfirst
      omega
    exact ⟨n, hn, h.givesUp hnone hn (by omega)⟩

/-- A key that goes down and up at the first tick, and one that goes down two ticks later. -/
theorem first_key_after_press_and_release :
    let ops : List Operation := [.load [0xF0, 0x0A]]
    let events : List KeyEvent := [⟨0, 3, true⟩, ⟨0, 3, false⟩, ⟨2, 5, true⟩]
    let s : Settings := { tickLimit := 4 }
    let it := (play Operation.on ops (powerOn (CyclicTape.ofList []))).2
    let start := ({ it with machine := it.machine.schedule events } : Interpreter _).under s
    KeyEvent.FirstHeld events it.machine.tick (it.machine.tick + 2) ∧
      ∃ key, start.Takes events 0 2 key := by
  intro ops events s it start
  have hfirst : KeyEvent.FirstHeld events 0 2 := by
    refine ⟨by decide, ⟨5, 2, ⟨2, 5, true⟩, ⟨rfl, rfl, by decide, ?_⟩, rfl⟩, ?_⟩
    · intro other e hfound hown hdue
      have hplace : other < 3 := (List.getElem?_eq_some_iff.mp hfound).1
      show e.tick < 2 ∨ e.tick = 2 ∧ other ≤ 2
      omega
    · rintro earlier - hbefore key ⟨place, e, hd, hpressed⟩
      have hfound := hd.found
      rcases place with _ | _ | _ | place
      · obtain rfl := Option.some.inj hfound
        obtain rfl : 3 = key := hd.own
        exact (KeyEvent.not_decides_of_release (Nat.zero_lt_one) rfl rfl).1 _ _ hd
      · obtain rfl := Option.some.inj hfound
        contradiction
      · obtain rfl := Option.some.inj hfound
        have hdue : 2 ≤ earlier := hd.due
        omega
      · contradiction
  obtain ⟨-, htakes, -⟩ := waits_end_at_first_key (CyclicTape.ofList []) ops events 0 (s := s)
    (by decide) rfl (by decide +kernel) (by decide +kernel) (by decide +kernel)
  exact ⟨hfirst, htakes 2 hfirst (by decide +kernel)⟩

end Interpreter

end Chip8
