import Chip8.Proofs.Run.Beats
import Chip8.Schedule.Event

/-!
# Histories of calls

A machine is used by calls made one after another, each of which returns an answer or raises an
error and leaves a state either way (`play`). `Operation` is what a user of a machine calls, and
`Call` adds the helpers that an instruction is made of. `Interpreter.powerOn` is where every
history begins.

Two facts about histories hold whatever the calls are. A state that stands for another one through
a whole call stands for it through a history (`play_simulates`). And if a call that raises leaves
the state as it was, then a history without the calls that raise leads to the same state and gives
the other calls the same answers (`play_returning`).
-/

namespace Chip8

/-! ## Calls in general -/

section Play

variable {α β ε σ τ : Type}

/-- What a call returned or raised. -/
def answer : EStateM.Result ε σ β → Except ε β
  | .ok b _ => .ok b
  | .error e _ => .error e

/-- The state that a call left, whether it returned or raised. -/
def left : EStateM.Result ε σ β → σ
  | .ok _ s => s
  | .error _ s => s

/-- Whether a call returned. -/
def returned : Except ε β → Bool
  | .ok _ => true
  | .error _ => false

/-- Make calls one after another : what each of them returned or raised, and the state at the end.
A call that raises leaves the state it was broken off in, and the next one goes on from there. -/
def play (act : α → EStateM ε σ β) : List α → σ → List (Except ε β) × σ
  | [], s => ([], s)
  | a :: calls, s =>
    let result := (act a).run s
    let rest := play act calls (left result)
    (answer result :: rest.1, rest.2)

/-- The calls of a history that return. -/
def returning (act : α → EStateM ε σ β) : List α → σ → List α
  | [], _ => []
  | a :: calls, s =>
    let result := (act a).run s
    let rest := returning act calls (left result)
    if returned (answer result) then a :: rest else rest

/-- The same result, told of another state. -/
def along (f : σ → τ) : EStateM.Result ε σ β → EStateM.Result ε τ β
  | .ok b s => .ok b (f s)
  | .error e s => .error e (f s)

theorem answer_along (f : σ → τ) (r : EStateM.Result ε σ β) : answer (along f r) = answer r := by
  cases r <;> rfl

theorem left_along (f : σ → τ) (r : EStateM.Result ε σ β) : left (along f r) = f (left r) := by
  cases r <;> rfl

/-- What every call keeps holds at the end of a history. -/
theorem play_keeps {act : α → EStateM ε σ β} {P : σ → Prop}
    (hkeep : ∀ s, P s → ∀ a, P (left ((act a).run s))) :
    ∀ (calls : List α) {s : σ}, P s → P (play act calls s).2
  | [], _, h => h
  | a :: calls, s, h => play_keeps hkeep calls (hkeep s h a)

/-- Calls that do the same to a state and to what stands for it give the same answers, and the
states at the end stand for each other. -/
theorem play_simulates {act : α → EStateM ε σ β} {act' : α → EStateM ε τ β} {f : σ → τ}
    {P : σ → Prop} (hkeep : ∀ s, P s → ∀ a, P (left ((act a).run s)))
    (hact : ∀ s, P s → ∀ a, (act' a).run (f s) = along f ((act a).run s)) :
    ∀ (calls : List α) {s : σ}, P s →
      play act' calls (f s) = ((play act calls s).1, f (play act calls s).2)
  | [], _, _ => rfl
  | a :: calls, s, h => by
    have ih := play_simulates hkeep hact calls (hkeep s h a)
    simp only [play, hact s h a, answer_along, left_along, ih]

/-- If calls that raise leave the state as it was, they can be left out of a history. -/
theorem play_returning {act : α → EStateM ε σ β} {P : σ → Prop}
    (hkeep : ∀ s, P s → ∀ a, P (left ((act a).run s)))
    (hraise : ∀ s, P s → ∀ a e t, (act a).run s = .error e t → t = s) :
    ∀ (calls : List α) {s : σ}, P s →
      play act (returning act calls s) s =
        ((play act calls s).1.filter returned, (play act calls s).2)
  | [], _, _ => rfl
  | a :: calls, s, h => by
    have hleft := hkeep s h a
    cases hr : (act a).run s with
    | ok b t =>
      rw [hr] at hleft
      have ih := play_returning hkeep hraise calls hleft
      simp only [left] at ih
      simp [play, returning, hr, answer, left, returned, List.filter_cons, ih]
    | error e t =>
      obtain rfl := hraise s h a e t hr
      have ih := play_returning hkeep hraise calls h
      simp [play, returning, hr, answer, left, returned, ih]

end Play

/-! ## Calls of a machine -/

/-- What a call raises. -/
inductive Raised where
  | fault (f : Fault)
  /-- An index names no cell of a row. -/
  | noCell
  /-- A value that is to be stored in memory is no byte. -/
  | notByte
  /-- No instruction is known for an operation. -/
  | unhandled
  /-- A mask would change a value. -/
  | masked
  /-- A run is longer than the ticks up to its limit. -/
  | unfinished
  | key (e : Key.Error)
  | events (e : KeyEvent.Error)
  | run (e : RunError)

namespace Raised

/-- What a misuse of the machine raises. -/
def ofMisuse : Misuse → Raised
  | .noSource | .noTarget => .noCell
  | .notByte => .notByte

/-- What a run raises that breaks off. -/
def ofRunError : RunError → Raised
  | .misuse e => .ofMisuse e
  | e => .run e

end Raised

/-- What a call returns. -/
inductive Answer where
  | done
  | word (w : Nat)
  | address (a : Int)
  | cycled (state : CycleState)
  | lit (b : Bool)
  | buzzed (b : Bool)
  /-- The picture, the tick and the ending of a run. -/
  | ran (display : String) (tick : Int) (ending : Ending)
deriving DecidableEq

/-- What a user of a machine calls. -/
inductive Operation where
  | load (image : List UInt8)
  | reset
  | cycle
  | tickTimers
  | run (settings : Settings) (frame : 0 < settings.cyclesPerFrame)
  | moveKey (key : Value) (pressed : Bool)
  | schedule (events : Value)
  | deliver (tick : Int)
  | toggle (x y : Int)
  | clear

/-- What can be called on a machine : an operation, or one of the helpers of instructions. -/
inductive Call where
  | operation (o : Operation)
  | push (address : Int)
  | pop
  | fetch
  | execute (i : Instruction) (decoded : i.Decoded)

namespace Interpreter

variable {ρ : Type}

/-- An interpreter at its beginning, with a source of random bytes. -/
def powerOn (source : ρ) : Interpreter ρ where
  machine := .powerOn
  settings := {}
  source

/-- A call that changes the machine, or is refused with a fault. -/
def change (it : Interpreter ρ) :
    Except Fault Machine → EStateM.Result Raised (Interpreter ρ) Answer
  | .ok machine => .ok .done { it with machine }
  | .error f => .error (.fault f) it

/-- A call that executes an instruction. -/
def finish (it : Interpreter ρ) :
    Except (Halt ρ) (Cycled ρ) → EStateM.Result Raised (Interpreter ρ) Answer
  | .ok done => .ok (.cycled done.state) done.next
  | .error (.fault f) => .error (.fault f) it
  | .error (.misuse e left) => .error (.ofMisuse e) left

/-- A call that runs the interpreter. -/
def conclude (ran : Ran ρ) : EStateM.Result Raised (Interpreter ρ) Answer :=
  match ran.ending with
  | .ok ending =>
    .ok (.ran ran.final.machine.screen.picture ran.final.machine.tick ending) ran.final
  | .error e => .error (.ofRunError e) ran.final

end Interpreter

variable {ρ : Type} [ByteSource ρ]

/-- An operation, called on an interpreter. -/
def Operation.on (o : Operation) : EStateM Raised (Interpreter ρ) Answer := fun it =>
  match o with
  | .load image => it.change (it.machine.load image)
  | .reset => .ok .done { it with machine := .powerOn }
  | .cycle => it.finish it.cycle
  | .tickTimers => .ok (.buzzed it.machine.buzzes) { it with machine := it.machine.tickTimers }
  | .run settings _ => Interpreter.conclude { it with settings }.run
  | .moveKey key pressed =>
    match Key.resolve key with
    | .ok key => .ok .done { it with machine := it.machine.moveKey key pressed }
    | .error e => .error (.key e) it
  | .schedule events =>
    match KeyEvent.ofValues events with
    | .ok events => .ok .done { it with machine := it.machine.schedule events }
    | .error e => .error (.events e) it
  | .deliver tick => .ok .done { it with machine := it.machine.deliver tick }
  | .toggle x y =>
    .ok (.lit (it.machine.screen.lit x y))
      { it with machine := { it.machine with
        screen := it.machine.screen.toggle (Screen.cell x y) } }
  | .clear => .ok .done { it with machine := { it.machine with screen := .blank } }

/-- A call on an interpreter. -/
def Call.on (c : Call) : EStateM Raised (Interpreter ρ) Answer := fun it =>
  match c with
  | .operation o => o.on it
  | .push address => it.change (it.machine.push address)
  | .pop =>
    match it.machine.pop with
    | .ok (address, machine) => .ok (.address address.toNat) { it with machine }
    | .error f => .error (.fault f) it
  | .fetch =>
    match it.machine.fetch with
    | .ok word => .ok (.word word) it
    | .error f => .error (.fault f) it
  | .execute i _ => it.finish (it.execute i)

/-! ## What calls keep -/

namespace Machine

theorem HoldsBytes.powerOn : Machine.powerOn.HoldsBytes where
  reg r := by simp [Machine.powerOn, Machine.reg]
  delay := by decide
  sound := by decide

theorem Bounded.powerOn : Machine.powerOn.Bounded where
  toHoldsBytes := .powerOn
  pc := by decide
  index := by decide
  live := by simp [Machine.powerOn]
  tick := by decide
  pending := by simp [Machine.powerOn]

theorem Bounded.schedule {m : Machine} (h : m.Bounded) (events : List KeyEvent) :
    (m.schedule events).Bounded where
  toHoldsBytes := ⟨h.reg, h.delay, h.sound⟩
  pc := h.pc
  index := h.index
  live := h.live
  tick := h.tick
  pending := by
    have hsorted : (KeyEvent.timeline events).Pairwise fun a b => decide (a.tick ≤ b.tick) = true :=
      List.pairwise_mergeSort (fun a b c => by simp; omega) (fun a b => by simp; omega) events
    exact hsorted.imp fun h => by simpa using h

end Machine

/-- A run breaks off nowhere, and leads where its beats lead. -/
theorem Interpreter.conclude_run {it : Interpreter ρ} (h : it.machine.HoldsBytes)
    (hframe : 0 < it.settings.cyclesPerFrame) :
    Interpreter.conclude it.run =
      let (ending, final) := it.course .running it.ticksLeft
      .ok (.ran final.machine.screen.picture final.machine.tick ending) final := by
  obtain ⟨hending, hfinal⟩ := runFor_eq_course h (by omega) .running #[] it.ticksLeft
  rw [← Interpreter.run] at hending hfinal
  simp only [conclude, hending, hfinal]

/-- What a run keeps, an operation keeps, if it holds of a machine that is switched on and says
nothing about memory, keys or screen. -/
theorem Operation.keeps {P : Machine → Prop} (hs : Interpreter.Steady ρ P) (hstart : P .powerOn)
    (hrows : ∀ {m}, P m → ∀ memory keys screen, P { m with memory, keys, screen })
    (hschedule : ∀ {m}, P m → ∀ events, P (m.schedule events)) (o : Operation)
    {it : Interpreter ρ} (h : P it.machine) : P (left (o.on.run it)).machine := by
  have hkept := hrows h
  cases o with
  | load image =>
    simp only [on, EStateM.run, Machine.load]
    split
    · exact h
    · exact hkept _ _ _
  | reset => exact hstart
  | cycle =>
    simp only [on, EStateM.run]
    cases hc : it.cycle with
    | ok done => exact hs.cycle h hc
    | error halt =>
      obtain ⟨f, rfl⟩ := Interpreter.cycle_eq_error (hs.bytes h) hc
      exact h
  | tickTimers => exact hs.tickTimers h
  | run settings frame =>
    have hset : P ({ it with settings } : Interpreter ρ).machine := h
    simp only [on, EStateM.run]
    rw [Interpreter.conclude_run (hs.bytes hset) frame]
    exact hs.course _ _ hset
  | moveKey key pressed =>
    simp only [on, EStateM.run]
    split
    · exact hkept _ _ _
    · exact h
  | schedule events =>
    simp only [on, EStateM.run]
    split
    · exact hschedule h _
    · exact h
  | deliver tick => exact hs.deliver h tick
  | toggle x y | clear => exact hkept _ _ _

theorem Operation.holdsBytes (o : Operation) {it : Interpreter ρ} (h : it.machine.HoldsBytes) :
    (left (o.on.run it)).machine.HoldsBytes :=
  o.keeps (Interpreter.steady_holdsBytes ρ) .powerOn (fun h _ _ _ => ⟨h.reg, h.delay, h.sound⟩)
    (fun h _ => ⟨h.reg, h.delay, h.sound⟩) h

theorem Operation.bounded (o : Operation) {it : Interpreter ρ} (h : it.machine.Bounded) :
    (left (o.on.run it)).machine.Bounded :=
  o.keeps (Interpreter.steady_bounded ρ) .powerOn
    (fun h _ _ _ => ⟨⟨h.reg, h.delay, h.sound⟩, h.pc, h.index, h.live, h.tick, h.pending⟩)
    (fun h events => h.schedule events) h

/-- A machine that operations lead to is within bounds. -/
theorem Interpreter.bounded_play (source : ρ) (ops : List Operation) :
    (play Operation.on ops (powerOn source)).2.machine.Bounded :=
  play_keeps (P := fun it : Interpreter ρ => it.machine.Bounded) (fun _ h o => o.bounded h) ops
    .powerOn

theorem Call.holdsBytes (c : Call) {it : Interpreter ρ} (h : it.machine.HoldsBytes) :
    (left (c.on.run it)).machine.HoldsBytes := by
  cases c with
  | operation o => exact o.holdsBytes h
  | push address =>
    simp only [on, EStateM.run, Machine.push]
    cases it.machine.stack.push? address with
    | none => exact h
    | some stack => exact ⟨h.reg, h.delay, h.sound⟩
  | pop =>
    simp only [on, EStateM.run, Machine.pop]
    cases it.machine.stack.pop? with
    | none => exact h
    | some p => exact ⟨h.reg, h.delay, h.sound⟩
  | fetch =>
    simp only [on, EStateM.run]
    split <;> exact h
  | execute i decoded =>
    simp only [on, EStateM.run, Interpreter.execute_eq h decoded.inRange]
    cases it.machine.refusal i with
    | some f => exact h
    | none => exact h.effect decoded.inRange _

/-- A machine that calls lead to holds bytes. -/
theorem Interpreter.holdsBytes_play (source : ρ) (calls : List Call) :
    (play Call.on calls (powerOn source)).2.machine.HoldsBytes :=
  play_keeps (P := fun it : Interpreter ρ => it.machine.HoldsBytes) (fun _ h c => c.holdsBytes h)
    calls .powerOn

/-! ## What a call that raises leaves -/

omit [ByteSource ρ] in
theorem Interpreter.left_of_change_error {it next : Interpreter ρ} {r : Except Fault Machine}
    {e : Raised} (hr : it.change r = .error e next) : next = it := by
  cases r with
  | ok machine => simp [change] at hr
  | error f => exact (EStateM.Result.error.inj hr).2.symm

theorem Operation.left_of_error {o : Operation} {it next : Interpreter ρ}
    (h : it.machine.HoldsBytes) {e : Raised} (ho : o.on.run it = .error e next) : next = it := by
  cases o with
  | load image => exact Interpreter.left_of_change_error ho
  | cycle =>
    simp only [on, EStateM.run] at ho
    cases hc : it.cycle with
    | ok done => simp [hc, Interpreter.finish] at ho
    | error halt =>
      obtain ⟨f, rfl⟩ := Interpreter.cycle_eq_error h hc
      rw [hc] at ho
      exact (EStateM.Result.error.inj ho).2.symm
  | run settings frame =>
    have hset : ({ it with settings } : Interpreter ρ).machine.HoldsBytes := h
    simp only [on, EStateM.run] at ho
    rw [Interpreter.conclude_run hset frame] at ho
    contradiction
  | moveKey key pressed =>
    simp only [on, EStateM.run] at ho
    split at ho
    · contradiction
    · exact (EStateM.Result.error.inj ho).2.symm
  | schedule events =>
    simp only [on, EStateM.run] at ho
    split at ho
    · contradiction
    · exact (EStateM.Result.error.inj ho).2.symm
  | reset | tickTimers | deliver | toggle | clear => contradiction

/-- A call that raises leaves the interpreter as it was. -/
theorem Call.left_of_error {c : Call} {it next : Interpreter ρ} (h : it.machine.HoldsBytes)
    {e : Raised} (hc : c.on.run it = .error e next) : next = it := by
  cases c with
  | operation o => exact o.left_of_error h hc
  | push address => exact Interpreter.left_of_change_error hc
  | pop =>
    simp only [on, EStateM.run] at hc
    split at hc
    · contradiction
    · exact (EStateM.Result.error.inj hc).2.symm
  | fetch =>
    simp only [on, EStateM.run] at hc
    split at hc
    · contradiction
    · exact (EStateM.Result.error.inj hc).2.symm
  | execute i decoded =>
    simp only [on, EStateM.run, Interpreter.execute_eq h decoded.inRange] at hc
    cases hr : it.machine.refusal i with
    | none => simp [hr, Interpreter.finish] at hc
    | some f =>
      rw [hr] at hc
      exact (EStateM.Result.error.inj hc).2.symm

end Chip8
