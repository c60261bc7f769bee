import Chip8.Proofs.Bare.Agreement.Call

/-!
# Histories of the bare machine

A history gives the same answers on the bare machine as on the interpreter, and at its end the
bare machine is the bare state of the interpreter (`Bare.play_operate`, `Bare.play_perform`). So
the bare machine has the bounds of the interpreter's machine, although nothing in its type keeps
them : `Bare.histories_stay_bounded` says so for every operation, and that no mask ever changes an
address there.

A call that raises has found its error before it wrote anything, or it has put back what it wrote
(`Bare.failures_are_invisible`). This covers the helpers as well, by which the call stack can be
brought to hold any sixteen-bit addresses and the program counter to be any integer.
-/

namespace Chip8

variable {ρ : Type}

theorem Interpreter.bare_powerOn (source : ρ) :
    (Interpreter.powerOn source).bare = .powerOn source 0 :=
  Bare.State.of_powerOn source 0

variable [ByteSource ρ]

namespace Bare

/-- Operations give the same answers on the bare machine, whose masks may as well refuse. -/
theorem play_operate {mask : Mask} {P : Machine → Prop} (hs : Suits ρ mask P)
    (hkeep : ∀ {it : Interpreter ρ} (o : Operation), P it.machine →
      P (left (o.on.run it)).machine)
    (hstart : P .powerOn) (source : ρ) (ops : List Operation) :
    play (operate mask) ops (.powerOn source 0) =
      ((play Operation.on ops (Interpreter.powerOn source)).1,
        (play Operation.on ops (Interpreter.powerOn source)).2.bare) := by
  rw [← Interpreter.bare_powerOn]
  exact play_simulates (P := fun it : Interpreter ρ => P it.machine) (fun _ h o => hkeep o h)
    (fun _ h o => run_operate hs h o) ops hstart

/-- Calls give the same answers on the bare machine. -/
theorem play_perform (source : ρ) (calls : List Call) :
    play (perform wrap) calls (.powerOn source 0) =
      ((play Call.on calls (Interpreter.powerOn source)).1,
        (play Call.on calls (Interpreter.powerOn source)).2.bare) := by
  rw [← Interpreter.bare_powerOn]
  exact play_simulates (P := fun it : Interpreter ρ => it.machine.HoldsBytes)
    (fun _ h c => c.holdsBytes h) (fun _ h c => run_perform h c) calls Machine.HoldsBytes.powerOn

/-- The state is that of an interpreter whose machine holds bytes. -/
def State.Sound (s : State ρ) : Prop :=
  ∃ it : Interpreter ρ, it.machine.HoldsBytes ∧ it.bare = s

theorem State.Sound.after {s : State ρ} (h : s.Sound) (c : Call) :
    (left ((perform wrap c).run s)).Sound := by
  obtain ⟨it, hit, rfl⟩ := h
  rw [run_perform hit, left_along]
  exact ⟨_, c.holdsBytes hit, rfl⟩

/-- Checks come before writes, and what a cycle wrote before it faults is put back. -/
theorem State.Sound.eq_of_error {s t : State ρ} (h : s.Sound) {c : Call} {e : Raised}
    (hc : (perform wrap c).run s = .error e t) : t = s := by
  obtain ⟨it, hit, rfl⟩ := h
  rw [run_perform hit] at hc
  cases hr : c.on.run it with
  | ok b next => simp [hr, along] at hc
  | error e' next =>
    obtain rfl := Call.left_of_error hit hr
    rw [hr] at hc
    exact (EStateM.Result.error.inj hc).2.symm

/-- Whatever operations are called on a machine, the ones that raise included, the rows of the
bare machine keep their lengths and its numbers their bounds. A mask that refuses every address
that it would change is never met with one. -/
theorem histories_stay_bounded (source : ρ) (ops : List Operation) :
    (play (operate wrap) ops (.powerOn source 0)).2.Bounded ∧
      play (operate strict) ops (.powerOn source 0) =
        play (operate wrap) ops (.powerOn source 0) ∧
      play (operate wrap) ops (.powerOn source 0) =
        ((play Operation.on ops (Interpreter.powerOn source)).1,
          (play Operation.on ops (Interpreter.powerOn source)).2.bare) := by
  have hwrap := play_operate (ρ := ρ) suits_wrap (fun o h => o.holdsBytes h) .powerOn source ops
  have hstrict := play_operate (ρ := ρ) suits_strict (fun o h => o.bounded h) .powerOn source ops
  refine ⟨?_, hstrict.trans hwrap.symm, hwrap⟩
  rw [hwrap]
  exact State.bounded_of (Interpreter.bounded_play source ops) _ _

/-- A call that raises leaves the bare machine as it was, after any history. A history without the
calls that raise leads to the same state and gives the other calls the same answers. -/
theorem failures_are_invisible (source : ρ) (calls : List Call) :
    (∀ (c : Call) (e : Raised) (s : State ρ),
        (perform wrap c).run (play (perform wrap) calls (.powerOn source 0)).2 = .error e s →
          s = (play (perform wrap) calls (.powerOn source 0)).2) ∧
      play (perform wrap) (returning (perform wrap) calls (.powerOn source 0)) (.powerOn source 0) =
        ((play (perform wrap) calls (.powerOn source 0)).1.filter returned,
          (play (perform wrap) calls (.powerOn source 0)).2) ∧
      play (perform wrap) calls (.powerOn source 0) =
        ((play Call.on calls (Interpreter.powerOn source)).1,
          (play Call.on calls (Interpreter.powerOn source)).2.bare) := by
  have hstart : State.Sound (.powerOn source 0) :=
    ⟨.powerOn source, .powerOn, Interpreter.bare_powerOn source⟩
  have hsound := play_keeps (fun _ h c => h.after c) calls hstart
  refine ⟨fun c e s hc => hsound.eq_of_error hc, ?_, play_perform source calls⟩
  exact play_returning (fun _ h c => h.after c) (fun _ h c _ _ hc => h.eq_of_error hc) calls hstart

end Bare

end Chip8
