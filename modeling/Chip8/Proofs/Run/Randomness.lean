import Chip8.Proofs.Run.Steps

/-!
# The random bytes of a run

A source yields bytes one after another (`ByteSource.byte`). No step takes one but a cycle that
completes a random number (`Interpreter.source_on`), so as many bytes are gone as random numbers
were completed (`Interpreter.source_after`), and the next one gets the byte of that number
(`Interpreter.drawsInOrder`). The byte is to be seen in the machine only if the mask of its random
number is not zero (`Machine.effect_congr`).
-/

namespace Chip8

namespace ByteSource

variable {ρ : Type} [ByteSource ρ]

/-- What remains of a source after a number of bytes. -/
def drop : Nat → ρ → ρ
  | 0, source => source
  | n + 1, source => (next (drop n source)).2

/-- A byte of a source, by its number. -/
def byte (source : ρ) (n : Nat) : UInt8 := (next (drop n source)).1

theorem drop_drop (source : ρ) (m n : Nat) : drop m (drop n source) = drop (n + m) source := by
  induction m with
  | zero => rfl
  | succ m ih => rw [drop, ih, ← Nat.add_assoc, drop]

end ByteSource

namespace Bits

theorem toNat_and_byte {mask : Int} (h : 0 ≤ mask ∧ mask < 256) (b : UInt8) :
    ((b &&& UInt8.ofInt mask).toNat : Int) = and b.toNat mask := by
  obtain ⟨n, rfl⟩ := Int.eq_ofNat_of_zero_le h.1
  have hmask : (UInt8.ofInt n).toNat = n := by
    rw [UInt8.ofInt, UInt8.toNat_ofNat']
    omega
  rw [UInt8.toNat_and, hmask, and_natCast]

end Bits

namespace Machine

/-- A random number is a byte under a mask. -/
theorem reg_effect_rnd (m : Machine) {i : Instruction} (hi : i.InRange) (hop : i.op = .rnd)
    (random : UInt8) : (m.effect i random).reg i.vx = Bits.and random.toNat i.nn := by
  have hregisters : (m.effect i random).reg i.vx =
      (m.put i.vx (random &&& UInt8.ofInt i.nn).toNat).reg i.vx := by
    simp only [effect, nextRegisters, result?, flag?, hop]
    rfl
  rw [hregisters, reg_put, if_pos rfl, Bits.toNat_and_byte hi.nn]

/-- Nothing is to be seen of a byte but in a random number whose mask is not zero. -/
theorem effect_congr (m : Machine) {i : Instruction} (hi : i.op = .rnd → i.nn = 0)
    (random other : UInt8) : m.effect i random = m.effect i other := by
  have hresult : m.result? i random = m.result? i other := by
    by_cases hop : i.op = .rnd
    · have hmask (b : UInt8) : b &&& UInt8.ofInt 0 = 0 := UInt8.and_zero
      simp only [result?, hop, hi hop, hmask]
    · unfold result?
      split
      all_goals first | rfl | contradiction
  simp only [effect, nextRegisters, hresult]

end Machine

/-- Whether an instruction is a random number. -/
def Completed.isRandom (c : Completed) : Bool := c.instruction.op = .rnd

namespace Interpreter

variable {ρ : Type} [ByteSource ρ]

/-- The number of the random numbers among the instructions completed. -/
def draws (it : Interpreter ρ) (steps : List Step) : Nat :=
  (it.seen Step.completed steps).countP Completed.isRandom

/-- A step takes a byte if it completes a random number. -/
theorem source_on (s : Step) {it : Interpreter ρ} (h : it.machine.HoldsBytes) :
    (s.on it).source = ByteSource.drop ((s.completed it).countP Completed.isRandom) it.source := by
  cases s with
  | set | nextTick | endFrame => rfl
  | call o brief =>
    cases o with
    | cycle =>
      change (Step.cycle.on it).source =
        ByteSource.drop ((Step.cycle.completed it).countP Completed.isRandom) it.source
      rcases cycle_cases h with ⟨hnone, -, hon⟩ | ⟨i, done, hi, -, -, -, -, hon⟩
      · rw [hon, Step.completed_of_none hnone]
        rfl
      · rw [hon, Step.completed_of_some hi, List.countP_singleton]
        show (if i.op = .rnd then ByteSource.next it.source else (0, it.source)).2 = _
        by_cases hop : i.op = .rnd
        · simp [Completed.isRandom, hop, ByteSource.drop]
        · simp [Completed.isRandom, hop, ByteSource.drop]
    | run => contradiction
    | load image =>
      simp only [Step.on, Operation.on, EStateM.run, Step.completed]
      cases it.machine.load image <;> rfl
    | moveKey key pressed =>
      simp only [Step.on, Operation.on, EStateM.run, Step.completed]
      cases Key.resolve key <;> rfl
    | schedule events =>
      simp only [Step.on, Operation.on, EStateM.run, Step.completed]
      cases KeyEvent.ofValues events <;> rfl
    | reset => simp [Step.on, Operation.on, EStateM.run, Step.completed, left, ByteSource.drop]
    | tickTimers | deliver | toggle | clear => rfl

theorem source_after {it : Interpreter ρ} (h : it.machine.HoldsBytes) (steps : List Step) :
    (it.after steps).source = ByteSource.drop (it.draws steps) it.source := by
  unfold draws
  induction steps generalizing it with
  | nil => rfl
  | cons s steps ih =>
    rw [after_cons, ih (holdsBytes_on s h), source_on s h, ByteSource.drop_drop, seen_cons,
      List.countP_append]

/-- Random numbers get the bytes of a source in their order, and nothing else takes one. -/
structure DrawsInOrder (start : Interpreter ρ) (steps : List Step) : Prop where
  /-- A byte is gone for each random number that was completed. -/
  source : (start.after steps).source = ByteSource.drop (start.draws steps) start.source
  /-- A random number that a cycle then completes is the next byte under its mask. -/
  random : ∀ i, (start.after steps).completes? = some i → i.op = .rnd →
    (start.after (steps ++ [.cycle])).machine.reg i.vx =
      Bits.and (ByteSource.byte start.source (start.draws steps)).toNat i.nn
  /-- It takes this byte and no more. -/
  one : ∀ i, (start.after steps).completes? = some i → i.op = .rnd →
    start.draws (steps ++ [.cycle]) = start.draws steps + 1
  /-- A step that completes no random number takes none. -/
  other : ∀ s : Step, (∀ c ∈ s.completed (start.after steps), c.instruction.op ≠ .rnd) →
    (start.after (steps ++ [s])).source = (start.after steps).source

theorem drawsInOrder {start : Interpreter ρ} (h : start.machine.HoldsBytes) (steps : List Step) :
    start.DrawsInOrder steps := by
  have hbytes := holdsBytes_after h steps
  have hsource := source_after h steps
  refine ⟨hsource, fun i hi hop => ?_, fun i hi hop => ?_, fun s hs => ?_⟩
  · rcases cycle_cases hbytes with ⟨hnone, -⟩ | ⟨j, done, hj, -, hd, -, -, hon⟩
    · rw [hnone] at hi
      contradiction
    · obtain rfl := Option.some.inj (hj.symm.trans hi)
      have hbyte : ((start.after steps).advance.draw j).1 =
          ByteSource.byte start.source (start.draws steps) := by
        rw [draw, if_pos hop]
        show (ByteSource.next (start.after steps).source).1 = _
        rw [hsource]
        rfl
      rw [after_append, after_cons, after_nil, hon, ← hbyte]
      exact Machine.reg_effect_rnd _ (inRange_of_decode hd) hop _
  · simp [draws, Step.completed_of_some hi, Completed.isRandom, hop]
  · have hnone : (s.completed (start.after steps)).countP Completed.isRandom = 0 := by
      simpa [Completed.isRandom, List.countP_eq_zero] using hs
    rw [after_append, after_cons, after_nil, source_on s hbytes, hnone]
    rfl

end Interpreter

end Chip8
