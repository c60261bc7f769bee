import Chip8.Proofs.Isa.Words
import Chip8.Proofs.Run.Steps

/-!
# The font in memory

Nothing guards the font. Programs are loaded above it, but an instruction that stores bytes stores
them wherever the index points (`Completed.stored?`), so a program can write over the glyphs
(`Interpreter.font_is_overwritten`).

Below the address of programs a byte is changed by such an instruction alone, and only if it is
completed, until a reset puts the first memory back (`Step.puts`, `Interpreter.byte_on`). So a byte
there is the last one that was put, and the first one if none was (`Interpreter.byte_after`), which
for the font is `Interpreter.font_stays_until_stored_over`.
-/

namespace Chip8

namespace Memory

/-- A byte after a write is the byte written there, if there is one. -/
theorem byte_write_eq_getD (m : Memory) (bytes : List UInt8) {a k : Nat} (hk : k < size) :
    (m.write a bytes).byte k = (if a ≤ k then bytes[k - a]? else none).getD (m.byte k) := by
  rw [byte_write]
  by_cases ha : a ≤ k
  · rw [if_pos ha]
    by_cases hlen : k < a + bytes.length
    · have hin : k - a < bytes.length := by omega
      rw [if_pos ⟨ha, hlen, hk⟩]
      simp [hin]
    · rw [if_neg (by omega), List.getElem?_eq_none (by omega)]
      rfl
  · rw [if_neg (by omega), if_neg ha]
    rfl

theorem byte_powerOn (a : Fin font.length) : powerOn.byte a = font[a] := by
  have ha : a.val < size := Nat.lt_trans a.isLt (by decide)
  rw [powerOn, byte_write_eq_getD _ _ ha, if_pos (Nat.zero_le _), Nat.sub_zero,
    List.getElem?_eq_getElem a.isLt]
  rfl

end Memory

namespace Completed

/-- The byte that a completed instruction stores at an address. -/
def stored? (c : Completed) (a : Nat) : Option UInt8 :=
  if c.machine.index.toNat ≤ a then (c.machine.stored c.instruction)[a - c.machine.index.toNat]?
  else none

/-- The number of bytes that a completed instruction stores at the index : three decimal digits, or
the registers up to its operand. -/
def width (c : Completed) : Nat :=
  match c.instruction.op with
  | .ldBcd => 3
  | .storeRegs => (c.instruction.x + 1).toNat
  | _ => 0

/-- A completed instruction stores a byte at an address. -/
def Covers (c : Completed) (a : Nat) : Prop :=
  c.machine.index.toNat ≤ a ∧ a < c.machine.index.toNat + c.width

theorem length_stored_le (c : Completed) : (c.machine.stored c.instruction).length ≤ c.width := by
  unfold Machine.stored width
  cases c.instruction.op with
  | ldBcd => exact Nat.le_refl 3
  | storeRegs =>
    rw [List.length_map]
    exact List.length_take_le _ _
  | _ => exact Nat.zero_le _

theorem stored?_eq_none {c : Completed} {a : Nat} (h : ¬ c.Covers a) : c.stored? a = none := by
  have hlen := c.length_stored_le
  unfold Covers at h
  unfold stored?
  split
  · exact List.getElem?_eq_none (by omega)
  · rfl

end Completed

variable {ρ : Type} [ByteSource ρ]

/-- What a step puts at an address : a reset the byte that is there at first, and a cycle what the
instruction stores that it completes. -/
def Step.puts (a : Nat) (s : Step) (it : Interpreter ρ) : List UInt8 :=
  match s with
  | .call .reset _ => [Memory.powerOn.byte a]
  | .call .cycle _ => (Step.cycle.completed it).filterMap fun c => c.stored? a
  | _ => []

/-- Where no instruction stores a byte, nothing but the first byte is put. -/
theorem Step.puts_of_not_covers {a : Nat} {s : Step} {it : Interpreter ρ}
    (hnone : ∀ c ∈ s.completed it, ¬ c.Covers a) :
    ∀ b ∈ s.puts a it, b = Memory.powerOn.byte a := by
  intro b hb
  unfold puts at hb
  split at hb
  · exact List.mem_singleton.mp hb
  · obtain ⟨c, hc, hstored⟩ := List.mem_filterMap.mp hb
    rw [Completed.stored?_eq_none (hnone c hc)] at hstored
    contradiction
  · contradiction

namespace Interpreter

/-- A step leaves a byte below the programs as it is, or puts one in its place. -/
theorem byte_on {a : Nat} (ha : a < Memory.programStart) (s : Step) {it : Interpreter ρ}
    (h : it.machine.HoldsBytes) : (s.on it).machine.memory.byte a =
      (s.puts a it).getLast?.getD (it.machine.memory.byte a) := by
  have hsize : a < Memory.size := Nat.lt_trans ha (by decide)
  cases s with
  | set | nextTick | endFrame => rfl
  | call o brief =>
    cases o with
    | reset | tickTimers | deliver | toggle | clear => rfl
    | run => contradiction
    | load image =>
      have hwrite : (it.machine.memory.write Memory.programStart image).byte a =
          it.machine.memory.byte a := by
        rw [Memory.byte_write_eq_getD _ _ hsize, if_neg (Nat.not_le.mpr ha), Option.getD_none]
      simp only [Step.on, Operation.on, EStateM.run, Machine.load]
      split
      · rfl
      · exact hwrite
    | moveKey key pressed =>
      simp only [Step.on, Operation.on, EStateM.run]
      split <;> rfl
    | schedule events =>
      simp only [Step.on, Operation.on, EStateM.run]
      split <;> rfl
    | cycle =>
      have hputs : Step.cycle.puts a it =
          (Step.cycle.completed it).filterMap fun c => c.stored? a := rfl
      rcases cycle_cases h with ⟨hnone, -, hon⟩ | ⟨i, -, hi, -, -, -, -, hon⟩
      · rw [hon, hputs, Step.completed_of_none hnone]
        rfl
      · have hwrite : (it.advance.executed i).machine.memory.byte a =
            (Completed.stored? ⟨it.machine, i⟩ a).getD (it.machine.memory.byte a) :=
          Memory.byte_write_eq_getD _ _ hsize
        rw [hon, hwrite, hputs, Step.completed_of_some hi, List.filterMap_cons]
        cases Completed.stored? ⟨it.machine, i⟩ a <;> rfl

/-- A byte below the programs is the last one that steps put there, or the one that was there. -/
theorem byte_after {a : Nat} (ha : a < Memory.programStart) (steps : List Step)
    {it : Interpreter ρ} (h : it.machine.HoldsBytes) : (it.after steps).machine.memory.byte a =
      (it.seen (Step.puts a) steps).getLast?.getD (it.machine.memory.byte a) := by
  induction steps generalizing it with
  | nil => rfl
  | cons s steps ih =>
    rw [after_cons, ih (holdsBytes_on s h), byte_on ha s h, seen_cons, List.getLast?_append,
      Option.getD_or]

theorem puts_of_not_covers {a : Nat} {steps : List Step} {it : Interpreter ρ}
    (hnone : ∀ c ∈ it.seen Step.completed steps, ¬ c.Covers a) :
    ∀ b ∈ it.seen (Step.puts a) steps, b = Memory.powerOn.byte a := by
  induction steps generalizing it with
  | nil => simp
  | cons s steps ih =>
    rw [seen_cons] at hnone ⊢
    intro b hb
    rcases List.mem_append.mp hb with hb | hb
    · exact Step.puts_of_not_covers (fun c hc => hnone c (List.mem_append_left _ hc)) b hb
    · exact ih (fun c hc => hnone c (List.mem_append_right _ hc)) b hb

/-- Whatever operations are called on a machine that is switched on, programs that run included,
each byte of the font is the last one that was put there : by an instruction that stores it, or by a
reset, which puts the font's own byte. So it is the font's own as long as no completed instruction
stores a byte at its address. -/
theorem font_stays_until_stored_over (source : ρ) (ops : List Operation)
    (a : Fin Memory.font.length) :
    let start := powerOn source
    let steps := start.stepsOfAll ops
    let byte := (play Operation.on ops start).2.machine.memory.byte a
    byte = (start.seen (Step.puts a) steps).getLast?.getD Memory.font[a] ∧
      ((∀ c ∈ start.seen Step.completed steps, ¬ c.Covers a) → byte = Memory.font[a]) := by
  intro start steps byte
  have h : start.machine.HoldsBytes := .powerOn
  have ha : a.val < Memory.programStart := Nat.lt_trans a.isLt (by decide)
  have hfirst : start.machine.memory.byte a = Memory.font[a] := Memory.byte_powerOn a
  have hlast : byte = (start.seen (Step.puts a) steps).getLast?.getD Memory.font[a] := by
    rw [← hfirst, ← byte_after ha steps h, after_stepsOfAll ops h]
  refine ⟨hlast, fun hnone => ?_⟩
  rw [hlast]
  cases hput : (start.seen (Step.puts a) steps).getLast? with
  | none => rfl
  | some b => exact (puts_of_not_covers hnone b (List.mem_of_getLast? hput)).trans hfirst

/-- A cycle at the word of an instruction has the effect of the instruction if it is not refused. -/
theorem left_cycle_of_fetch {it : Interpreter ρ} (h : it.machine.HoldsBytes) {i : Instruction}
    (hfetch : it.machine.fetch = .ok i.encode) (hr : it.advance.machine.refusal i.reduced = none) :
    left (Operation.cycle.on.run it) = it.advance.executed i.reduced := by
  obtain ⟨done, hc, hnext⟩ := cycle_of_decode h (decode_of_fetch hfetch i.decode_encode) hr
  simp only [Operation.on, EStateM.run, hc]
  exact hnext

/-- A program that points the index at the font and stores a register there. -/
theorem font_is_overwritten :
    ¬ ∀ a : Fin Memory.font.length,
      (play Operation.on [.load [0xA0, 0x00, 0xF0, 0x55], .cycle, .cycle]
        (powerOn (CyclicTape.ofList []))).2.machine.memory.byte a = Memory.font[a] := by
  intro hkept
  let point : Instruction := { op := .ldI }
  let store : Instruction := { op := .storeRegs }
  let loaded := left
    ((Operation.load [0xA0, 0x00, 0xF0, 0x55]).on.run (powerOn (CyclicTape.ofList [])))
  let pointed := loaded.advance.executed point
  have hbytes : loaded.machine.HoldsBytes := Operation.holdsBytes _ .powerOn
  have hpoint : left (Operation.cycle.on.run loaded) = pointed :=
    left_cycle_of_fetch (i := point) hbytes (by decide +kernel) rfl
  have hstore : left (Operation.cycle.on.run pointed) = pointed.advance.executed store :=
    left_cycle_of_fetch (i := store) (hpoint ▸ Operation.holdsBytes _ hbytes)
      (by decide +kernel) (by decide +kernel)
  have hzero : (left (Operation.cycle.on.run (left
      (Operation.cycle.on.run loaded)))).machine.memory.byte 0 = 0xF0 :=
    hkept ⟨0, by decide⟩
  rw [hpoint, hstore] at hzero
  exact absurd hzero (by decide +kernel)

end Interpreter

end Chip8
