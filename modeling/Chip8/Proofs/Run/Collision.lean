import Chip8.Proofs.Machine.Sprite
import Chip8.Proofs.Run.Frame

/-!
# Drawing a sprite

To draw a sprite is to turn over every cell that it covers, and to tell in the flag whether one of
them was lit (`Machine.Draws`). A cell is looked at when its turn comes, with the sprite half drawn,
but no cell has two turns : so what is met is what was lit before (`Machine.drawn_met_iff`), and the
flag tells whether a lit cell went out.

The place is read from the registers before the flag is written, which one of the two may be
(`Machine.draws_effect`). `Interpreter.draws_sprite` says so of every machine that operations lead
to.
-/

namespace Chip8

/-- A machine differs from the one before by a sprite on the screen, and by the flag. Only the
program counter is left open. -/
structure Machine.Draws (m : Machine) (p : Sprite) (next : Machine) : Prop where
  /-- A cell is turned over if the sprite covers it. -/
  lit : ∀ x y, next.screen.lit x y = (m.screen.lit x y ^^ p.covers x y)
  met : (∃ x y, p.covers x y = true ∧ m.screen.lit x y = true) → next.reg .flag = 1
  unmet : (¬ ∃ x y, p.covers x y = true ∧ m.screen.lit x y = true) → next.reg .flag = 0
  /-- The flag is set if a lit cell has gone out. -/
  collision : next.reg .flag = 1 ↔ ∃ x y, m.screen.lit x y = true ∧ next.screen.lit x y = false
  registers : ∀ r, r ≠ .flag → next.reg r = m.reg r
  memory : next.memory = m.memory
  index : next.index = m.index
  stack : next.stack = m.stack
  delay : next.delay = m.delay
  sound : next.sound = m.sound
  keys : next.keys = m.keys
  tick : next.tick = m.tick
  pending : next.pending = m.pending

namespace Machine

variable (m : Machine) {i : Instruction} (random : UInt8)

/-- A sprite covers the cells that the bits of its rows are set for, the rows in memory from the
index on. -/
theorem covers_sprite (hi : i.InRange) (x y : Int) : (m.sprite i).covers x y = true ↔
    (y - m.reg i.vy) % 32 < i.n ∧ (x - m.reg i.vx) % 64 < 8 ∧
      (m.memory.byte (m.index.toNat + ((y - m.reg i.vy) % 32).toNat)).toNat.testBit
        (7 - ((x - m.reg i.vx) % 64).toNat) = true := by
  rw [sprite, covers_spriteAt, Int.toNat_of_nonneg hi.n.1, and_left_comm]

theorem reg_effect_of_drw (hop : i.op = .drw) (r : Register) : (m.effect i random).reg r =
    if Register.flag = r then (if (m.drawn i).2 then 1 else 0) else m.reg r := by
  show (m.nextRegisters i random)[r] = _
  simp only [nextRegisters, result?, flag?, hop]
  exact reg_put _ _ _ _

theorem screen_effect_of_drw (hop : i.op = .drw) :
    (m.effect i random).screen = (m.drawn i).1 := by
  show m.nextScreen i = _
  rw [nextScreen, hop]

/-- The effect of an instruction that draws is its sprite. -/
theorem draws_effect (hop : i.op = .drw) (hi : i.InRange) :
    m.Draws (m.sprite i) (m.effect i random) := by
  have hflag := m.reg_effect_of_drw random hop .flag
  rw [if_pos rfl] at hflag
  have hlit : ∀ x y, (m.effect i random).screen.lit x y =
      (m.screen.lit x y ^^ (m.sprite i).covers x y) := fun x y => by
    rw [m.screen_effect_of_drw random hop, m.drawn_eq_flip hi, Screen.lit_flip]
  have hmet := m.drawn_met_iff hi
  -- a cell goes out if it was lit and the sprite covers it
  have hout : ∀ x y, (m.sprite i).covers x y = true ∧ m.screen.lit x y = true ↔
      m.screen.lit x y = true ∧ (m.effect i random).screen.lit x y = false := fun x y => by
    rw [hlit]
    cases m.screen.lit x y <;> cases (m.sprite i).covers x y <;> decide
  exact {
    lit := hlit
    met := fun h => by rw [hflag, if_pos (hmet.mpr h)]
    unmet := fun h => by rw [hflag, if_neg (mt hmet.mp h)]
    collision := by
      rw [hflag, ← exists_congr fun x => exists_congr (hout x), ← hmet]
      cases (m.drawn i).2 <;> decide
    registers := fun r hr => by rw [m.reg_effect_of_drw random hop, if_neg (Ne.symm hr)]
    memory := by simp only [effect, stored, hop]; rfl
    index := m.nextIndex_of_not_mem (by simp [hop])
    stack := m.nextStack_of_not_mem (by simp [hop])
    delay := if_neg (by simp [hop])
    sound := if_neg (by simp [hop])
    keys := rfl
    tick := rfl
    pending := rfl }

theorem refusal_of_drw (hop : i.op = .drw) (hindex : 0 ≤ m.index)
    (hfits : m.index + i.n ≤ 4096) : m.refusal i = none := by
  rw [refusal, hop]
  exact Memory.fault?_eq_none_iff.mpr ⟨hindex, hfits⟩

end Machine

namespace Interpreter

variable {ρ : Type} [ByteSource ρ]

/-- Whatever operations lead to a machine, an instruction that draws a sprite whose rows lie in
memory is executed, at the program counter or not, and what it does is to draw the sprite. -/
theorem draws_sprite (source : ρ) (ops : List Operation) {i : Instruction} (hop : i.op = .drw)
    (hi : i.InRange)
    (hfits : (play Operation.on ops (powerOn source)).2.machine.index + i.n ≤ 4096) :
    let it := (play Operation.on ops (powerOn source)).2
    let m := it.machine
    (∀ x y, (m.sprite i).covers x y = true ↔
      (y - m.reg i.vy) % 32 < i.n ∧ (x - m.reg i.vx) % 64 < 8 ∧
        (m.memory.byte (m.index.toNat + ((y - m.reg i.vy) % 32).toNat)).toNat.testBit
          (7 - ((x - m.reg i.vx) % 64).toNat) = true) ∧
    (∃ next, it.execute i = .ok ⟨.running, { it with machine := next }, []⟩ ∧
      m.Draws (m.sprite i) next ∧ next.pc = m.pc) ∧
    (it.decode = .ok i → ∃ next log, it.cycle = .ok ⟨.running, { it with machine := next }, log⟩ ∧
      m.Draws (m.sprite i) next ∧ next.pc = m.pc + 2) := by
  intro it m
  have h : m.Bounded := bounded_play source ops
  have hexecuted : ∀ it' : Interpreter ρ,
      it'.executed i = { it' with machine := it'.machine.effect i 0 } := fun it' => by
    have hdraw : it'.draw i = (0, it'.source) := if_neg (by simp [hop])
    rw [executed, hdraw]
  have hstate : ∀ it' : Interpreter ρ, it'.stateAfter i = .running := fun it' => by
    simp [stateAfter, Machine.stalls, hop]
  have hpc : ∀ m' : Machine, (m'.effect i 0).pc = m'.pc := fun m' => by
    simp only [Machine.effect, Machine.nextPc, Machine.skips, hop]
    rfl
  refine ⟨m.covers_sprite hi, ⟨m.effect i 0, ?_, m.draws_effect 0 hop hi, hpc m⟩, fun hd => ?_⟩
  · have hlog : keyLog m i = [] := if_neg (by simp [hop])
    rw [execute_eq h.toHoldsBytes hi, m.refusal_of_drw hop h.index.1 hfits, Option.elim_none,
      hstate, hexecuted, hlog]
  · -- the program counter has moved on, and nothing that is drawn depends on it
    have hr := it.advance.machine.refusal_of_drw hop h.index.1 hfits
    have hdraws := it.advance.machine.draws_effect 0 hop hi
    have hcycle := cycle_eq h.toHoldsBytes
    simp only [hd, hr, Option.elim_none, hstate, hexecuted] at hcycle
    exact ⟨_, _, hcycle, ⟨hdraws.lit, hdraws.met, hdraws.unmet, hdraws.collision,
      hdraws.registers, hdraws.memory, hdraws.index, hdraws.stack, hdraws.delay, hdraws.sound,
      hdraws.keys, hdraws.tick, hdraws.pending⟩, (hpc _).trans (pc_advance h)⟩

/-- A program that draws the first glyph at a place of which the flag is one coordinate. -/
theorem draws_glyph_at_flag :
    let it := (play Operation.on [.load [0xDF, 0x15]] (powerOn (CyclicTape.ofList []))).2
    let i : Instruction := { op := .drw, x := 15, y := 1, n := 5 }
    i.InRange ∧ it.machine.index + i.n ≤ 4096 ∧
      ∃ next log, it.cycle = .ok ⟨.running, { it with machine := next }, log⟩ ∧
        it.machine.Draws (it.machine.sprite i) next := by
  intro it i
  have hfetch : it.machine.fetch = .ok i.encode := by decide +kernel
  have hd : it.decode = .ok i := decode_of_fetch hfetch i.decode_encode
  have hi : i.InRange := inRange_of_decode hd
  have hfits : it.machine.index + i.n ≤ 4096 := by decide +kernel
  obtain ⟨-, -, hcycle⟩ :=
    draws_sprite (CyclicTape.ofList []) [.load [0xDF, 0x15]] rfl hi hfits
  obtain ⟨next, log, hc, hdraws, -⟩ := hcycle hd
  exact ⟨hi, hfits, next, log, hc, hdraws⟩

end Interpreter

end Chip8
