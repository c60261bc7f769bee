import Mathlib.Data.List.DropRight
import Chip8.Proofs.Machine.Sprite
import Chip8.Proofs.Run.Program
import Chip8.Proofs.Run.Steps

/-!
# The screen of a run

In a run only two instructions change the screen : one clears it and one draws a sprite
(`Interpreter.screen_on`). A program starts with a blank screen, so the screen shows the sprites
drawn since it was last cleared, or since the beginning (`Completed.sprites`,
`Interpreter.screen_after`), and nothing else : an instruction that faults is not among those
completed.

To draw a sprite is to turn cells over, so a cell is lit if an odd number of these sprites cover it.
Neither their order nor their turns round the edges matter, and a sprite drawn twice is as good as
not drawn (`Screen.Shows`).
-/

namespace Chip8

/-! ## What sprites leave -/

namespace Screen

/-- The screen that sprites leave on a blank one. -/
def painted (sprites : List Sprite) : Screen := blank.flipAll sprites

theorem lit_painted (sprites : List Sprite) (x y : Int) :
    (painted sprites).lit x y = decide (sprites.countP (·.covers x y) % 2 = 1) := by
  have hblank : blank.lit x y = false := by simp [lit, blank]
  rw [painted, lit_flipAll, hblank, Bool.false_xor]

/-- Sprites leave the same screen if each cell is covered as often, or as often up to pairs. -/
theorem painted_congr {sprites others : List Sprite}
    (h : ∀ x y, sprites.countP (·.covers x y) % 2 = others.countP (·.covers x y) % 2) :
    painted sprites = painted others := by
  refine ext_lit fun x y => ?_
  rw [lit_painted, lit_painted, h x y]

/-- A screen shows sprites that were drawn one after another. -/
structure Shows (screen : Screen) (sprites : List Sprite) : Prop where
  painted : screen = painted sprites
  /-- A cell is lit if an odd number of the sprites cover it. -/
  lit : ∀ x y, screen.lit x y = true ↔ sprites.countP (·.covers x y) % 2 = 1
  /-- The sprites can be drawn in any order. -/
  order : ∀ others : List Sprite, others.Perm sprites → screen = .painted others
  /-- Each of them can be drawn at any turn round the edges. -/
  wrap : ∀ others : List Sprite, others.Forall₂ Sprite.SamePlace sprites → screen = .painted others
  /-- Two that are the same need not be drawn. -/
  cancel : ∀ (p : Sprite) (others : List Sprite), sprites.Perm (p :: p :: others) →
    screen = .painted others

theorem shows_painted (sprites : List Sprite) : (Screen.painted sprites).Shows sprites where
  painted := rfl
  lit x y := by rw [lit_painted, decide_eq_true_iff]
  order others h := painted_congr fun x y => by rw [h.countP_eq]
  wrap others h := painted_congr fun x y => by
    induction h with
    | nil => rfl
    | cons hplace _ ih =>
      rw [List.countP_cons, List.countP_cons, hplace.covers]
      omega
  cancel p others h := painted_congr fun x y => by
    rw [h.countP_eq, List.countP_cons, List.countP_cons]
    split <;> omega

end Screen

namespace Completed

/-- The sprite that a completed instruction draws. -/
def sprite? (c : Completed) : Option Sprite :=
  if c.instruction.op = .drw then some (c.machine.sprite c.instruction) else none

/-- The sprites that instructions draw after the last one that clears the screen. -/
def sprites (done : List Completed) : List Sprite :=
  (done.rtakeWhile fun c => c.instruction.op ≠ .cls).filterMap sprite?

/-- The screen after an instruction. -/
def redraw (screen : Screen) (c : Completed) : Screen :=
  match c.instruction.op with
  | .cls => .blank
  | .drw => screen.flip (c.machine.sprite c.instruction)
  | _ => screen

theorem sprites_concat (done : List Completed) (c : Completed) : sprites (done ++ [c]) =
    if c.instruction.op = .cls then [] else sprites done ++ c.sprite?.toList := by
  have hlast : [c].filterMap sprite? = c.sprite?.toList := by
    cases hsprite : c.sprite? <;> simp [hsprite]
  rw [sprites, List.rtakeWhile_concat]
  by_cases hcls : c.instruction.op = .cls
  · simp [hcls]
  · rw [if_neg hcls, if_pos (by simpa using hcls), List.filterMap_append, hlast, sprites]

/-- What instructions leave on a blank screen are the sprites after the last clear. -/
theorem foldl_redraw (done : List Completed) :
    done.foldl redraw .blank = .painted (sprites done) := by
  induction done using List.reverseRecOn with
  | nil => rfl
  | append_singleton done c ih =>
    rw [List.foldl_append, List.foldl_cons, List.foldl_nil, ih, sprites_concat]
    by_cases hcls : c.instruction.op = .cls
    · simp only [redraw, hcls, if_true]
      rfl
    · by_cases hdrw : c.instruction.op = .drw
      · simp [redraw, hdrw, sprite?, Screen.painted, Screen.flipAll]
      · simp [redraw, hcls, hdrw, sprite?]

end Completed

variable {ρ : Type} [ByteSource ρ]

namespace Interpreter

/-- The sprites that steps have drawn since the screen was last cleared. -/
def sprites (it : Interpreter ρ) (steps : List Step) : List Sprite :=
  Completed.sprites (it.seen Step.completed steps)

/-- A step of a run changes the screen as the instruction does that it completes. -/
theorem screen_on {s : Step} (hs : s.OfRun) {it : Interpreter ρ} (h : it.machine.HoldsBytes) :
    (s.on it).machine.screen = (s.completed it).foldl Completed.redraw it.machine.screen := by
  cases hs with
  | deliver | nextTick | endFrame => rfl
  | cycle =>
    rcases cycle_cases h with ⟨hnone, -, hon⟩ | ⟨i, done, hi, -, hd, -, -, hon⟩
    · rw [hon, Step.completed_of_none hnone]
      rfl
    · have hdrawn := it.advance.machine.drawn_eq_flip (inRange_of_decode hd)
      rw [hon, Step.completed_of_some hi, List.foldl_cons, List.foldl_nil]
      show it.advance.machine.nextScreen i = Completed.redraw it.machine.screen ⟨it.machine, i⟩
      rw [Machine.nextScreen, hdrawn]
      rfl

theorem screen_after {it : Interpreter ρ} {steps : List Step} (hsteps : it.TakesSteps steps) :
    (it.after steps).machine.screen =
      (it.seen Step.completed steps).foldl Completed.redraw it.machine.screen := by
  induction hsteps with
  | nil => rfl
  | cons h hs _ ih => rw [after_cons, ih, screen_on hs h, seen_cons, List.foldl_append]

/-- A cycle that faults leaves the screen, and what it shows. -/
theorem sprites_of_fault {it : Interpreter ρ} {steps : List Step} (hsteps : it.TakesSteps steps)
    {f : Fault} (hfault : (it.after steps).cycle = .error (.fault f)) :
    (it.after (steps ++ [.cycle])).machine.screen = (it.after steps).machine.screen ∧
      it.sprites (steps ++ [.cycle]) = it.sprites steps := by
  have hnone : (it.after steps).completes? = none := by rw [completes?, hfault]
  have hcompleted := Step.completed_of_none hnone
  refine ⟨?_, ?_⟩
  · have hscreen := screen_on .cycle (holdsBytes_after hsteps.holdsBytes steps)
    rw [hcompleted] at hscreen
    rw [after_append]
    exact hscreen
  · rw [sprites, seen_append, seen_cons, hcompleted]
    simp [sprites]

end Interpreter

namespace Program

/-- A program runs, whatever its image, its configuration, its key events and its random bytes. At
every point of its run the screen shows the sprites of the instructions completed since the last one
that cleared it, and a fault adds nothing to them. The picture that is told of the run is the screen
at its end. -/
theorem screen_shows_sprites (source : ρ) (files : FileTree) (image : List UInt8)
    (config keys : Value) {c : Config} (hconfig : Config.load files config = .ok c)
    {start : Interpreter ρ} (hstart : Program.start source image c keys = .ok start) :
    (∃ told, (runWith source image c keys).result = .ok told ∧
      told.display = (start.after start.runTurns.flatten).machine.screen.picture) ∧
    ∀ steps, steps <+: start.runTurns.flatten →
      (start.after steps).machine.screen.Shows (start.sprites steps) ∧
      ∀ f, (start.after steps).cycle = .error (.fault f) →
        (start.after (steps ++ [.cycle])).machine.screen = (start.after steps).machine.screen ∧
          start.sprites (steps ++ [.cycle]) = start.sprites steps := by
  have hvalid := Config.valid_of_load hconfig
  have h : start.machine.HoldsBytes := holdsBytes_start hstart
  have hframe := cyclesPerFrame_start hvalid hstart
  have hblank : start.machine.screen = .blank := by
    obtain ⟨memory, pending, rfl⟩ := start_eq_ok hstart
    rfl
  have hrun := Interpreter.takesSteps_run h hframe
  refine ⟨?_, fun steps hfront => ?_⟩
  · obtain ⟨ending, hresult⟩ := report_of_start hvalid hstart
    refine ⟨_, hresult, ?_⟩
    rw [← Interpreter.final_run h hframe]
  · have hsteps := hrun.of_prefix hfront
    refine ⟨?_, fun f hfault => Interpreter.sprites_of_fault hsteps hfault⟩
    have hscreen := Interpreter.screen_after hsteps
    rw [hblank, Completed.foldl_redraw] at hscreen
    rw [hscreen]
    exact Screen.shows_painted _

/-- A program that draws a glyph over the right edge again and again, and moves it down by one each
time. -/
theorem screen_of_moving_glyph :
    let image : List UInt8 := [0x60, 0x3E, 0xD0, 0x15, 0x71, 0x01, 0x12, 0x02]
    let c : Config := {}
    let start : Interpreter CyclicTape := {
      machine := { Machine.powerOn with
        memory := Machine.powerOn.memory.write Memory.programStart image }
      settings := settings c
      source := .ofList [] }
    (Config.load {} .null = .ok c ∧ Program.start (.ofList []) image c .null = .ok start) ∧
      (start.after start.runTurns.flatten).machine.screen.Shows
        (start.sprites start.runTurns.flatten) := by
  intro image c start
  have hconfig : Config.load {} .null = .ok c := rfl
  have hstart : Program.start (.ofList []) image c .null = .ok start := rfl
  have hshows := (screen_shows_sprites (CyclicTape.ofList []) {} image .null .null hconfig hstart).2
  exact ⟨⟨hconfig, hstart⟩, (hshows start.runTurns.flatten (List.prefix_refl _)).1⟩

end Program

end Chip8
