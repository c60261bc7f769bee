/-!
# The screen

64 by 32 cells, row by row from the top left. Coordinates wrap round both edges (`Screen.cell`), so
any two integers name a cell. `render` draws a frame of cells as text, one line a row.
-/

namespace Chip8

/-- The cells of the screen, row by row, each lit or not. -/
abbrev Screen := Vector Bool 2048

namespace Screen

/-- The cells of a row. -/
def width : Nat := 64

/-- The rows of the screen. -/
def height : Nat := 32

/-- Every cell unlit. -/
def blank : Screen := Vector.replicate 2048 false

/-- The place of the cell in column `x` and row `y`, both wrapping round. -/
def cell (x y : Int) : Fin 2048 := ⟨(y % 32 * 64 + x % 64).toNat, by omega⟩

/-- Whether a cell is lit. -/
def lit (s : Screen) (x y : Int) : Bool := s[cell x y]

/-- The screen with one cell turned over. -/
def toggle (s : Screen) (c : Fin 2048) : Screen := s.set c (!s[c])

/-- Turn over cells one after another. The answer says whether one of them was lit when its turn
came. -/
def toggleAll (s : Screen) : List (Fin 2048) → Screen × Bool
  | [] => (s, false)
  | c :: cs =>
    let wasLit := s[c]
    let rest := toggleAll (s.toggle c) cs
    (rest.1, wasLit || rest.2)

/-- The character drawn for a cell. -/
def ink (isLit : Bool) : Char := if isLit then '#' else '.'

/-- The characters of row `y` of a frame, which may be shorter than a screen. -/
def row (frame : List Bool) (y : Nat) : List Char :=
  ((frame.drop (y * width)).take width).map ink

/-- A frame as text : a line for each of the 32 rows, with a line break between two rows. -/
def render (frame : List Bool) : String :=
  String.ofList (['\n'].intercalate ((List.range height).map (row frame)))

/-- The screen as text. -/
def picture (s : Screen) : String := render s.toList

end Screen

end Chip8
