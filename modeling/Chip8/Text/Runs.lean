/-!
# Runs of characters

A property of characters is kept as a list of code points, in ascending order : at each of them it changes
over. No character below the first one has it.
-/

namespace Chip8.Text

/-- Whether a character lies in one of the runs : an odd number of edges are at or before it. -/
def inRuns (edges : Array Nat) (c : Char) : Bool :=
  edges.foldl (fun odd edge => if edge ≤ c.toNat then !odd else odd) false

end Chip8.Text
