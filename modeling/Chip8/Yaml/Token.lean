import Chip8.Yaml.Error

/-!
# Tokens of a document

The pieces that a document is read as. Block collections have no marks of their own in the text : where
one begins and ends follows from the indentation, and a mapping key may show only by the colon behind
it. The tokens make all of this explicit.
-/

namespace Chip8.Yaml

open Text (CodePoint)

/-- A piece of a document. -/
inductive Token where
  /-- A line with the version of the format. -/
  | version (major minor : Nat)
  /-- A line that gives a tag handle its meaning. -/
  | handle (name uri : String)
  /-- A line of another directive. -/
  | directive
  | documentStart
  | documentEnd
  | blockSequence
  | blockMapping
  | blockEnd
  | flowSequence
  | flowSequenceEnd
  | flowMapping
  | flowMappingEnd
  | blockEntry
  | flowEntry
  | key
  | value
  | alias (name : String)
  | anchor (name : String)
  /-- A tag : its handle, unless it is written out, and the rest of it. -/
  | tag (handle : Option String) (suffix : String)
  /-- A scalar. A plain one stands without quotes and on no block of its own. -/
  | scalar (text : List CodePoint) (plain : Bool)
  /-- A token that cannot be read. It is the last one. -/
  | unreadable (why : Stop)
deriving DecidableEq

end Chip8.Yaml
