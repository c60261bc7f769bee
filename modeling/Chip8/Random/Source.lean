/-!
# Sources of random bytes

A source is anything that yields a byte and the source that remains (`ByteSource`). Programs see
only this, so a statement about every source covers the seeded generator, one that nobody knows the
state of, and a tape of bytes alike.
-/

namespace Chip8

/-- A source of random bytes. -/
class ByteSource (ρ : Type) where
  next : ρ → UInt8 × ρ

/-- Bytes repeated for ever : those before the head have been given out, and come round again. -/
structure CyclicTape where
  all : List UInt8
  rest : List UInt8

namespace CyclicTape

/-- A tape at its beginning. -/
def ofList (bytes : List UInt8) : CyclicTape := ⟨bytes, bytes⟩

/-- The next byte of a tape. One without bytes has zeros. -/
def next (t : CyclicTape) : UInt8 × CyclicTape :=
  match t.rest, t.all with
  | b :: rest, _ => (b, { t with rest })
  | [], b :: rest => (b, { t with rest })
  | [], [] => (0, t)

end CyclicTape

/-- A tape gives its bytes over and over. -/
instance : ByteSource CyclicTape := ⟨CyclicTape.next⟩

/-- One of two sources. -/
instance {α β : Type} [ByteSource α] [ByteSource β] : ByteSource (α ⊕ β) where
  next
    | .inl a => let (b, a) := ByteSource.next a; (b, .inl a)
    | .inr c => let (b, c) := ByteSource.next c; (b, .inr c)

end Chip8
