import Chip8.Random.Source

/-!
# The twister

The generator MT19937 : 624 words of state, each new word a tempered state word. It is seeded by the
little-endian words of a number's absolute value (`Twister.ofSeed`), and a random byte is the top
byte of its next word.
-/

namespace Chip8

/-- The state words and how many of them have been given out. -/
structure Twister where
  words : Vector UInt32 624
  used : Nat

namespace Twister

/-- The word at a place, counted round. -/
def word (v : Vector UInt32 624) (i : Nat) : UInt32 :=
  have : i % 624 < 624 := Nat.mod_lt _ (by decide)
  v[i % 624]

/-- The state with the word at a place, counted round, replaced. -/
def setWord (v : Vector UInt32 624) (i : Nat) (w : UInt32) : Vector UInt32 624 :=
  v.set (i % 624) w (Nat.mod_lt _ (by decide))

/-- The mixture of a word with its own top bits that seeding builds on. -/
def mix (w : UInt32) : UInt32 := w ^^^ (w >>> 30)

/-- The state grown from one word. -/
def grow (seed : UInt32) : Vector UInt32 624 :=
  (List.range 623).foldl
    (fun v i => setWord v (i + 1) (1812433253 * mix (word v i) + UInt32.ofNat (i + 1)))
    ((Vector.replicate 624 0).set 0 seed)

/-- One step of a pass over the state : the place moves on from 1 to 623, and the word left of place
1 is kept equal to the last one. -/
def stir (change : UInt32 → UInt32 → UInt32) (s : Vector UInt32 624 × Nat) :
    Vector UInt32 624 × Nat :=
  let (v, i) := s
  let v := setWord v i (change (word v i) (mix (word v (i - 1))))
  if i = 623 then (setWord v 0 (word v 623), 1) else (v, i + 1)

/-- The state seeded by a list of words. -/
def seeded (key : List UInt32) : Vector UInt32 624 :=
  let rounds := max 624 key.length
  let first := (List.range rounds).foldl
    (fun s k =>
      let j := k % key.length
      stir (fun w left => (w ^^^ (left * 1664525)) + key.getD j 0 + UInt32.ofNat j) s)
    (grow 19650218, 1)
  let second := (List.range 623).foldl
    (fun s _ => stir (fun w left => (w ^^^ (left * 1566083941)) - UInt32.ofNat s.2) s) first
  setWord second.1 0 0x80000000

/-- The little-endian words of a number, one of them for zero. -/
def keyWords (n : Nat) : List UInt32 :=
  if n < 0x100000000 then [UInt32.ofNat n]
  else UInt32.ofNat n :: keyWords (n / 0x100000000)
termination_by n

/-- The generator of a seed. A seed and its negative give the same one. -/
def ofSeed (seed : Int) : Twister := ⟨seeded (keyWords seed.natAbs), 624⟩

/-- The state after every word has been given out. -/
def twist (v : Vector UInt32 624) : Vector UInt32 624 :=
  (List.range 624).foldl
    (fun v i =>
      let y := (word v i &&& 0x80000000) ||| (word v (i + 1) &&& 0x7FFFFFFF)
      let odd : UInt32 := if y &&& 1 = 1 then 0x9908B0DF else 0
      setWord v i (word v (i + 397) ^^^ (y >>> 1) ^^^ odd))
    v

/-- What is given out for a state word. -/
def temper (y : UInt32) : UInt32 :=
  let y := y ^^^ (y >>> 11)
  let y := y ^^^ ((y <<< 7) &&& 0x9D2C5680)
  let y := y ^^^ ((y <<< 15) &&& 0xEFC60000)
  y ^^^ (y >>> 18)

/-- The next word and the generator after it. -/
def nextWord (t : Twister) : UInt32 × Twister :=
  if t.used < 624 then (temper (word t.words t.used), { t with used := t.used + 1 })
  else
    let words := twist t.words
    (temper (word words 0), ⟨words, 1⟩)

/-- A twister gives the highest byte of each of its words. -/
instance : ByteSource Twister where
  next t := let (w, t) := t.nextWord; ((w >>> 24).toUInt8, t)

end Twister

end Chip8
