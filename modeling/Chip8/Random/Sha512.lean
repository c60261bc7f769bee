/-!
# SHA-512

The digest of a text of bytes : the text is filled up to blocks of 128 bytes, with its length in bits at the
end, and each block is mixed into eight words of state in 80 rounds. The words that this begins with and
the constants of the rounds are the first bits of square and cube roots of primes (`rootWord`).
-/

namespace Chip8.Sha512

/-! ## Constants -/

/-- The integer part of a root. -/
def root (degree n : Nat) : Nat :=
  (List.range (n.log2 / degree + 1)).reverse.foldl
    (fun r bit => if Nat.pow (r + 1 <<< bit) degree ≤ n then r + 1 <<< bit else r) 0

/-- The first 64 bits behind the point of a root. -/
def rootWord (degree n : Nat) : UInt64 := UInt64.ofNat (root degree (n <<< (64 * degree)))

/-- Whether a number is prime. -/
def isPrime (n : Nat) : Bool := 2 ≤ n && (List.range n).all fun d => d < 2 || n % d != 0

/-- The first 80 primes. -/
def primes : List Nat := (List.range 410).filter isPrime

/-- The state before the first block. -/
def start : List UInt64 := (primes.take 8).map (rootWord 2)

/-- The constants of the rounds. -/
def constants : List UInt64 := primes.map (rootWord 3)

/-! ## Blocks -/

/-- A number in big-endian bytes. -/
def bigEndian (width n : Nat) : List UInt8 :=
  (List.range width).reverse.map fun (i : Nat) => UInt8.ofNat (n >>> (8 * i))

/-- The number of big-endian bytes. -/
def ofBigEndian (bytes : List UInt8) : Nat := bytes.foldl (fun n b => 256 * n + b.toNat) 0

/-- A text filled up to whole blocks. -/
def padded (bytes : List UInt8) : List UInt8 :=
  let zeros := (239 - bytes.length % 128) % 128
  bytes ++ 0x80 :: List.replicate zeros 0 ++ bigEndian 16 (8 * bytes.length)

/-- The first pieces of a text, each of `size` bytes. -/
def pieces (size : Nat) : Nat → List UInt8 → List (List UInt8)
  | 0, _ => []
  | n + 1, bytes => bytes.take size :: pieces size n (bytes.drop size)

/-- The words of a block. -/
def blockWords (block : List UInt8) : List UInt64 :=
  (pieces 8 16 block).map fun bytes => UInt64.ofNat (ofBigEndian bytes)

/-! ## Rounds -/

/-- A word turned to the right. -/
def turn (w : UInt64) (n : UInt64) : UInt64 := (w >>> n) ||| (w <<< (64 - n))

/-- The words that the rounds take : those of the block, and each further one made of four before it. -/
def schedule (block : List UInt64) : Array UInt64 :=
  (List.range 64).foldl
    (fun w i =>
      let far := w.getD (i + 1) 0
      let near := w.getD (i + 14) 0
      let far := turn far 1 ^^^ turn far 8 ^^^ (far >>> 7)
      let near := turn near 19 ^^^ turn near 61 ^^^ (near >>> 6)
      w.push (w.getD i 0 + far + w.getD (i + 9) 0 + near))
    block.toArray

/-- One round, which takes a constant and a word together. -/
def round (state : List UInt64) (word : UInt64) : List UInt64 :=
  match state with
  | [a, b, c, d, e, f, g, h] =>
    let choice := (e &&& f) ^^^ (~~~e &&& g)
    let majority := (a &&& b) ^^^ (a &&& c) ^^^ (b &&& c)
    let first := h + (turn e 14 ^^^ turn e 18 ^^^ turn e 41) + choice + word
    let second := (turn a 28 ^^^ turn a 34 ^^^ turn a 39) + majority
    [first + second, a, b, c, d + first, e, f, g]
  | _ => state

/-- The state after a block. -/
def absorb (state : List UInt64) (block : List UInt8) : List UInt64 :=
  let words := (schedule (blockWords block)).toList
  state.zipWith (· + ·) ((constants.zipWith (· + ·) words).foldl round state)

/-- The digest of bytes. -/
def digest (bytes : List UInt8) : List UInt8 :=
  let text := padded bytes
  let state := (pieces 128 (text.length / 128) text).foldl absorb start
  state.flatMap fun w => bigEndian 8 w.toNat

end Chip8.Sha512
