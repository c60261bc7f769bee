import Chip8.Number.Binary64
import Chip8.Text.Numeral

/-!
# Shortest decimals

A binary fraction is written with the fewest digits that read back as the same number, and of
those decimals the nearest (`Shortest.digits`). The reals that read back as `m · 2 ^ q` lie between
the midpoints to its two neighbours, the midpoints included when `m` is even. If a decimal grid
has a point there, one of the two grid points next to the number is there too, so the search
looks at these two on grids of 1, 2, … digits.
-/

namespace Chip8

namespace Shortest

/-- The reals that read back as a number, over one denominator : the number, and the ends of the interval,
which belong to it or not. -/
structure Interval where
  low : Nat
  num : Nat
  high : Nat
  den : Nat
  closed : Bool

/-- The interval of `m · 2 ^ e`. Below a power of two the neighbour is only half as far away. -/
def interval (m : Nat) (e : Int) : Interval :=
  let narrow := m == 1 <<< 52 && -1074 < e
  let (num, den) := Binary64.shiftRatio (4 * m) 4 e
  let (step, _) := Binary64.shiftRatio 1 4 e
  { low := num - (if narrow then step else 2 * step)
    num
    high := num + 2 * step
    den
    closed := m % 2 == 0 }

namespace Interval

/-- Whether `k · 10 ^ p` lies in the interval. -/
def holds (i : Interval) (k : Nat) (p : Int) : Bool :=
  let (x, d) := if 0 ≤ p then (k * Nat.pow 10 p.toNat * i.den, 1) else (k * i.den, Nat.pow 10 (-p).toNat)
  if i.closed then i.low * d ≤ x && x ≤ i.high * d else i.low * d < x && x < i.high * d

/-- The number over `10 ^ p` as a ratio. -/
def onGrid (i : Interval) (p : Int) : Nat × Nat :=
  if 0 ≤ p then (i.num, i.den * Nat.pow 10 p.toNat) else (i.num * Nat.pow 10 (-p).toNat, i.den)

/-- The point of the grid of step `10 ^ p` to write the number with, if one lies in the interval :
of the two points next to the number the nearer one, the even one in a tie. -/
def point? (i : Interval) (p : Int) : Option Nat :=
  let (n, d) := i.onGrid p
  let below := n / d
  match i.holds below p, i.holds (below + 1) p with
  | true, true => some (Binary64.roundDiv n d)
  | true, false => some below
  | false, true => some (below + 1)
  | false, false => none

/-- The number of the digits before the decimal point, or minus the number of zeros behind it. -/
def magnitude (i : Interval) : Int :=
  let (n, d) := (i.num, i.den)
  if d ≤ n then (Text.numeral 10 (n / d)).length
  else
    -- the number of zeros is the guess or next to it
    let guess := (d.log2 - n.log2) * 30103 / 100000
    let zeros := ((List.range 3).map (guess + 1 - ·)).find? (n * Nat.pow 10 · < d)
    Int.neg (zeros.getD 0)

end Interval

/-- The shortest decimal of `m · 2 ^ e` : an integer and the power of ten it is taken times. -/
def digits (m : Nat) (e : Int) : Nat × Int :=
  let i := interval m e
  let top := i.magnitude
  let grid := (List.range 17).findSome? fun k =>
    let p := top - (k + 1 : Nat)
    (i.point? p).map (·, p)
  grid.getD (0, 0)

/-- The digits of a decimal without the zeros behind the last one that counts, and the place of
the point relative to their beginning. -/
def significant (n : Nat) (p : Int) : List Char × Int :=
  let all := Text.numeral 10 n
  ((all.reverse.dropWhile (· = '0')).reverse, all.length + p)

/-- Digits with a decimal point, at least one digit on either side. -/
def positional (digits : List Char) (point : Int) : List Char :=
  if point ≤ 0 then '0' :: '.' :: (List.replicate (-point).toNat '0' ++ digits)
  else
    let whole := digits.take point.toNat
    let rest := digits.drop point.toNat
    (whole.rightpad point.toNat '0') ++ '.' :: (if rest = [] then ['0'] else rest)

/-- Digits with an exponent of ten of at least two digits. -/
def scientific (digits : List Char) (point : Int) : List Char :=
  let e := point - 1
  let mantissa := match digits with
    | d :: [] => [d]
    | d :: rest => d :: '.' :: rest
    | [] => ['0']
  let sign := if e < 0 then '-' else '+'
  mantissa ++ 'e' :: sign :: (Text.numeral 10 e.natAbs).leftpad 2 '0'

/-- A positive number in decimal : positional from one ten-thousandth up to sixteen digits before the
point, with an exponent outside. -/
def finite (m : Nat) (e : Int) : List Char :=
  if m = 0 then ['0', '.', '0']
  else
    let (n, p) := digits m e
    let (ds, point) := significant n p
    if -4 < point && point ≤ 16 then positional ds point else scientific ds point

end Shortest

/-- A binary fraction in decimal. -/
def Binary64.text : Binary64 → String
  | .nan => "nan"
  | .infinity false => "inf"
  | .infinity true => "-inf"
  | .finite negative m e =>
    String.ofList ((if negative then ['-'] else []) ++ Shortest.finite m e)

end Chip8
