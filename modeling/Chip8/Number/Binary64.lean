/-!
# Binary fractions

Numbers of 64 bits : a sign, a mantissa of 53 bits and an exponent from −1074 to 971, and beside them the
two infinities and the undefined number. They are exact values here, and every operation goes
through one rounding, `Binary64.ofRatio`, to the nearest such number, a tie to the even
mantissa.
-/

namespace Chip8

/-- A number `± mantissa · 2 ^ exponent`. A finite one has the mantissa below `2 ^ 53`, and at least
`2 ^ 52` unless its exponent is the least one. -/
inductive Binary64 where
  | nan
  | infinity (negative : Bool)
  | finite (negative : Bool) (mantissa : Nat) (exponent : Int)
deriving DecidableEq

namespace Binary64

/-- Zero, of either sign. -/
def zero (negative : Bool) : Binary64 := .finite negative 0 (-1074)

/-- The quotient of two positive numbers rounded to the nearest one, a tie to the even one. -/
def roundDiv (num den : Nat) : Nat :=
  let q := num / den
  let r := num % den
  if den < 2 * r ∨ (2 * r = den ∧ q % 2 = 1) then q + 1 else q

/-- The ratio `num / den` multiplied by a power of two. -/
def shiftRatio (num den : Nat) (e : Int) : Nat × Nat :=
  if 0 ≤ e then (num <<< e.toNat, den) else (num, den <<< (-e).toNat)

/-- The exponent of the number nearest to a positive ratio : the one that makes the mantissa 53
bits long, or the least one. -/
def exponentOf (num den : Nat) : Int :=
  let e : Int := max (-1074) (num.log2 - den.log2 - 52)
  let (n, d) := shiftRatio num den (-e)
  if n < d <<< 52 then max (-1074) (e - 1) else if d <<< 53 ≤ n then e + 1 else e

/-- The number nearest to a ratio. -/
def ofRatio (negative : Bool) (num den : Nat) : Binary64 :=
  if num = 0 then zero negative
  else
    let e := exponentOf num den
    let (n, d) := shiftRatio num den (-e)
    let m := roundDiv n d
    let (m, e) := if m = 1 <<< 53 then (1 <<< 52, e + 1) else (m, e)
    if 971 < e then .infinity negative else .finite negative m e

/-- The number nearest to `digits · 10 ^ exponent`. An exponent far outside the range is not carried
out : the answer is infinite or zero. -/
def ofDecimal (negative : Bool) (digits : Nat) (exponent : Int) : Binary64 :=
  if digits = 0 ∨ exponent + digits.log2 < -1000 then zero negative
  else if 400 < exponent then .infinity negative
  else if 0 ≤ exponent then ofRatio negative (digits * Nat.pow 10 exponent.toNat) 1
  else ofRatio negative digits (Nat.pow 10 (-exponent).toNat)

/-- The number nearest to a natural number. -/
def ofNat (n : Nat) : Binary64 := ofRatio false n 1

/-- The exact value of a finite number as a sign and a ratio. -/
def ratio? : Binary64 → Option (Bool × Nat × Nat)
  | .finite negative m e => let (n, d) := shiftRatio m 1 e; some (negative, n, d)
  | _ => none

/-- Whether the number is zero, of either sign. -/
def isZero : Binary64 → Bool
  | .finite _ m _ => m == 0
  | _ => false

/-- The integer part of a finite number, rounded toward zero. -/
def truncate? (x : Binary64) : Option Int :=
  x.ratio?.map fun (negative, n, d) => if negative then -((n / d : Nat) : Int) else (n / d : Nat)

/-- The integer that a number is equal to, if there is one. -/
def toInt? (x : Binary64) : Option Int :=
  match x.ratio? with
  | some (_, n, d) => if n % d = 0 then x.truncate? else none
  | none => none

/-- The number of the other sign. -/
def neg : Binary64 → Binary64
  | .nan => .nan
  | .infinity s => .infinity !s
  | .finite s m e => .finite (!s) m e

/-- Whether a number has a minus sign. -/
def isNegative : Binary64 → Bool
  | .nan => false
  | .infinity s => s
  | .finite s _ _ => s

/-- The product of two numbers. -/
def mul : Binary64 → Binary64 → Binary64
  | .finite s m e, .finite t n f =>
    let (num, den) := shiftRatio (m * n) 1 (e + f)
    ofRatio (s != t) num den
  | .nan, _ => .nan
  | _, .nan => .nan
  | x, y => if x.isZero || y.isZero then .nan else .infinity (x.isNegative != y.isNegative)

/-- A mantissa with its sign, shifted from its exponent down to a smaller one. -/
def aligned (negative : Bool) (mantissa : Nat) (exponent least : Int) : Int :=
  let m : Int := (mantissa <<< (exponent - least).toNat : Nat)
  if negative then -m else m

/-- The sum of two numbers. A zero sum has a minus sign only if both numbers have. -/
def add : Binary64 → Binary64 → Binary64
  | .finite s m e, .finite t n f =>
    let least := min e f
    let sum := aligned s m e least + aligned t n f least
    let (num, den) := shiftRatio sum.natAbs 1 least
    if sum = 0 then zero (s && t) else ofRatio (sum < 0) num den
  | .infinity s, .infinity t => if s = t then .infinity s else .nan
  | .infinity s, .finite .. => .infinity s
  | .finite .., .infinity t => .infinity t
  | _, _ => .nan

/-- The least integer that is not below a finite number. -/
def ceil? (x : Binary64) : Option Int :=
  x.ratio?.map fun (negative, n, d) =>
    if negative then -((n / d : Nat) : Int) else ((n + d - 1) / d : Nat)

end Binary64

end Chip8
