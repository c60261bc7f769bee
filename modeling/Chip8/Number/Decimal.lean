import Chip8.Number.Binary64
import Chip8.Text.Blank
import Chip8.Text.Digit

/-!
# Reading decimals

The texts that stand for a binary fraction : an optional sign, digits with or without a point among, in
front of or behind them, and an optional exponent of ten. The digits may be those of any script. Infinity
and the undefined number have names.
-/

namespace Chip8

namespace Decimal

/-- The value of ASCII decimal digits. -/
def digitsValue (ds : List Char) : Nat := ds.foldl (fun n d => 10 * n + (d.toNat - 48)) 0

/-- An exponent with its mark, or nothing. -/
def exponent? : List Char → Option Int
  | [] => some 0
  | e :: cs =>
    if e = 'e' || e = 'E' then
      let (negative, ds) := match cs with
        | '-' :: ds => (true, ds)
        | '+' :: ds => (false, ds)
        | ds => (false, ds)
      if ds ≠ [] ∧ ds.all Char.isDigit then
        some (if negative then -(digitsValue ds : Int) else digitsValue ds)
      else none
    else none

/-- An unsigned decimal. -/
def unsigned? (negative : Bool) (cs : List Char) : Option Binary64 :=
  let whole := cs.takeWhile Char.isDigit
  let rest := cs.dropWhile Char.isDigit
  let (part, rest) := match rest with
    | '.' :: rest => (rest.takeWhile Char.isDigit, rest.dropWhile Char.isDigit)
    | rest => ([], rest)
  if whole = [] ∧ part = [] then none
  else (exponent? rest).map fun e =>
    Binary64.ofDecimal negative (digitsValue (whole ++ part)) (e - part.length)

/-- A decimal digit of any script as the digit of ASCII. -/
def toAscii (c : Char) : Char :=
  match Text.decimalValue? c with
  | some d => Char.ofNat (48 + d)
  | none => c

/-- A number or the name of one. -/
def read? (cs : List Char) : Option Binary64 :=
  let (negative, cs) := match (Text.trim Text.isMargin cs).map toAscii with
    | '-' :: cs => (true, cs)
    | '+' :: cs => (false, cs)
    | cs => (false, cs)
  let name := String.ofList (cs.map Char.toLower)
  if name = "inf" ∨ name = "infinity" then some (.infinity negative)
  else if name = "nan" then some .nan
  else unsigned? negative cs

end Decimal

end Chip8
