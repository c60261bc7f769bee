/-!
# Written numbers

A number is written in a base with the digits `0..9A..Z`, most significant first, a minus sign
in front of a negative one (`Numeral.signed`). Two ways to widen it are used by the trace and
by the messages: zeros between the sign and the digits (`zeroPadded`), and blanks in front of or
behind the text (`alignRight`, `alignLeft`). A width counts the sign.
-/

namespace Chip8.Text

/-- The digit of value `d < 36`. -/
def digitChar (d : Nat) : Char :=
  if d < 10 then Char.ofNat ('0'.toNat + d) else Char.ofNat ('A'.toNat + (d - 10))

/-- The digits of `n` in a base of at least two. -/
def numeral (base : Nat) (n : Nat) : List Char :=
  if base < 2 ∨ n < base then [digitChar n]
  else numeral base (n / base) ++ [digitChar (n % base)]
termination_by n
decreasing_by
  exact Nat.div_lt_self (by omega) (by omega)

/-- An integer in a base : its sign, then its digits. -/
def signed (base : Nat) : Int → List Char
  | .ofNat n => numeral base n
  | .negSucc n => '-' :: numeral base (n + 1)

/-- An integer filled up to `width` with zeros between its sign and its digits. -/
def zeroPadded (base width : Nat) : Int → List Char
  | .ofNat n => (numeral base n).leftpad width '0'
  | .negSucc n => '-' :: (numeral base (n + 1)).leftpad (width - 1) '0'

/-- An integer written in decimal. -/
def decimal (i : Int) : String := String.ofList (signed 10 i)

/-- An integer written in hexadecimal. -/
def hex (i : Int) : String := String.ofList (signed 16 i)

/-- An integer written in hexadecimal, at least `width` wide. -/
def hexPadded (width : Nat) (i : Int) : String := String.ofList (zeroPadded 16 width i)

/-- Text moved to the right edge of a column. -/
def alignRight (width : Nat) (s : String) : String :=
  String.ofList (s.toList.leftpad width ' ')

/-- Text at the left edge of a column. -/
def alignLeft (width : Nat) (s : String) : String :=
  String.ofList (s.toList.rightpad width ' ')

end Chip8.Text
