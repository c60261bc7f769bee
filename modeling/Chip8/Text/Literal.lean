import Chip8.Text.Blank
import Chip8.Text.CodePoint
import Chip8.Text.Digit
import Chip8.Text.Numeral

/-!
# Integer literals

The form of an integer that users write : blanks around it, an optional sign, then digits, with
single underscores between them (`Literal.read`). In base 2, 8 or 16 the digits may follow `0b`, `0o` or
`0x` and one underscore. A decimal literal has at most 4300 digits, which is looked at before what follows
them.
-/

namespace Chip8.Text

namespace Literal

/-- Why a text is no integer. -/
inductive Error where
  /-- It has not the form of a literal. -/
  | malformed
  /-- It begins with too many decimal digits. -/
  | tooLong (digits : Nat)
deriving DecidableEq

/-- The most digits of a decimal literal. -/
def maxDigits : Nat := 4300

/-- What is said of a number that is too long, with the number of its digits if they have been counted. -/
def limitMessage (digits : Option Nat) : String :=
  let counted := match digits with
    | some n => ": value has " ++ decimal n ++ " digits"
    | none => ""
  "Exceeds the limit (" ++ decimal maxDigits ++ " digits) for integer string conversion" ++ counted ++
    "; use sys.set_int_max_str_digits() to increase the limit"

/-- How much of a quotation a message shows. -/
def maxQuotation : Nat := 200

/-- What is said of a text that is no literal. The quotation of the text is cut off where it gets too long. -/
def malformedMessage (base : Nat) (quotation : String) : String :=
  "invalid literal for int() with base " ++ decimal base ++ ": " ++
    String.ofList (quotation.toList.take maxQuotation)

/-- The digits after a digit, and what follows them. An underscore has to stand between two digits. -/
def digitsAfter? (base : Nat) : List Char → Option (List Nat × List Char)
  | [] => some ([], [])
  | '_' :: [] => none
  | '_' :: c :: cs => do
    let d ← digitValue? base c
    let (ds, rest) ← digitsAfter? base cs
    return (d :: ds, rest)
  | c :: cs =>
    match digitValue? base c with
    | none => some ([], c :: cs)
    | some d => do
      let (ds, rest) ← digitsAfter? base cs
      return (d :: ds, rest)

/-- The digits that a text begins with, and what follows them. -/
def digits? (base : Nat) : List Char → Option (List Nat × List Char)
  | [] => none
  | c :: cs => do
    let d ← digitValue? base c
    let (ds, rest) ← digitsAfter? base cs
    return (d :: ds, rest)

/-- The number that digits stand for. -/
def value (base : Nat) (digits : List Nat) : Nat := digits.foldl (fun n d => base * n + d) 0

/-- Take off the mark of a base and the underscore after it. -/
def dropMark (base : Nat) : List Char → List Char
  | '0' :: c :: cs =>
    let marked :=
      base = 16 && (c = 'x' || c = 'X') || base = 8 && (c = 'o' || c = 'O') ||
        base = 2 && (c = 'b' || c = 'B')
    if marked then
      match cs with
      | '_' :: cs => cs
      | cs => cs
    else '0' :: c :: cs
  | cs => cs

/-- The sign of a literal, and what follows it. -/
def sign : List Char → Int × List Char
  | '-' :: cs => (-1, cs)
  | '+' :: cs => (1, cs)
  | cs => (1, cs)

/-- Read an integer literal. -/
def read (base : Nat) (cs : List Char) : Except Error Int :=
  let (sign, cs) := sign (trim isMargin cs)
  match digits? base (dropMark base cs) with
  | none => .error .malformed
  | some (ds, rest) =>
    if base = 10 ∧ maxDigits < ds.length then .error (.tooLong ds.length)
    else if rest = [] then .ok (sign * value base ds)
    else .error .malformed

/-- Read an integer literal of code points. -/
def readPoints (base : Nat) (ps : List CodePoint) : Except Error Int := read base (ps.map CodePoint.toChar)

end Literal

end Chip8.Text
