import Chip8.Number.Decimal
import Chip8.Text.Base64
import Chip8.Text.Lower
import Chip8.Value
import Chip8.Yaml.Error

/-!
# What a scalar stands for

A plain scalar without a tag is what its text looks like : an empty value, a truth value, an integer in base
2, 8, 10, 16 or 60, a fraction, a date, or else a text (`Kind.ofPlain`). A scalar of a given kind is then
read by the rules of that kind (`Kind.read?`), which an explicit tag can make fail.
-/

namespace Chip8.Yaml

open Text (CodePoint)

/-- The kinds of nodes. -/
inductive Kind where
  | null
  | bool
  | int
  | float
  | timestamp
  | text
  | bytes
  | sequence
  | mapping
  | set
  /-- A sequence of entries whose order counts. -/
  | orderedMap
  | pairs
  /-- The key that merges mappings. -/
  | merge
  /-- The key of a default value. -/
  | default
  /-- A kind that nothing is read as. -/
  | other
deriving DecidableEq, Inhabited

namespace Kind

/-- The kind of an address. -/
def ofUri : String → Kind
  | "tag:yaml.org,2002:null" => null
  | "tag:yaml.org,2002:bool" => bool
  | "tag:yaml.org,2002:int" => int
  | "tag:yaml.org,2002:float" => float
  | "tag:yaml.org,2002:timestamp" => timestamp
  | "tag:yaml.org,2002:str" => text
  | "tag:yaml.org,2002:binary" => bytes
  | "tag:yaml.org,2002:seq" => sequence
  | "tag:yaml.org,2002:map" => mapping
  | "tag:yaml.org,2002:set" => set
  | "tag:yaml.org,2002:omap" => orderedMap
  | "tag:yaml.org,2002:pairs" => pairs
  | "tag:yaml.org,2002:merge" => merge
  | "tag:yaml.org,2002:value" => default
  | _ => other

/-! ## Looks -/

/-- A text without the sign in front. -/
def unsigned : List Char → List Char
  | '-' :: cs => cs
  | '+' :: cs => cs
  | cs => cs

/-- Whether a text is not empty and of one kind of characters. -/
def allOf (p : Char → Bool) (cs : List Char) : Bool := cs ≠ [] && cs.all p

/-- Whether a character is a digit, or a bar between digits. -/
def isDigitOrBar (c : Char) : Bool := c.isDigit || c = '_'

/-- Whether a text is one or two digits, of two the first below six. -/
def isSixtieth : List Char → Bool
  | [d] => d.isDigit
  | [t, d] => '0' ≤ t && t ≤ '5' && d.isDigit
  | _ => false

/-- The parts of a text between its colons. -/
def colonParts (cs : List Char) : List (List Char) := cs.splitOn ':'

/-- Whether a text looks like an integer. -/
def looksInt (cs : List Char) : Bool :=
  match unsigned cs with
  | ['0'] => true
  | '0' :: 'b' :: ds => allOf (fun c => c = '0' || c = '1' || c = '_') ds
  | '0' :: 'x' :: ds =>
    allOf (fun c => c.isDigit || ('a' ≤ c && c ≤ 'f') || ('A' ≤ c && c ≤ 'F') || c = '_') ds
  | '0' :: ds => allOf (fun c => ('0' ≤ c && c ≤ '7') || c = '_') ds
  | d :: ds =>
    d.isDigit &&
      match colonParts ds with
      | head :: sixtieths => head.all isDigitOrBar && sixtieths.all isSixtieth
      | [] => false
  | [] => false

/-- Whether a text is an exponent with a sign. -/
def isSignedExponent : List Char → Bool
  | e :: s :: ds => (e = 'e' || e = 'E') && (s = '-' || s = '+') && allOf Char.isDigit ds
  | _ => false

/-- Whether a text is digits and bars, then perhaps an exponent with a sign. -/
def isFraction (cs : List Char) : Bool :=
  let rest := cs.dropWhile isDigitOrBar
  rest = [] || isSignedExponent rest

/-- Whether a text looks like a fraction. -/
def looksFloat (cs : List Char) : Bool :=
  let body := unsigned cs
  let whole := body.takeWhile fun c => isDigitOrBar c || c = ':'
  let point := match body.drop whole.length with
    | '.' :: part => some part
    | _ => none
  let decimal :=
    match whole, point with
    | d :: ds, some part => d.isDigit && ds.all isDigitOrBar && isFraction part
    | _, _ => false
  let sixtieths :=
    match colonParts whole, point with
    | (d :: ds) :: p :: ps, some part =>
      d.isDigit && ds.all isDigitOrBar && (p :: ps).all isSixtieth && part.all isDigitOrBar
    | _, _ => false
  let bare :=
    match cs with
    | '.' :: d :: ds => d.isDigit && isFraction ds
    | _ => false
  decimal || sixtieths || bare || [".inf", ".Inf", ".INF"].contains (String.ofList body) ||
    [".nan", ".NaN", ".NAN"].contains (String.ofList cs)

/-- The words for a truth value, in small letters. -/
def truthWords : List (String × Bool) :=
  [("yes", true), ("no", false), ("true", true), ("false", false), ("on", true), ("off", false)]

/-- Whether a text is a word for a truth value, written small, large or with a capital. -/
def looksBool (s : String) : Bool :=
  truthWords.any fun (w, _) => s = w || s = w.capitalize || s = w.toUpper

/-- Whether a text is one or two digits. -/
def isShort (ds : List Char) : Bool := allOf Char.isDigit ds && ds.length ≤ 2

/-- The day at the beginning of a text, its month and day in one or two digits, and what follows it. -/
def dayAt? (cs : List Char) : Option (Day × List Char) :=
  let year := cs.takeWhile Char.isDigit
  match cs.drop year.length with
  | '-' :: cs =>
    let month := cs.takeWhile Char.isDigit
    match cs.drop month.length with
    | '-' :: cs =>
      let day := cs.takeWhile Char.isDigit
      if year.length = 4 && isShort month && isShort day then
        some (⟨Decimal.digitsValue year, Decimal.digitsValue month, Decimal.digitsValue day⟩,
          cs.drop day.length)
      else none
    | _ => none
  | _ => none

/-- Whether a character is a space or a tab. -/
def isSpace (c : Char) : Bool := c = ' ' || c = '\t'

/-- The minutes of a distance from universal time, if the text behind its sign is one. -/
def distance? (cs : List Char) : Option Int :=
  match colonParts cs with
  | [hours] => if isShort hours then some (60 * Decimal.digitsValue hours) else none
  | [hours, minutes] =>
    if isShort hours && minutes.length = 2 && minutes.all Char.isDigit then
      some (60 * Decimal.digitsValue hours + Decimal.digitsValue minutes)
    else none
  | _ => none

/-- The offset from universal time that a text gives behind blanks. An empty text gives none. -/
def zone? (cs : List Char) : Option (Option Int) :=
  match cs.dropWhile isSpace with
  | [] => if cs = [] then some none else none
  | ['Z'] => some (some 0)
  | '+' :: ds => (distance? ds).map some
  | '-' :: ds => (distance? ds).map fun minutes => some (-minutes)
  | _ => none

/-- The microseconds of the digits behind the point of a second. Further digits do not count. -/
def microseconds (digits : List Char) : Nat := Decimal.digitsValue ((digits.take 6).rightpad 6 '0')

/-- The time of day with its offset, if the text is one. -/
def time? (cs : List Char) : Option (TimeOfDay × Option Int) :=
  let hour := cs.takeWhile Char.isDigit
  match cs.drop hour.length with
  | ':' :: a :: b :: ':' :: c :: d :: rest =>
    let (part, rest) := match rest with
      | '.' :: rest => (rest.takeWhile Char.isDigit, rest.dropWhile Char.isDigit)
      | rest => ([], rest)
    if isShort hour && [a, b, c, d].all Char.isDigit then
      (zone? rest).map fun offset =>
        (⟨Decimal.digitsValue hour, Decimal.digitsValue [a, b], Decimal.digitsValue [c, d],
          microseconds part⟩, offset)
    else none
  | _ => none

/-- The day that a text gives, and the time of day with its offset if there is one. -/
def stamp? (cs : List Char) : Option (Day × Option (TimeOfDay × Option Int)) :=
  match dayAt? cs with
  | none => none
  | some (day, []) => some (day, none)
  | some (day, sep :: rest) =>
    let rest :=
      if sep = 'T' || sep = 't' then some rest
      else if isSpace sep then some (rest.dropWhile isSpace)
      else none
    (rest.bind time?).map fun t => (day, some t)

/-- Whether a text looks like a date : a day written in full, or a day with a time. -/
def looksTimestamp (cs : List Char) : Bool :=
  match stamp? cs with
  | some (_, some _) => true
  | some (_, none) => cs.length = 10
  | none => false

/-- A text without the line feed at its end. -/
def unended (cs : List Char) : List Char := if cs.getLast? = some '\n' then cs.dropLast else cs

/-- The kind that a text looks like. A line feed at its end does not count, but one alone is a text. -/
def ofText (s : String) : Kind :=
  let cs := unended s.toList
  let body := String.ofList cs
  if s = "\n" then text
  else if ["", "~", "null", "Null", "NULL"].contains body then null
  else if looksBool body then bool
  else if looksFloat cs then float
  else if looksInt cs then int
  else if body = "<<" then merge
  else if body = "=" then default
  else if ["!", "&", "*"].contains body then other
  else if looksTimestamp cs then timestamp
  else text

/-- The kind that a plain scalar looks like. -/
def ofPlain (ps : List CodePoint) : Kind := ((CodePoint.string? ps).map ofText).getD text

end Kind

/-! ## Values -/

namespace Scalar

/-- Whether a text begins with some characters. -/
def begins (start : String) (ps : List CodePoint) : Bool := (CodePoint.ofString start).isPrefixOf ps

/-- A text without its bars. -/
def withoutBars (ps : List CodePoint) : List CodePoint := ps.filter (· ≠ .char '_')

/-- The parts of a text between its colons. -/
def colonParts (ps : List CodePoint) : List (List CodePoint) := ps.splitOn (.char ':')

/-- Whether a text begins with a minus sign, and the text behind its sign. A text has to begin with
something. -/
def signed : List CodePoint → Except ScalarError (Bool × List CodePoint)
  | [] => .error .empty
  | p :: ps =>
    if p = .char '-' then .ok (true, ps)
    else if p = .char '+' then .ok (false, ps)
    else .ok (false, p :: ps)

/-- An integer literal of a base. -/
def literal (base : Nat) (ps : List CodePoint) : Except ScalarError Int :=
  match Text.Literal.readPoints base ps with
  | .ok i => .ok i
  | .error .malformed => .error (.int base ps)
  | .error (.tooLong digits) => .error (.tooLong digits)

/-- An integer without its sign. -/
def magnitude (ps : List CodePoint) : Except ScalarError Int := do
  if ps = [] then throw .empty
  else if ps = CodePoint.ofString "0" then return 0
  else if begins "0b" ps then literal 2 (ps.drop 2)
  else if begins "0x" ps then literal 16 (ps.drop 2)
  else if begins "0" ps then literal 8 ps
  else
    match colonParts ps with
    | [_] => literal 10 ps
    | parts => return (← parts.mapM (literal 10)).foldl (60 * · + ·) 0

/-- The value of an integer. -/
def int (ps : List CodePoint) : Except ScalarError Int := do
  let (negative, ps) ← signed (withoutBars ps)
  let i ← magnitude ps
  return if negative then -i else i

/-- The value of a fraction, or of a part of it between colons. -/
def part (ps : List CodePoint) : Except ScalarError Binary64 :=
  match Decimal.read? (ps.map CodePoint.toChar) with
  | some x => .ok x
  | none => .error (.float ps)

/-- The sum of parts, the last first, each taken as often as its unit says. The unit grows sixtyfold from
part to part and has to be a fraction itself. -/
def sumSixtieths (unit : Nat) (sum : Binary64) : List Binary64 → Except ScalarError Binary64
  | [] => .ok sum
  | x :: xs =>
    match Binary64.ofNat unit with
    | .infinity _ => .error .tooLarge
    | u => sumSixtieths (60 * unit) (sum.add (x.mul u)) xs

/-- The undefined number under its own name. -/
def isUndefined (ps : List CodePoint) : Bool := begins ".nan" ps && ps.length = 4

/-- A text in lower case. -/
def lower (ps : List CodePoint) : List CodePoint := CodePoint.mapRuns (Text.lowerFrom false) ps

/-- The value of a fraction, an infinity or the undefined number. -/
def float (ps : List CodePoint) : Except ScalarError Binary64 := do
  let (negative, ps) ← signed (lower (withoutBars ps))
  let x ←
    if ps = CodePoint.ofString ".inf" then pure (.infinity false)
    else if isUndefined ps then pure .nan
    else match colonParts ps with
      | [_] => part ps
      | parts => sumSixtieths 1 (.zero false) (← parts.mapM part).reverse
  return if negative then x.neg else x

/-- Whether a text names the undefined number. -/
def namesUndefined (ps : List CodePoint) : Bool :=
  match signed (lower (withoutBars ps)) with
  | .ok (_, ps) => isUndefined ps
  | .error _ => false

/-- The value of a word for a truth value, in any case. -/
def bool (ps : List CodePoint) : Except ScalarError Bool :=
  match (CodePoint.string? (lower ps)).bind (Kind.truthWords.lookup ·) with
  | some b => .ok b
  | none => .error (.bool (lower ps))

/-- The day or the moment that a text gives, if the calendar has it. -/
def timestamp (ps : List CodePoint) : Except ScalarError Value :=
  match Kind.stamp? (Kind.unended (ps.map CodePoint.toChar)) with
  | some (day, none) => ((Calendar.checkDay day).map fun _ => .day day).mapError .calendar
  | some (day, some (time, offset)) =>
    let moment : Moment := ⟨day, time, offset⟩
    ((Calendar.checkMoment moment).map fun _ => .moment moment).mapError .calendar
  | none => .error .noMoment

end Scalar

/-- The value of a scalar of a kind, none if it is malformed. The kinds of collections and of keys have no
scalars. -/
def Kind.read? (ps : List CodePoint) : Kind → Option (Except ScalarError Value)
  | null => some (.ok .null)
  | bool => some ((Scalar.bool ps).map .bool)
  | int => some ((Scalar.int ps).map .int)
  | float => some ((Scalar.float ps).map .real)
  | timestamp => some (Scalar.timestamp ps)
  | text => some (.ok (.ofPoints ps))
  | bytes => ((CodePoint.string? ps).bind Text.Base64.decode?).map fun bs => .ok (.bytes bs)
  | _ => none

end Chip8.Yaml
