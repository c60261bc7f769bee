import Chip8.Text.Digit
import Chip8.Yaml.Cursor
import Chip8.Yaml.Token

/-!
# Names, tags and directives

The tokens that say something about a node or about the whole document : anchors and aliases, tags, and
the directive lines in front of a document.
-/

namespace Chip8.Yaml

/-- Whether a character may stand in a name. -/
def isNameChar (c : Char) : Bool := c.isAlphanum || c = '-' || c = '_'

/-- Whether a character may stand in the address of a tag. -/
def isUriChar (c : Char) : Bool := c.isAlphanum || "-;/?:@&=+$,_.!~*'()[]%".toList.contains c

/-- The name of an anchor or an alias behind its mark. -/
def anchorName (c : Cursor) : Except Stop (String × Cursor) := do
  let c := c.advance
  c.need 1
  let (name, c) := c.span isNameChar
  c.need 1
  let ends := endsWord c.rest || (c.rest.head?.any fun ch => "?:,]\x7d%@`".toList.contains ch)
  if name ≠ [] ∧ ends then return (String.ofList name, c) else refuse

/-- The number of hexadecimal digits. -/
def hexValue? (digits : List Char) : Option Nat := do
  let values ← digits.mapM fun c => if c.toNat < 128 then Text.digitValue? 16 c else none
  return values.foldl (16 * · + ·) 0

/-- The number of some hexadecimal digits at the cursor. -/
def hexNumber (width : Nat) (c : Cursor) : Except Stop Nat := do
  match hexValue? (c.rest.take width) with
  | none => refuse
  | some n =>
    c.need width
    if (c.rest.take width).length < width then refuse else return n

/-- The bytes at the cursor that are written as a per cent sign and two digits each. -/
def escapedBytesWithin : Nat → Cursor → Except Stop (List UInt8 × Cursor)
  | 0, c => return ([], c)
  | fuel + 1, c => do
    c.need 1
    match c.rest with
    | '%' :: _ =>
      let byte ← hexNumber 2 c.advance
      let (more, c) ← escapedBytesWithin fuel (c.advanceBy 3)
      return (UInt8.ofNat byte :: more, c)
    | _ => return ([], c)

/-- The bytes of an address. Those written as digits in a row have to be characters. -/
def uriBytesWithin : Nat → Cursor → Except Stop (List UInt8 × Cursor)
  | 0, c => return ([], c)
  | fuel + 1, c => do
    c.need 1
    match c.rest with
    | '%' :: _ =>
      let (escaped, c) ← escapedBytesWithin c.bound c
      if (String.fromUTF8? ⟨escaped.toArray⟩).isNone then refuse
      let (more, c) ← uriBytesWithin fuel c
      return (escaped ++ more, c)
    | ch :: _ =>
      if isUriChar ch then
        let (more, c) ← uriBytesWithin fuel c.advance
        return (UInt8.ofNat ch.toNat :: more, c)
      else return ([], c)
    | [] => return ([], c)

/-- The address of a tag, which is not empty. -/
def tagUri (c : Cursor) : Except Stop (String × Cursor) := do
  let (bytes, c) ← uriBytesWithin c.bound c
  match bytes, String.fromUTF8? ⟨bytes.toArray⟩ with
  | _ :: _, some uri => return (uri, c)
  | _, _ => refuse

/-- The handle of a tag : a name between exclamation marks, or one mark alone. -/
def tagHandle (c : Cursor) : Except Stop (String × Cursor) := do
  c.need 1
  match c.rest with
  | '!' :: cs =>
    let name := cs.takeWhile isNameChar
    c.need (name.length + 2)
    match cs.drop name.length with
    | '!' :: _ =>
      let c := c.advanceBy (name.length + 2)
      c.need 1
      return (String.ofList ('!' :: name ++ ['!']), c)
    | ' ' :: _ => if name = [] then return ("!", c.advance) else refuse
    | _ => refuse
  | _ => refuse

/-- The tag at the cursor, and the cursor behind it. -/
def tag (c : Cursor) : Except Stop (Token × Cursor) := do
  c.need 2
  let (tag, c) ← (do
    match c.rest.drop 1 with
    | '<' :: _ =>
      let (uri, c) ← tagUri (c.advanceBy 2)
      if c.rest.head? = some '>' then return (Token.tag none uri, c.advance) else refuse
    | cs =>
      if endsWord cs then return (Token.tag none "!", c.advance)
      else
        -- a word with another exclamation mark in it has a handle
        let front := cs.takeWhile fun ch => !(ch = '!' || ch = ' ' || isBreak ch)
        c.need (front.length + 2)
        if cs[front.length]? = some '!' then
          let (handle, c) ← tagHandle c
          let (uri, c) ← tagUri c
          return (Token.tag (some handle) uri, c)
        else
          let (uri, c) ← tagUri c.advance
          return (Token.tag (some "!") uri, c))
  c.need 1
  if endsField c.rest then return (tag, c) else refuse

/-- A number in decimal digits, and the cursor behind it. It may have as many digits as a literal. -/
def number (c : Cursor) : Except Stop (Nat × Cursor) := do
  let (digits, c) := c.span Char.isDigit
  c.need 1
  if digits = [] then refuse
  else if Text.Literal.maxDigits < digits.length then
    throw (.error (.scalar (.tooLong digits.length)))
  else return (digits.foldl (fun n d => 10 * n + (d.toNat - 48)) 0, c)

/-- What a directive of a given name says, and the cursor behind it. -/
def directiveValue (name : String) (c : Cursor) : Except Stop (Token × Cursor) := do
  match name with
  | "YAML" =>
    let (major, c) ← number c.skipSpaces
    if c.rest.head? ≠ some '.' then refuse
    else
      let (minor, c) ← number c.advance
      if endsField c.rest then return (.version major minor, c) else refuse
  | "TAG" =>
    let (handle, c) ← tagHandle c.skipSpaces
    if c.rest.head? ≠ some ' ' then refuse
    else
      let (uri, c) ← tagUri c.skipSpaces
      if endsField c.rest then return (.handle handle uri, c) else refuse
  | _ => return (.directive, c.skipLine)

/-- The directive at its mark, and the cursor behind its line. -/
def directive (c : Cursor) : Except Stop (Token × Cursor) := do
  let c := c.advance
  c.need 1
  let (name, c) := c.span isNameChar
  c.need 1
  if name = [] ∨ !endsField c.rest then refuse
  else
    let (token, c) ← directiveValue (String.ofList name) c
    return (token, ← c.finishLine)

end Chip8.Yaml
