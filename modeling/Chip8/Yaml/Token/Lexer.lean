import Chip8.Yaml.Token.Property
import Chip8.Yaml.Token.Scalar

/-!
# From text to tokens

The lexer goes through a document once. Indentation opens and closes block collections : `Lexer.indent` is
the column of the innermost open one. A mapping key shows only by the colon behind it, so the place of
a token that may turn out to be a key is remembered (`PendingKey`), for each level of flow collections one,
and the key is marked there when the colon comes. A key and its colon stand on one line, at most 1024
characters apart.

Every step takes a character at least, so the length of the document bounds the steps.
-/

namespace Chip8.Yaml

/-- A place where a key may have begun. -/
structure PendingKey where
  /-- The number of the tokens in front. -/
  token : Nat
  /-- Whether nothing but a key can stand there. -/
  required : Bool
  line : Nat
  column : Nat
  index : Nat

/-- A lexer on its way : where it is, the tokens so far, and the collections and keys that are open. -/
structure Lexer where
  cursor : Cursor
  tokens : Array Token := #[]
  /-- The column of the innermost block collection, −1 outside. -/
  indent : Int := -1
  /-- The columns of the collections around it. -/
  outer : List Int := []
  /-- The pending key of each level of flow collections, the innermost first and the block level last. -/
  keys : List (Option PendingKey) := [none]
  /-- Whether a key may begin here. -/
  keyAllowed : Bool := true

namespace Lexer

/-- Whether the cursor is inside a flow collection. -/
def inFlow (s : Lexer) : Bool := 1 < s.keys.length

/-- The pending key of the innermost level. -/
def pending (s : Lexer) : Option PendingKey := s.keys.head?.join

/-- Set the pending key of the innermost level. -/
def setPending (s : Lexer) (key : Option PendingKey) : Lexer := { s with keys := key :: s.keys.drop 1 }

/-- Add a token. -/
def push (s : Lexer) (t : Token) : Lexer := { s with tokens := s.tokens.push t }

/-- Put a token in front of those from a place on. -/
def insert (s : Lexer) (place : Nat) (t : Token) : Lexer :=
  { s with tokens := s.tokens.insertIdxIfInBounds place t }

/-- Give up the pending key, which must not be a required one. -/
def dropKey (s : Lexer) : Except Stop Lexer :=
  match s.pending with
  | some key => if key.required then refuse else return s.setPending none
  | none => return s

/-- Whether the cursor has gone too far from a pending key. -/
def isStale (s : Lexer) (k : PendingKey) : Bool :=
  k.line ≠ s.cursor.line || 1024 < s.cursor.index - k.index

/-- Give up the pending keys that the cursor has gone too far from. -/
def dropStale (s : Lexer) : Except Stop Lexer := do
  let keys ← s.keys.mapM fun key =>
    match key with
    | some k => if s.isStale k then if k.required then refuse else return none else return some k
    | none => return none
  return { s with keys }

/-- How many tokens have their place, so that no key can be marked in front of one of them any more. -/
def settled (s : Lexer) : Nat :=
  (s.keys.filterMap fun key => key.map PendingKey.token).foldl min s.tokens.size

/-- Remember that a key may begin here. -/
def saveKey (s : Lexer) : Except Stop Lexer :=
  if s.keyAllowed then do
    let s ← s.dropKey
    return s.setPending (some {
      token := s.tokens.size
      required := !s.inFlow && s.indent = s.cursor.column
      line := s.cursor.line
      column := s.cursor.column
      index := s.cursor.index })
  else return s

/-- The columns around and the ends of the blocks deeper than a column. -/
def closeDeeper (column indent : Int) : List Int → Int × List Int × List Token
  | [] => (indent, [], [])
  | o :: os =>
    if column < indent then
      let (indent, outer, ends) := closeDeeper column o os
      (indent, outer, .blockEnd :: ends)
    else (indent, o :: os, [])

/-- Close the blocks deeper than a column. -/
def unwind (s : Lexer) (column : Int) : Lexer :=
  if s.inFlow then s
  else
    let (indent, outer, ends) := closeDeeper column s.indent s.outer
    { s with indent, outer, tokens := s.tokens.appendList ends }

/-- Open a block at a column, marked by a token in front of those from a place on, unless one as deep is
open. -/
def openBlock (s : Lexer) (column : Nat) (place : Nat) (t : Token) : Lexer :=
  if s.indent < column then
    { s with indent := column, outer := s.indent :: s.outer }.insert place t
  else s

/-- Take a token of one character. -/
def take (s : Lexer) (t : Token) : Except Stop Lexer := do
  s.cursor.need 2
  return { s with cursor := s.cursor.advance }.push t

/-- Take a token that ends all blocks. -/
def takeTopLevel (s : Lexer) (found : Except Stop (Token × Cursor)) : Except Stop Lexer := do
  let s ← (s.unwind (-1)).dropKey
  let (token, c) ← found
  return { s with cursor := c, keyAllowed := false }.push token

/-- Take the mark that opens a flow collection, which may be a key. -/
def openFlow (s : Lexer) (t : Token) : Except Stop Lexer := do
  let s ← s.saveKey
  { s with keys := none :: s.keys, keyAllowed := true }.take t

/-- Take the mark that closes a flow collection. -/
def closeFlow (s : Lexer) (t : Token) : Except Stop Lexer := do
  let inFlow := s.inFlow
  let s ← (← s.dropKey).take t
  if inFlow then return { s with keys := s.keys.drop 1, keyAllowed := false } else refuse

/-- Take the mark between the entries of a flow collection. -/
def takeComma (s : Lexer) : Except Stop Lexer := do
  let s ← s.dropKey
  { s with keyAllowed := true }.take .flowEntry

/-- Take the mark of an entry of a block sequence. -/
def takeEntry (s : Lexer) : Except Stop Lexer :=
  if !s.inFlow && !s.keyAllowed then refuse
  else do
    let s := if s.inFlow then s else s.openBlock s.cursor.column s.tokens.size .blockSequence
    let s ← s.dropKey
    { s with keyAllowed := true }.take .blockEntry

/-- Take the mark of a key. -/
def takeKey (s : Lexer) : Except Stop Lexer :=
  if !s.inFlow && !s.keyAllowed then refuse
  else do
    let s := if s.inFlow then s else s.openBlock s.cursor.column s.tokens.size .blockMapping
    let s ← s.dropKey
    { s with keyAllowed := !s.inFlow }.take .key

/-- Take the colon in front of a value. -/
def takeValue (s : Lexer) : Except Stop Lexer :=
  match s.pending with
  | some key =>
    let s := (s.setPending none).insert key.token .key
    let s := if s.inFlow then s else s.openBlock key.column key.token .blockMapping
    { s with keyAllowed := false }.take .value
  | none =>
    if !s.inFlow && !s.keyAllowed then refuse
    else do
      let s := if s.inFlow then s else s.openBlock s.cursor.column s.tokens.size .blockMapping
      let s ← s.dropKey
      { s with keyAllowed := !s.inFlow }.take .value

/-- Take a token that a key may consist of. -/
def takeNode (s : Lexer) (found : Except Stop (Token × Cursor)) : Except Stop Lexer := do
  let s ← s.saveKey
  let (token, c) ← found
  return { s with cursor := c, keyAllowed := false }.push token

/-- Take a scalar that is a block of lines, which is no key. -/
def takeBlockScalar (s : Lexer) (folded : Bool) : Except Stop Lexer := do
  let s ← s.dropKey
  let (text, c) ← block folded s.indent s.cursor
  return { s with cursor := c, keyAllowed := true }.push (.scalar text false)

/-- Take a plain scalar. Behind a line end a key may begin again. -/
def takePlain (s : Lexer) : Except Stop Lexer := do
  let s ← s.saveKey
  let (text, broken, c) ← plain s.inFlow s.indent s.cursor
  return { s with cursor := c, keyAllowed := broken }.push (.scalar text true)

/-- Whether a character begins a plain scalar, whatever is behind it. -/
def beginsPlain (c : Char) : Bool :=
  !(endsWord [c] || "-?:,[]\x7b\x7d#&*!|>'\"%@`".toList.contains c)

/-- Take the token that begins with a character. -/
def takeToken (s : Lexer) (c : Char) (cs : List Char) : Except Stop Lexer := do
  let flow := s.inFlow
  let lineStart := s.cursor.column = 0
  let mark ← if lineStart && (c = '-' || c = '.') then s.cursor.atDocumentMark else pure false
  if c = '%' && lineStart then s.takeTopLevel (directive s.cursor)
  else if mark then
    let token := if c = '-' then .documentStart else .documentEnd
    s.takeTopLevel (return (token, s.cursor.advanceBy 3))
  else if c = '[' then s.openFlow .flowSequence
  else if c = '{' then s.openFlow .flowMapping
  else if c = ']' then s.closeFlow .flowSequenceEnd
  else if c = '}' then s.closeFlow .flowMappingEnd
  else if c = ',' then s.takeComma
  else if flow && c = '?' then s.takeKey
  else if flow && c = ':' then s.takeValue
  else if c = '*' then s.takeNode ((anchorName s.cursor).map fun (n, c) => (.alias n, c))
  else if c = '&' then s.takeNode ((anchorName s.cursor).map fun (n, c) => (.anchor n, c))
  else if c = '!' then s.takeNode (tag s.cursor)
  else if !flow && (c = '|' || c = '>') then s.takeBlockScalar (c = '>')
  else if c = '\'' || c = '"' then
    s.takeNode ((quoted (c = '"') s.cursor).map fun (text, c) => (.scalar text false, c))
  else if beginsPlain c then s.takePlain
  else
    -- these are told by the character behind them
    s.cursor.need 2
    if endsWord cs then
      if c = '-' then s.takeEntry
      else if c = '?' then s.takeKey
      else if c = ':' then s.takeValue
      else refuse
    else if c = '-' || (!flow && (c = '?' || c = ':')) then s.takePlain
    else refuse

/-- Move to the next token, closing what ends in front of it. -/
def settle (s : Lexer) : Except Stop Lexer := do
  let (broken, cursor) := s.cursor.toContent
  cursor.need 1
  let s := { s with cursor, keyAllowed := s.keyAllowed || (broken && !s.inFlow) }
  let s ← s.dropStale
  return s.unwind s.cursor.column

/-- Take the next token, or end all blocks where the document ends. The flag says whether it does. -/
def step (s : Lexer) : Except Stop (Bool × Lexer) := do
  let s ← s.settle
  match s.cursor.rest with
  | [] => return (true, ← (s.unwind (-1)).dropKey)
  | c :: cs => return (false, ← (← s.takeToken c cs).dropStale)

/-- The tokens of the rest of the document, in at most `fuel` steps. A token that cannot be read stands behind
those that had their place before it. -/
def runWithin : Nat → Lexer → Array Token
  | 0, s => s.tokens
  | fuel + 1, s =>
    match s.step with
    | .error why => (s.tokens.take s.settled).push (.unreadable why)
    | .ok (true, s) => s.tokens
    | .ok (false, s) => runWithin fuel s

end Lexer

/-- The tokens of a document, or of a part of it that is cut off. -/
def tokens (text : List Char) (cut : Bool) : List Token :=
  (Lexer.runWithin (text.length + 1) { cursor := .ofText text cut }).toList

end Chip8.Yaml
