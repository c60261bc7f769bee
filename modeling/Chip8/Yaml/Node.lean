import Chip8.Yaml.Scalar
import Chip8.Yaml.Token

/-!
# Nodes of a document

A document is a graph of scalars, sequences and mappings, each of a kind (`Node`). The nodes are numbered in
the order in which they begin, and collections hold the numbers of their nodes : an alias is the number
of the node of its anchor, which may be the very node that the alias stands in. `Graph.ofTokens`
builds the one document of a token list. A node whose mark stands without anything behind it is empty.

The readers go down one level or on by one entry at each call and take a token at least on the way, so
the number of tokens bounds them. How deep collections may lie in each other is limited beside that
(`Reader.maxDepth`).
-/

namespace Chip8.Yaml

open Text (CodePoint)

/-- A node of a document. -/
inductive Node where
  | scalar (kind : Kind) (text : List CodePoint)
  | sequence (kind : Kind) (items : List Nat)
  | mapping (kind : Kind) (entries : List (Nat × Nat))
deriving Inhabited

/-- The kind of a node. -/
def Node.kind : Node → Kind
  | scalar kind _ | sequence kind _ | mapping kind _ => kind

/-- The number of entries of a mapping. -/
def Node.entryCount : Node → Nat
  | mapping _ entries => entries.length
  | _ => 0

/-- A node as one of another kind. -/
def Node.withKind (kind : Kind) : Node → Node
  | scalar _ text => scalar kind text
  | sequence _ items => sequence kind items
  | mapping _ entries => mapping kind entries

/-- The nodes of a document by their numbers, and the number of the outermost one. -/
structure Graph where
  nodes : Array Node
  root : Nat

/-- What a node is tagged as : not at all, with the mark that leaves it open, or with an address. -/
inductive Tag where
  | none
  | nonSpecific
  | uri (s : String)
deriving DecidableEq

namespace Tag

/-- The kind of a collection. One without an address is of the usual kind. -/
def collectionKind (usual : Kind) : Tag → Kind
  | none | nonSpecific => usual
  | uri s => .ofUri s

/-- The kind of a scalar. One without an address is what it looks like, except that one in quotes and without
any tag is a text. -/
def scalarKind (text : List CodePoint) (plain : Bool) : Tag → Kind
  | none => if plain then .ofPlain text else .text
  | nonSpecific => .ofPlain text
  | uri s => .ofUri s

end Tag

/-- What is known while nodes are read : the tokens left, the nodes so far, the anchors with their nodes, and the
meaning of the tag handles. -/
structure Reading where
  tokens : List Token
  nodes : Array Node := #[]
  anchors : List (String × Nat) := []
  handles : List (String × String) := []
  /-- How many collections are open. -/
  depth : Nat := 0

/-- A reader of nodes, which may fail. -/
abbrev Reader := StateT Reading (Except Stop)

namespace Reader

/-- Give the document up as not well formed. -/
def refuse {α : Type} : Reader α := throw (.error .malformed)

/-- The next token, which has to be readable. -/
def peek : Reader (Option Token) := do
  match (← get).tokens with
  | [] => return none
  | .unreadable why :: _ => throw why
  | t :: _ => return some t

/-- Move past the next token. -/
def skip : Reader Unit := modify fun r => { r with tokens := r.tokens.drop 1 }

/-- Whether the next token is one of some. The end of the document is none. -/
def nextIn (tokens : List Token) : Reader Bool := return (← peek).any tokens.contains

/-- Take a token that has to be next. -/
def expect (t : Token) : Reader Unit := do
  if (← peek) = some t then skip else refuse

/-- The name of an anchor, if one is next. -/
def anchor : Reader (Option String) := do
  match ← peek with
  | some (.anchor name) => skip; return some name
  | _ => return none

/-- The handle of a tag and the rest of it, if one is next. -/
def tagParts : Reader (Option (Option String × String)) := do
  match ← peek with
  | some (.tag handle suffix) => skip; return some (handle, suffix)
  | _ => return none

/-- The tag of a handle and the rest. -/
def tag : Option (Option String × String) → Reader Tag
  | none => return .none
  | some (none, suffix) => return if suffix = "!" then .nonSpecific else .uri suffix
  | some (some handle, suffix) => do
    match (← get).handles.lookup handle with
    | some uri => return .uri (uri ++ suffix)
    | none => refuse

/-- The anchor and the tag in front of a node, in either order. -/
def properties : Reader (Option String × Tag) := do
  match ← anchor with
  | some name => return (some name, ← tag (← tagParts))
  | none =>
    match ← tagParts with
    | none => return (none, .none)
    | some parts =>
      let name ← anchor
      return (name, ← tag (some parts))

/-- The number of a new node, known under its anchor from now on. -/
def reserve (anchor : Option String) : Reader Nat := do
  let known := (← get).anchors
  if anchor.any fun name => (known.lookup name).isSome then refuse
  modifyGet fun r =>
    let id := r.nodes.size
    (id, { r with
      nodes := r.nodes.push default
      anchors := (anchor.map (·, id)).toList ++ r.anchors })

/-- Say what a node holds. -/
def fill (id : Nat) (node : Node) : Reader Unit :=
  modify fun r => { r with nodes := r.nodes.setIfInBounds id node }

/-- How many collections may be open. -/
def maxDepth : Nat := 489

/-- Read what is inside a collection. -/
def inside {α : Type} (content : Reader α) : Reader α := do
  let depth := (← get).depth
  if depth = maxDepth then throw (.error (.scalar .endless))
  modify fun r => { r with depth := depth + 1 }
  let a ← content
  modify fun r => { r with depth }
  return a

/-- The node that stands where nothing is written. -/
def empty : Reader Nat := do
  let id ← reserve none
  fill id (.scalar (.ofPlain []) [])
  return id

/-- The node of an alias. -/
def aliased (name : String) : Reader Nat := do
  match (← get).anchors.lookup name with
  | some id => return id
  | none => refuse

mutual

/-- A node. A block collection may begin only where `block` says so, and the entries of a sequence may
stand without an indentation of their own where `entries` says so. -/
def node (fuel : Nat) (block entries : Bool) : Reader Nat := do
  match fuel with
  | 0 => refuse
  | fuel + 1 =>
    match ← peek with
    | some (.alias name) => skip; aliased name
    | _ =>
      let (anchor, tag) ← properties
      content fuel block entries anchor tag

/-- A node behind its anchor and tag. With one of them it may be empty. -/
def content (fuel : Nat) (block entries : Bool) (anchor : Option String) (tag : Tag) :
    Reader Nat := do
  match fuel with
  | 0 => refuse
  | fuel + 1 =>
    let next ← peek
    let id ← reserve anchor
    match next with
    | some (.scalar text plain) => skip; fill id (.scalar (tag.scalarKind text plain) text)
    | some .flowSequence =>
      skip; fill id (.sequence (tag.collectionKind .sequence) (← inside (flowItems fuel true)))
    | some .flowMapping =>
      skip; fill id (.mapping (tag.collectionKind .mapping) (← inside (flowEntries fuel true)))
    | _ =>
      if entries ∧ next = some .blockEntry then
        fill id (.sequence (tag.collectionKind .sequence) (← inside (looseItems fuel)))
      else if block ∧ next = some .blockSequence then
        skip; fill id (.sequence (tag.collectionKind .sequence) (← inside (blockItems fuel)))
      else if block ∧ next = some .blockMapping then
        skip; fill id (.mapping (tag.collectionKind .mapping) (← inside (blockEntries fuel)))
      else if anchor.isSome ∨ tag ≠ .none then fill id (.scalar (tag.scalarKind [] true) [])
      else refuse
    return id

/-- A node, or an empty one in front of some tokens. -/
def nodeUnless (fuel : Nat) (block entries : Bool) (enders : List Token) : Reader Nat := do
  match fuel with
  | 0 => refuse
  | fuel + 1 => if ← nextIn enders then empty else node fuel block entries

/-- The value behind a key, empty without its mark or in front of some tokens. -/
def valueUnless (fuel : Nat) (block : Bool) (enders : List Token) : Reader Nat := do
  match fuel with
  | 0 => refuse
  | fuel + 1 =>
    if (← peek) = some .value then
      skip
      nodeUnless fuel block block enders
    else empty

/-- The items of a block sequence up to its end. -/
def blockItems (fuel : Nat) : Reader (List Nat) := do
  match fuel with
  | 0 => refuse
  | fuel + 1 =>
    if (← peek) = some .blockEntry then
      skip
      let item ← nodeUnless fuel true false [.blockEntry, .blockEnd]
      return item :: (← blockItems fuel)
    else
      expect .blockEnd
      return []

/-- The items of a sequence that has no indentation of its own. -/
def looseItems (fuel : Nat) : Reader (List Nat) := do
  match fuel with
  | 0 => refuse
  | fuel + 1 =>
    if (← peek) = some .blockEntry then
      skip
      let item ← nodeUnless fuel true false [.blockEntry, .key, .value, .blockEnd]
      return item :: (← looseItems fuel)
    else return []

/-- The entries of a block mapping up to its end. -/
def blockEntries (fuel : Nat) : Reader (List (Nat × Nat)) := do
  match fuel with
  | 0 => refuse
  | fuel + 1 =>
    if (← peek) = some .key then
      skip
      let key ← nodeUnless fuel true true [.key, .value, .blockEnd]
      let value ← valueUnless fuel true [.key, .value, .blockEnd]
      return (key, value) :: (← blockEntries fuel)
    else
      expect .blockEnd
      return []

/-- The items of a flow sequence up to its end. A key among them makes a mapping of one entry. -/
def flowItems (fuel : Nat) (first : Bool) : Reader (List Nat) := do
  match fuel with
  | 0 => refuse
  | fuel + 1 =>
    if (← peek) = some .flowSequenceEnd then skip; return []
    else
      if !first then expect .flowEntry
      match ← peek with
      | some .flowSequenceEnd => skip; return []
      | some .key =>
        skip
        let item ← reserve none
        let key ← inside (nodeUnless fuel false false [.value, .flowEntry, .flowSequenceEnd])
        let value ← inside (valueUnless fuel false [.flowEntry, .flowSequenceEnd])
        fill item (.mapping .mapping [(key, value)])
        return item :: (← flowItems fuel false)
      | _ =>
        let item ← node fuel false false
        return item :: (← flowItems fuel false)

/-- The entries of a flow mapping up to its end. A node without a mark is a key without a value. -/
def flowEntries (fuel : Nat) (first : Bool) : Reader (List (Nat × Nat)) := do
  match fuel with
  | 0 => refuse
  | fuel + 1 =>
    if (← peek) = some .flowMappingEnd then skip; return []
    else
      if !first then expect .flowEntry
      match ← peek with
      | some .flowMappingEnd => skip; return []
      | some .key =>
        skip
        let key ← nodeUnless fuel false false [.value, .flowEntry, .flowMappingEnd]
        let value ← valueUnless fuel false [.flowEntry, .flowMappingEnd]
        return (key, value) :: (← flowEntries fuel false)
      | _ =>
        let key ← node fuel false false
        let value ← empty
        return (key, value) :: (← flowEntries fuel false)

end

/-- The tag handles that every document has. -/
def standardHandles : List (String × String) :=
  [("!", "!"), ("!!", "tag:yaml.org,2002:")]

/-- Take the directives in front of a document. The answer is the handles they give. -/
def directives (fuel : Nat) (versioned : Bool) (handles : List (String × String)) :
    Reader (List (String × String)) := do
  match fuel with
  | 0 => refuse
  | fuel + 1 =>
    match ← peek with
    | some (.version major _) =>
      skip
      if versioned ∨ major ≠ 1 then refuse else directives fuel true handles
    | some (.handle name uri) =>
      skip
      if (handles.lookup name).isSome then refuse
      else directives fuel versioned ((name, uri) :: handles)
    | some .directive => skip; directives fuel versioned handles
    | _ => return handles

/-- Whether a token begins an explicit document. -/
def beginsExplicit : Token → Bool
  | .version .. | .handle .. | .directive | .documentStart => true
  | _ => false

/-- Take the marks that end a document. -/
def endMarks (fuel : Nat) : Reader Unit := do
  match fuel with
  | 0 => return
  | fuel + 1 => if (← peek) = some .documentEnd then skip; endMarks fuel

/-- The end of the text, behind marks of the end. Whatever else is there is refused, a second document at its
beginning. -/
def finish (fuel : Nat) : Reader Unit := do
  endMarks fuel
  if (← peek).isSome then
    let _ ← directives fuel false []
    expect .documentStart
    refuse

/-- The outermost node of the one document, or none. -/
def document : Reader (Option Nat) := do
  let fuel := 4 * (← get).tokens.length + 4
  match ← peek with
  | none => return none
  | some t =>
    let explicit := beginsExplicit t
    let handles ← if explicit then directives fuel false [] else pure []
    modify fun r => { r with handles := handles ++ standardHandles }
    if explicit then expect .documentStart
    let root ←
      match ← peek with
      | none => empty
      | some u =>
        if explicit ∧ (beginsExplicit u ∨ u = .documentEnd) then empty else node fuel true false
    finish fuel
    return some root

end Reader

/-- The one document of a token list, or none in an empty one. -/
def Graph.ofTokens (tokens : List Token) : Except Stop (Option Graph) := do
  let (root, r) ← Reader.document.run { tokens }
  return root.map fun root => { nodes := r.nodes, root }

end Chip8.Yaml
