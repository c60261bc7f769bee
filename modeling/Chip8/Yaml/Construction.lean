import Chip8.Yaml.Node

/-!
# From nodes to values

The nodes of a graph are built from the outermost one inwards. A scalar is read when it is met, but a collection
is only noted down then and filled in later, when those met before it have been. So of two nodes that cannot be
built the one nearer to the outermost node is the error, and a collection may hold itself. When all are
filled in, the values are put together (`Graph.value`).

The key `<<` of a mapping merges the entries of its value, which stand in front of the mapping's own. The key `=`
is a text, but a mapping that is built as a scalar is the value behind it.
-/

namespace Chip8.Yaml

open Text (CodePoint)

/-- What a node has been built as. A collection holds the numbers of nodes. -/
inductive Built where
  /-- A scalar, and whether it is the undefined number under its own name, of which there is only one. -/
  | scalar (v : Value) (named : Bool)
  | list (items : List Nat)
  | map (entries : List (Nat × Nat))
  | set (keys : List Nat)
  /-- A list of entries. -/
  | pairs (entries : List (Nat × Nat))

namespace Kind

/-- What a collection of a kind is built as when it is met. -/
def empty? : Kind → Option Built
  | sequence => some (.list [])
  | mapping => some (.map [])
  | set => some (.set [])
  | orderedMap | pairs => some (.pairs [])
  | _ => none

/-- Whether nothing is built as the kind. -/
def isUnknown : Kind → Bool
  | merge | default | other => true
  | _ => false

end Kind

/-- A graph while it is built : what the nodes met so far are, and the collections among them in the order
they were met in. -/
structure Building where
  nodes : Array Node
  built : Array (Option Built)
  met : Array Nat := #[]
  /-- The number of the entries of all mappings. -/
  entryCount : Nat

/-- A builder of nodes, which may fail. -/
abbrev Builder := StateT Building (Except Error)

namespace Builder

/-- Give the document up as not well formed. -/
def refuse {α : Type} : Builder α := throw .malformed

/-- The node of a number. -/
def node (id : Nat) : Builder Node := return (← get).nodes.getD id default

/-- What a node has been built as. -/
def built? (id : Nat) : Builder (Option Built) := return (← get).built.getD id none

/-- Say what a node is built as. -/
def setBuilt (id : Nat) (b : Built) : Builder Unit :=
  modify fun s => { s with built := s.built.setIfInBounds id (some b) }

/-- Put another node in the place of one. -/
def setNode (id : Nat) (n : Node) : Builder Unit :=
  modify fun s => { s with nodes := s.nodes.setIfInBounds id n }

/-- The text of a scalar, or of the default value of a mapping, at most `fuel` mappings deep. -/
def text (fuel : Nat) (id : Nat) : Builder (List CodePoint) := do
  match fuel with
  | 0 => throw (.scalar .endless)
  | fuel + 1 =>
    match ← node id with
    | .scalar _ text => return text
    | .sequence .. => refuse
    | .mapping _ entries =>
      match ← entries.findM? fun e => return (← node e.1).kind = .default with
      | some (_, value) => text fuel value
      | none => refuse

/-- Read a node as a scalar of its kind. -/
def readScalar (id : Nat) : Builder Built := do
  let n ← node id
  if n.kind.isUnknown then refuse
  let text ← text ((← get).nodes.size + 1) id
  match n with
  | .mapping .timestamp _ => throw (.scalar .momentOfMapping)
  | _ =>
    match n.kind.read? text with
    | some (.ok v) => return .scalar v (n.kind = .float && Scalar.namesUndefined text)
    | some (.error e) => throw (.scalar e)
    | none => refuse

/-- Build a node, unless it has been met before. -/
def build (id : Nat) : Builder Unit := do
  if (← built? id).isNone then
    match (← node id).kind.empty? with
    | some b =>
      setBuilt id b
      modify fun s => { s with met := s.met.push id }
    | none => setBuilt id (← readScalar id)

/-! ## Entries -/

/-- The value of the first entry that merges, and the other entries. -/
def takeMerge? (entries : List (Nat × Nat)) : Builder (Option (Nat × List (Nat × Nat))) := do
  let nodes := (← get).nodes
  let (own, rest) := entries.span fun e => (nodes.getD e.1 default).kind ≠ .merge
  return rest.head?.map fun e => (e.2, own ++ rest.drop 1)

/-- Make a key of a default value a text. -/
def makeText (key : Nat) : Builder Unit := do
  let n ← node key
  if n.kind = .default then setNode key (n.withKind .text)

/-- The entries of a mapping behind those that it merges, of which `merged` have been found. Each call takes one
more of the merging entries out of the graph, so their number bounds the calls. -/
def flatten (fuel : Nat) (merged : List (Nat × Nat)) (id : Nat) : Builder (List (Nat × Nat)) := do
  match fuel, ← node id with
  | fuel + 1, .mapping kind entries =>
    match ← takeMerge? entries with
    | some (value, rest) =>
      setNode id (.mapping kind rest)
      let more ←
        match ← node value with
        | .mapping .. => flatten fuel [] value
        -- the first of several mappings has the last word
        | .sequence _ items => pure (← items.mapM (flatten fuel [])).reverse.flatten
        | .scalar .. => refuse
      flatten fuel (merged ++ more) id
    | none =>
      entries.forM fun e => makeText e.1
      setNode id (.mapping kind (merged ++ entries))
      return merged ++ entries
  | _, _ => refuse

/-- Whether two nodes are the same key. -/
def sameKey (s : Building) (a b : Nat) : Bool :=
  a == b ||
    match s.built.getD a none, s.built.getD b none with
    | some (.scalar x xNamed), some (.scalar y yNamed) => (xNamed && yNamed) || x.sameKey y
    | _, _ => false

/-- Entries with a key set to a value. A key that is there keeps its place. -/
def setEntry (s : Building) (key value : Nat) : List (Nat × Nat) → List (Nat × Nat)
  | [] => [(key, value)]
  | (k, v) :: rest =>
    if sameKey s k key then (k, value) :: rest else (k, v) :: setEntry s key value rest

/-- Build an entry behind others. A key has to be a scalar. -/
def buildEntry (entries : List (Nat × Nat)) (entry : Nat × Nat) : Builder (List (Nat × Nat)) := do
  let (key, value) := entry
  build key
  match ← built? key with
  | some (.scalar ..) =>
    build value
    return setEntry (← get) key value entries
  | _ => refuse

/-- Build the entries of a mapping. -/
def buildEntries (id : Nat) : Builder (List (Nat × Nat)) := do
  let entries ← flatten ((← get).entryCount + 1) [] id
  entries.foldlM buildEntry []

/-- Build the one entry of a mapping in a list of entries. -/
def buildPair (id : Nat) : Builder (Nat × Nat) := do
  match ← node id with
  | .mapping _ [(key, value)] =>
    build key
    build value
    return (key, value)
  | _ => refuse

/-- Fill in a collection. -/
def complete (id : Nat) : Builder Unit := do
  let n ← node id
  match n.kind, n with
  | .sequence, .sequence _ items =>
    items.forM build
    setBuilt id (.list items)
  | .mapping, .mapping .. => setBuilt id (.map (← buildEntries id))
  | .set, .mapping .. => setBuilt id (.set ((← buildEntries id).map Prod.fst))
  | .orderedMap, .sequence _ items | .pairs, .sequence _ items =>
    setBuilt id (.pairs (← items.mapM buildPair))
  | _, _ => refuse

/-- Fill in the collections in the order they are met in, from the one of a place on. -/
def completeFrom (fuel : Nat) (place : Nat) : Builder Unit := do
  match fuel with
  | 0 => return
  | fuel + 1 =>
    match (← get).met[place]? with
    | some id =>
      complete id
      completeFrom fuel (place + 1)
    | none => return

end Builder

/-! ## Values -/

/-- The values of nodes that are known. -/
abbrev Known := Array (Option Value)

namespace Built

/-- The value that stands for a collection inside itself. -/
def stub : Built → Value
  | scalar v _ => v
  | list _ | pairs _ => .list []
  | map _ => .map []
  | set _ => .set []

/-- The value of a node, at most `fuel` levels deep. A collection inside itself is empty there. -/
def value (built : Array (Option Built)) (fuel : Nat) (id : Nat) : StateM Known Value := do
  match fuel, (← get).getD id none, built.getD id none with
  | 0, _, _ | _, _, none => return .null
  | _, some v, _ => return v
  | fuel + 1, none, some b =>
    modify (·.setIfInBounds id (some b.stub))
    let entry (e : Nat × Nat) : StateM Known (Value × Value) :=
      return (← value built fuel e.1, ← value built fuel e.2)
    let v ←
      match b with
      | .scalar v _ => pure v
      | .list items => pure (.list (← items.mapM (value built fuel)))
      | .map entries => pure (.map (← entries.mapM entry))
      | .set keys => pure (.set (← keys.mapM (value built fuel)))
      | .pairs entries => pure (.list ((← entries.mapM entry).map fun e => .list [e.1, e.2]))
    modify (·.setIfInBounds id (some v))
    return v

end Built

/-- The value of a graph. -/
def Graph.value (g : Graph) : Except Error Value := do
  let size := g.nodes.size
  let start : Building := {
    nodes := g.nodes
    built := Array.replicate size none
    entryCount := g.nodes.foldl (fun n node => n + node.entryCount) 0 }
  let ((), s) ← (do Builder.build g.root; Builder.completeFrom size 0 : Builder Unit).run start
  return ((Built.value s.built (size + 1) g.root).run (Array.replicate size none)).1

end Chip8.Yaml
