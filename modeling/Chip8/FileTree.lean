/-!
# A tree of files

The files and directories that a program can see, each at its place from the root, and the working
directory. `FileTree.find` follows a path as the system does : a name is looked up in a directory, `.`
stays and `..` goes up one. A path for a new file is cut short first, so that `..` cancels the name in front
of it, whatever that is (`FileTree.create`). Neither a path nor a name in it may be too long.
-/

namespace Chip8

/-- What a place holds. -/
inductive FileEntry where
  | file (bytes : List UInt8)
  | directory

/-- The names on the way to a file, from the root. -/
abbrev Location := List String

/-- Files and directories by their places. -/
structure FileTree where
  entries : List (Location × FileEntry) := []
  /-- The working directory. -/
  home : Location := []

/-- Why a file cannot be opened. -/
inductive FileError where
  | notFound
  | isDirectory
  | notDirectory
  /-- The path or a name in it has too many bytes. -/
  | nameTooLong
deriving DecidableEq

namespace FileTree

/-- What is at a place. The working directory, and what it lies in, are directories. -/
def entry? (t : FileTree) (place : Location) : Option FileEntry :=
  if place.isPrefixOf t.home then some .directory else t.entries.lookup place

/-- Put an entry at a place, over what is there. -/
def put (t : FileTree) (place : Location) (e : FileEntry) : FileTree :=
  if (t.entries.lookup place).isSome then
    { t with entries := t.entries.map fun (p, old) => (p, if p = place then e else old) }
  else { t with entries := t.entries ++ [(place, e)] }

/-- The names of a path. -/
def names (path : String) : List String := (path.splitOn "/").filter fun n => n ≠ "" ∧ n ≠ "."

/-- Where a path begins. -/
def start (t : FileTree) (path : String) : Location := if path.startsWith "/" then [] else t.home

/-- The most bytes of a name. -/
def maxName : Nat := 255

/-- The most bytes of a path. -/
def maxPath : Nat := 4095

/-- Refuse names that make a path too long, behind a root if it has one. -/
def checkLength (root : String) (names : List String) : Except FileError Unit :=
  if maxPath < (root ++ "/".intercalate names).utf8ByteSize then .error .nameTooLong else .ok ()

/-- What is at a place in a directory, whose name may be too long. -/
def lookup (t : FileTree) (place : Location) : Except FileError FileEntry :=
  if maxName < (place.getLastD "").utf8ByteSize then .error .nameTooLong
  else
    match t.entry? place with
    | some e => .ok e
    | none => .error .notFound

/-- What is behind some names, from an entry whose place is given from the innermost name outwards. -/
def follow (t : FileTree) (place : Location) (e : FileEntry) : List String → Except FileError FileEntry
  | [] => .ok e
  | name :: rest =>
    match e with
    | .file _ => .error .notFound
    | .directory =>
      if name = ".." then t.follow place.tail .directory rest
      else
        match t.lookup (name :: place).reverse with
        | .ok e => t.follow (name :: place) e rest
        | .error e => .error e

/-- What is at the end of a path. -/
def find (t : FileTree) (path : String) : Except FileError FileEntry := do
  checkLength (if path.startsWith "/" then "/" else "") (names path)
  t.follow (t.start path).reverse .directory (names path)

/-- The bytes of a file. -/
def read (t : FileTree) (path : String) : Except FileError (List UInt8) := do
  match ← t.find path with
  | .file bytes => return bytes
  | .directory => throw .isDirectory

/-- Whether a path can only lead to a directory : it ends with a slash, or with a dot for a name. -/
def wantsDirectory (path : String) : Bool := ["", "."].contains ((path.splitOn "/").getLastD "")

/-- The bytes of a file whose path is taken as it stands. -/
def readExact (t : FileTree) (path : String) : Except FileError (List UInt8) :=
  match t.read path with
  | .ok bytes => if wantsDirectory path then .error .notDirectory else .ok bytes
  | .error e => .error e

/-- The place behind some names, each `..` of which cancels the name in front. The place they begin at is given
from the innermost name outwards. -/
def place (base : Location) : List String → Location
  | [] => base.reverse
  | name :: rest => if name = ".." then place base.tail rest else place (name :: base) rest

/-- Go down some names from a directory, all of them directories. -/
def enter (t : FileTree) (place : Location) : List String → Except FileError Unit
  | [] => .ok ()
  | name :: rest =>
    match t.lookup (place ++ [name]) with
    | .ok .directory => t.enter (place ++ [name]) rest
    | .ok (.file _) => .error .notDirectory
    | .error e => .error e

/-- Make an empty file, over what was there. The answer has its place. -/
def create (t : FileTree) (path : String) : Except FileError (Location × FileTree) := do
  let place := place (t.start path).reverse (names path)
  checkLength "/" place
  t.enter [] place.dropLast
  match t.lookup place with
  | .ok .directory => throw .isDirectory
  | .error .nameTooLong => throw .nameTooLong
  | _ => return (place, t.put place (.file []))

/-- Add bytes to the end of a file. -/
def append (t : FileTree) (place : Location) (bytes : List UInt8) : FileTree :=
  match t.entry? place with
  | some (.file old) => t.put place (.file (old ++ bytes))
  | _ => t

end FileTree

end Chip8
