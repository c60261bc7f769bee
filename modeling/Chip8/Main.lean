import Chip8.Command.Session

/-!
# The program

The command line over the files of the system. What a session can reach is read before it (`Console.snapshot`),
the session is computed (`Command.run`), and the files that it changed are written after it
(`Console.commit`).
-/

namespace Chip8

namespace Console

/-- A place as a path of the system. -/
def path (place : Location) : String := "/" ++ "/".intercalate place

/-- Add what the system has at a place. What is there and cannot be read as a file is a directory. -/
def probe (t : FileTree) (place : Location) : IO FileTree := do
  if (t.entry? place).isSome then return t
  match ← (IO.FS.readBinFile (path place)).toBaseIO with
  | .ok bytes => return t.put place (.file bytes.toList)
  | .error (.noFileOrDirectory ..) => return t
  | .error _ => return t.put place .directory

/-- Add what lies on the way along some names, from a place given from the innermost name outwards. -/
def probeNames (t : FileTree) (place : Location) : List String → IO FileTree
  | [] => return t
  | name :: rest => do
    let place := if name = ".." then place.tail else name :: place
    let t ← probe t place.reverse
    match t.entry? place.reverse with
    | some .directory => probeNames t place rest
    | _ => return t

/-- Add what lies on the way along a path. -/
def probePath (t : FileTree) (path : String) : IO FileTree :=
  probeNames t (t.start path).reverse (FileTree.names path)

/-- The files that a session with some options can reach. -/
def snapshot (o : Command.Options) : IO FileTree := do
  let t : FileTree := { home := FileTree.names (← IO.currentDir).toString }
  let t ← probePath t o.program
  let t ← probePath t (o.config.getD "")
  let t ← probePath t (o.keySchedule.getD "")
  probeNames t [] (FileTree.place (t.start o.logfile).reverse (FileTree.names o.logfile))

/-- Write the files of a tree that another one has not, or has with other bytes. -/
def commit (old new : FileTree) : IO Unit :=
  new.entries.forM fun (place, entry) =>
    match entry, old.entry? place with
    | .directory, _ => return
    | .file bytes, some (.file before) =>
      if bytes = before then return else IO.FS.writeBinFile (path place) ⟨bytes.toArray⟩
    | .file bytes, _ => IO.FS.writeBinFile (path place) ⟨bytes.toArray⟩

/-- The forms of the command line. -/
def usage : String :=
  "usage: [-h] [--key-schedule FILE] [--config FILE] [--debug] [--logfile FILE] [--console] PROGRAM"

/-- What is said of a session that ends without an exit status. -/
def crashText : Command.Crash → String
  | .file .notFound => "no such file or directory"
  | .file .isDirectory => "is a directory"
  | .file .notDirectory => "not a directory"
  | .file .nameTooLong => "file name too long"
  | .config e => e.message
  | .frame e => e.message

/-- Run a command line and answer with its exit status. -/
def run (words : List String) : IO UInt32 := do
  match Command.Options.ofWords words with
  | .error .help =>
    IO.println usage
    return 0
  | .error .usage =>
    IO.eprintln usage
    return 2
  | .ok options =>
    let files ← snapshot options
    let outcome := Command.run files words
    commit files outcome.files
    IO.print outcome.output
    match outcome.ending with
    | .ok status => return status.toUInt32
    | .error crash =>
      IO.eprintln (crashText crash)
      return 1

end Console

end Chip8

/-- The program. -/
def main (words : List String) : IO UInt32 := Chip8.Console.run words
