import Chip8.Text.Digit

/-!
# Command-line options

The words of a command line : one program, and options that may stand anywhere. An option's name may be cut
short as long as no other name begins like that, and its argument may follow behind an equals sign.
Behind `--` every word is a program.
-/

namespace Chip8.Command

/-- The options by name. -/
inductive Name where
  | help
  | keySchedule
  | config
  | debug
  | logfile
  | console
deriving DecidableEq

/-- The options by their names. -/
def Name.all : List (String × Name) :=
  [("--help", .help), ("--key-schedule", .keySchedule), ("--config", .config), ("--debug", .debug),
    ("--logfile", .logfile), ("--console", .console)]

/-- Whether an option has an argument. -/
def Name.takesArgument : Name → Bool
  | keySchedule | config | logfile => true
  | help | debug | console => false

/-- What a word is. -/
inductive Word where
  /-- A program, or the argument of an option. -/
  | plain (s : String)
  /-- A known option, with the argument behind an equals sign. -/
  | option (name : Name) (argument : Option String)
  | unknown
  /-- The mark that ends the options. -/
  | stop
deriving DecidableEq

/-- What a command line asks for. -/
structure Options where
  program : String
  keySchedule : Option String := none
  config : Option String := none
  debug : Bool := false
  logfile : String := "processor.log"
  console : Bool := false
deriving DecidableEq

/-- What a command line comes to without a run. -/
inductive Refusal where
  | usage
  | help
deriving DecidableEq

/-- Whether a character is a decimal digit of any script. -/
def isDigit (c : Char) : Bool := (Text.decimalValue? c).isSome

/-- Whether a word is a negative number, which a line feed may end. -/
def isNegativeNumber (cs : List Char) : Bool :=
  match cs with
  | '-' :: ds =>
    let ds := if ds.getLast? = some '\n' then ds.dropLast else ds
    let whole := ds.takeWhile isDigit
    match ds.drop whole.length with
    | [] => whole ≠ []
    | '.' :: part => part ≠ [] && part.all isDigit
    | _ => false
  | _ => false

/-- The help option, from the letters behind its own. More of the same letter change nothing, a dash or an
equals sign makes them an argument, and any other letter is not looked at. -/
def helpLetters : List Char → Word
  | 'h' :: rest => helpLetters rest
  | '-' :: rest | '=' :: rest => .option .help (some (String.ofList rest))
  | _ => .option .help none

/-- A word in front of and behind its first equals sign. -/
def splitArgument (cs : List Char) : String × Option String :=
  let name := cs.takeWhile (· ≠ '=')
  (String.ofList name, match cs.drop name.length with
    | _ :: argument => some (String.ofList argument)
    | [] => none)

/-- What a word that begins with a dash is. Two names that begin like it make it none. -/
def dashed? (s : String) : Except Refusal Word :=
  let (name, argument) := splitArgument s.toList
  let candidates := Name.all.filter fun (full, _) => full.startsWith name
  match Name.all.lookup s, Name.all.lookup name with
  | some n, _ => .ok (.option n none)
  | none, some n => .ok (.option n argument)
  | none, none =>
    match s.toList, candidates with
    | '-' :: 'h' :: letters, _ => .ok (helpLetters letters)
    | '-' :: '-' :: _, [(_, n)] => .ok (.option n argument)
    | '-' :: '-' :: _, _ :: _ :: _ => .error .usage
    | cs, _ => .ok (if isNegativeNumber cs || cs.contains ' ' then .plain s else .unknown)

/-- What the words of a command line are. -/
def classify : List String → Except Refusal (List Word)
  | [] => .ok []
  | "--" :: rest => .ok (.stop :: rest.map .plain)
  | s :: rest => do
    let word ← if s.startsWith "-" && s ≠ "-" then dashed? s else .ok (.plain s)
    return word :: (← classify rest)

/-- What has been read of a command line. A word too many is refused at the end. -/
structure Reading where
  program : Option String := none
  options : Options := { program := "" }
  tooMany : Bool := false

/-- Take an option without an argument, or with one. -/
def Reading.set (r : Reading) (name : Name) (argument : String) : Reading :=
  let o := r.options
  { r with
    options := match name with
      | .help => o
      | .keySchedule => { o with keySchedule := some argument }
      | .config => { o with config := some argument }
      | .debug => { o with debug := true }
      | .logfile => { o with logfile := argument }
      | .console => { o with console := true } }

/-- Read the words one after another. The first plain word is the program, with the mark next to it. -/
def Reading.run (r : Reading) : List Word → Except Refusal Reading
  | [] => .ok r
  | .plain s :: .stop :: rest =>
    if r.program.isNone then { r with program := some s }.run rest
    else { r with tooMany := true }.run (.stop :: rest)
  | .plain s :: rest =>
    if r.program.isNone then { r with program := some s }.run rest
    else { r with tooMany := true }.run rest
  | .stop :: rest =>
    if r.program.isNone then r.run rest else { r with tooMany := true }.run rest
  | .unknown :: rest => { r with tooMany := true }.run rest
  | .option name argument :: rest =>
    match name.takesArgument, argument with
    | true, some a => (r.set name a).run rest
    | true, none =>
      match rest with
      | .plain a :: rest => (r.set name a).run rest
      | _ => .error .usage
    | false, some _ => .error .usage
    | false, none => if name = .help then .error .help else (r.set name "").run rest

/-- Read a command line. -/
def Options.ofWords (words : List String) : Except Refusal Options := do
  let r ← Reading.run {} (← classify words)
  match r.program with
  | none => throw .usage
  | some program => if r.tooMany then throw .usage else return { r.options with program }

end Chip8.Command
