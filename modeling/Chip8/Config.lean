import Chip8.FileTree
import Chip8.Text.Utf8
import Chip8.Yaml.Document

/-!
# Configuration

The settings of a run, as a user gives them : a mapping laid over the defaults, or a file that holds one. The
numbers are read from whatever value stands for them, in a fixed order, and then their ranges are
checked (`Config.ofEntries`). What else the mapping holds is kept (`Config.extra`).

`Config.entries` turns a configuration into a mapping again.
-/

namespace Chip8

/-- The settings of a run, and what else the mapping held. -/
structure Config where
  cyclesPerFrame : Int := 15
  tickLimit : Int := 100000
  pauseTick : Option Int := none
  seed : Option Int := none
  lenientLog : Bool := false
  extra : List (Value × Value) := []

namespace Config

/-- Why there is no configuration. -/
inductive Error where
  /-- A value that is no integer. -/
  | conversion (e : IntError)
  | cyclesPerFrame
  | tickLimit
  | pauseTick
  | lenientLog
  /-- Neither nothing nor a mapping nor the path of a file. -/
  | unsupported
  | notFound (path : String)
  /-- The path is too long. -/
  | pathTooLong
  /-- A file that cannot be read as a document. -/
  | unreadable (path : String)
  /-- A document that is no mapping. -/
  | notMapping (path : String)
  /-- A file that is no text. -/
  | undecodable
  /-- A scalar of the document that is not what it is marked as. -/
  | scalar (e : Yaml.ScalarError)
deriving DecidableEq

namespace Error

/-- Whether the error is one of the configuration. The others come from further below and are not taken
in charge. -/
def isReported : Error → Bool
  | conversion .infinite | pathTooLong | undecodable | scalar _ => false
  | _ => true

/-- The text of an error. -/
def message : Error → String
  | conversion .infinite => IntError.infinite.message
  | conversion e => "Bad types in config: " ++ e.message
  | cyclesPerFrame => "cycles_per_frame must be positive"
  | tickLimit => "tick_limit must be positive"
  | pauseTick => "pause_tick must be non-negative or null"
  | lenientLog => "lenient_log must be boolean"
  | unsupported => "Unsupported config input"
  | notFound path => "Config file not found: " ++ path
  | pathTooLong => "file name too long"
  | unreadable path => "Failed to load config file " ++ path
  | notMapping path => "Config file " ++ path ++ " does not contain a mapping"
  | undecodable => "'utf-8' codec error"
  | scalar e => e.message

end Error

/-- The names of the settings. -/
def settingNames : List String :=
  ["cycles_per_frame", "tick_limit", "pause_tick", "seed", "lenient_log"]

/-- Whether a key names a setting. -/
def isSetting (key : Value) : Bool := settingNames.any fun name => key.sameKey (.text name)

/-- The integer that a mapping gives a setting. -/
def intSetting (entries : List (Value × Value)) (name : String) (default : Int) :
    Except Error Int :=
  match Value.lookup? entries name with
  | none => .ok default
  | some v => v.toInt.mapError .conversion

/-- The integer, or the empty value, that a mapping gives a setting. -/
def optionalSetting (entries : List (Value × Value)) (name : String) : Except Error (Option Int) :=
  match Value.lookup? entries name with
  | none | some .null => .ok none
  | some v => (v.toInt.map some).mapError .conversion

/-- The truth value that a mapping gives a setting. -/
def boolSetting (entries : List (Value × Value)) (name : String) : Except Error Bool :=
  match Value.lookup? entries name with
  | none => .ok false
  | some (.bool b) => .ok b
  | some _ => .error .lenientLog

/-- The configuration that a mapping gives. -/
def ofEntries (entries : List (Value × Value)) : Except Error Config := do
  let cyclesPerFrame ← intSetting entries "cycles_per_frame" 15
  let tickLimit ← intSetting entries "tick_limit" 100000
  let pauseTick ← optionalSetting entries "pause_tick"
  let seed ← optionalSetting entries "seed"
  if cyclesPerFrame ≤ 0 then throw .cyclesPerFrame
  if tickLimit ≤ 0 then throw .tickLimit
  if pauseTick.any (· < 0) then throw .pauseTick
  let lenientLog ← boolSetting entries "lenient_log"
  let extra := entries.filter fun e => !isSetting e.1
  return { cyclesPerFrame, tickLimit, pauseTick, seed, lenientLog, extra }

/-- Why a file gives no configuration, if its document has no value. -/
def Error.ofDocument (path : String) : Yaml.Error → Error
  | .malformed => .unreadable path
  | .scalar e => .scalar e

/-- Why a file gives no configuration, if its bytes are no text. The document may be refused before that shows. -/
def Error.ofBytes (path : String) (bytes : List UInt8) : Error :=
  ((Yaml.Document.errorBefore? bytes).map (ofDocument path)).getD .undecodable

/-- The configuration that the text of a file gives. A document that is empty or counts as no is an empty
mapping. -/
def ofText (path : String) (text : String) : Except Error Config :=
  match Yaml.Document.read text.toList with
  | .error e => .error (.ofDocument path e)
  | .ok v =>
    if !v.truthy then ofEntries []
    else
      match v with
      | .map entries => ofEntries entries
      | _ => .error (.notMapping path)

/-- The configuration that a file gives. -/
def ofFile (files : FileTree) (path : String) : Except Error Config :=
  match files.read path with
  | .error .notFound => .error (.notFound path)
  | .error .nameTooLong => .error .pathTooLong
  | .error _ => .error (.unreadable path)
  | .ok bytes =>
    match Text.Utf8.decode? bytes with
    | some text => ofText path text
    | none => .error (.ofBytes path bytes)

/-- The configuration that a value gives : the defaults, a mapping over them, or a file. -/
def load (files : FileTree) : Value → Except Error Config
  | .null => ofEntries []
  | .map entries => ofEntries entries
  | .text path => ofFile files path
  | _ => .error .unsupported

/-- An integer or the empty value. -/
def optionalValue : Option Int → Value
  | some i => .int i
  | none => .null

/-- The configuration as a mapping. -/
def entries (c : Config) : List (Value × Value) :=
  [(.text "cycles_per_frame", .int c.cyclesPerFrame),
    (.text "tick_limit", .int c.tickLimit),
    (.text "pause_tick", optionalValue c.pauseTick),
    (.text "seed", optionalValue c.seed),
    (.text "lenient_log", .bool c.lenientLog)] ++ c.extra

end Config

end Chip8
