import Chip8.Schedule.Key

/-!
# Key events from values

An event is handed in as three values : a tick, a key, and whether the key goes down.
-/

namespace Chip8

namespace KeyEvent

/-- Why values are no events. -/
inductive Error where
  /-- The events cannot be gone through. -/
  | notEvents (kind : String)
  /-- The event cannot be taken apart. -/
  | notParts (kind : String)
  /-- The event has fewer than three parts. -/
  | tooFew (parts : Nat)
  /-- The event has more than three parts. -/
  | tooMany
  | tick (e : IntError)
  | key (e : Key.Error)

/-- The text of an error. -/
def Error.message : Error → String
  | .notEvents kind => "'" ++ kind ++ "' object is not iterable"
  | .notParts kind => "cannot unpack non-iterable " ++ kind ++ " object"
  | .tooFew parts =>
    "not enough values to unpack (expected 3, got " ++ Text.decimal parts ++ ")"
  | .tooMany => "too many values to unpack (expected 3)"
  | .tick e => e.message
  | .key e => e.message

/-- The event of three values. -/
def ofParts (tick key pressed : Value) : Except Error KeyEvent := do
  let tick ← tick.toInt.mapError .tick
  let key ← (Key.resolve key).mapError .key
  return { tick, key, pressed := pressed.truthy }

/-- The event of one value. -/
def ofValue (v : Value) : Except Error KeyEvent :=
  match v.parts? with
  | none => .error (.notParts v.kind)
  | some [tick, key, pressed] => ofParts tick key pressed
  | some parts => .error (if parts.length < 3 then .tooFew parts.length else .tooMany)

/-- The events of a list of values, or the first error. -/
def ofValues (v : Value) : Except Error (List KeyEvent) :=
  match v.parts? with
  | none => .error (.notEvents v.kind)
  | some events => events.mapM ofValue

end KeyEvent

end Chip8
