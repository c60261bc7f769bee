/-!
# The keypad

Sixteen keys, each down or up, and the events that move them at given ticks.
-/

namespace Chip8

/-- One of the sixteen keys. -/
abbrev Key := Fin 16

/-- For each key, whether it is down. -/
abbrev Keypad := Vector Bool 16

/-- A key going down or up at a tick. -/
structure KeyEvent where
  tick : Int
  key : Key
  pressed : Bool
deriving DecidableEq

namespace Keypad

/-- Every key up. -/
def released : Keypad := Vector.replicate 16 false

/-- The keypad with one key down or up. -/
def put (k : Keypad) (key : Key) (pressed : Bool) : Keypad := k.set key pressed

/-- The keys that are down, lowest first. -/
def down (k : Keypad) : List Key := (List.finRange 16).filter (k[·])

/-- The lowest key that is down. -/
def lowest? (k : Keypad) : Option Key := (List.finRange 16).find? (k[·])

theorem getElem_put (k : Keypad) (key other : Key) (pressed : Bool) :
    (k.put key pressed)[other] = if key = other then pressed else k[other] := by
  simp [put, Vector.getElem_set, Fin.ext_iff]

theorem lowest?_eq_none_iff {k : Keypad} : k.lowest? = none ↔ ∀ key, k.get key = false := by
  have hget (key : Key) : k.get key = k[key] := rfl
  simp [lowest?, hget]

/-- The lowest key is down, and none below it is. -/
theorem lowest?_eq_some_iff {k : Keypad} {key : Key} :
    k.lowest? = some key ↔ k.get key = true ∧ ∀ lower < key, k.get lower = false := by
  have hget (key : Key) : k.get key = k[key] := rfl
  simp only [hget]
  rw [lowest?, List.find?_eq_some_iff_getElem]
  constructor
  · rintro ⟨hdown, place, hplace, rfl, hlower⟩
    refine ⟨hdown, fun lower hlt => ?_⟩
    simpa using hlower lower.val (by simpa [Fin.lt_def] using hlt)
  · rintro ⟨hdown, hlower⟩
    refine ⟨hdown, key.val, by simp, by simp, fun j hj => ?_⟩
    have hj' : j < 16 := by omega
    simpa using hlower ⟨j, hj'⟩ hj

/-- The keypad after events, in their order. -/
def deliver (k : Keypad) (events : List KeyEvent) : Keypad :=
  events.foldl (fun k e => k.put e.key e.pressed) k

end Keypad

/-- A timeline : the events by tick, those of one tick in the order given. -/
def KeyEvent.timeline (events : List KeyEvent) : List KeyEvent :=
  events.mergeSort fun a b => a.tick ≤ b.tick

end Chip8
