import Chip8.Fault

/-!
# The call stack

Sixteen slots of sixteen bits, of which the first `depth` are in use, the outermost call first
(`CallStack.live`). A push or a pop past either end is `none`, for the machine to report.
-/

namespace Chip8

/-- The slots of return addresses and how many are in use. -/
structure CallStack where
  slots : Vector UInt16 16
  depth : Fin 17
deriving DecidableEq

namespace CallStack

/-- No call is open. -/
def empty : CallStack := ⟨Vector.replicate 16 0, 0⟩

/-- The return addresses in use, the outermost call first. -/
def live (s : CallStack) : List UInt16 := s.slots.toList.take s.depth

/-- Put the low sixteen bits of a return address into the first free slot. -/
def push? (s : CallStack) (address : Int) : Option CallStack :=
  if h : s.depth.val < 16 then
    some ⟨s.slots.set s.depth (UInt16.ofInt address), ⟨s.depth.val + 1, by omega⟩⟩
  else none

/-- The return address last put in, and the stack without it. -/
def pop? (s : CallStack) : Option (UInt16 × CallStack) :=
  match h : s.depth.val with
  | 0 => none
  | d + 1 =>
    have : d < 16 := by omega
    some (s.slots[d], ⟨s.slots, ⟨d, by omega⟩⟩)

@[simp] theorem live_empty : empty.live = [] := rfl

@[simp] theorem length_live (s : CallStack) : s.live.length = s.depth := by
  simp only [live, List.length_take, Vector.length_toList]
  omega

/-- A push adds the address behind those in use. -/
theorem live_of_push? {s t : CallStack} {address : Int} (h : s.push? address = some t) :
    t.live = s.live ++ [UInt16.ofInt address] := by
  unfold push? at h
  split at h
  · next hd =>
    obtain rfl := Option.some.inj h
    simp [live, List.take_add_one, hd, Vector.toList_set, List.take_set_of_le]
  · contradiction

/-- A push fails on a full stack alone. -/
theorem push?_eq_none_iff {s : CallStack} {address : Int} :
    s.push? address = none ↔ s.live.length = stackSize := by
  unfold push?
  split <;> simp [stackSize] <;> omega

/-- A pop takes the last address in use. -/
theorem live_of_pop? {s t : CallStack} {address : UInt16} (h : s.pop? = some (address, t)) :
    s.live = t.live ++ [address] := by
  unfold pop? at h
  split at h
  · contradiction
  · next d hd =>
    obtain ⟨rfl, rfl⟩ := Prod.mk.inj (Option.some.inj h)
    have : d < 16 := by omega
    simp [live, hd, List.take_add_one, this]

/-- A pop fails on an empty stack alone. -/
theorem pop?_eq_none_iff {s : CallStack} : s.pop? = none ↔ s.live = [] := by
  rw [← List.length_eq_zero_iff, length_live]
  unfold pop?
  split <;> simp_all

end CallStack

end Chip8
