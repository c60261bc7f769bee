import Chip8.Proofs.Bare.Histories
import Chip8.Proofs.Run.Font

/-!
# Program images in memory

An image that fits is copied to the address of programs, and nothing else changes
(`Machine.Loads`); one that is too long is refused before anything is copied
(`Interpreter.run_load`). On the bare machine an image takes the place of as many cells, and the
row of memory keeps its length because both sides have the same (`Bare.run_operate`).

The image of a list of words has two bytes for each (`length_programImage`), the one at place `k`
from byte `2 * k` on (`getElem?_programImage`). So a fetch gives back the low sixteen bits of the word
(`Machine.fetch_word`), and a cycle executes the instruction that the word was made of.
`Interpreter.images_are_fetched_back` is all of this together.
-/

namespace Chip8

/-! ## The bytes of words -/

theorem length_programImage (words : List Int) :
    (programImage words).length = 2 * words.length := by
  induction words with
  | nil => rfl
  | cons w words ih =>
    rw [programImage, List.flatMap_cons, List.length_append, ← programImage, ih]
    simp only [List.length_cons, List.length_nil]
    omega

/-- The word at a place of a list has two bytes in the image, the high one first. -/
theorem getElem?_programImage (words : List Int) (k : Nat) :
    (programImage words)[2 * k]? =
        words[k]?.map (fun w => UInt8.ofNat (lowBits 8 (w / 256))) ∧
      (programImage words)[2 * k + 1]? = words[k]?.map (fun w => UInt8.ofNat (lowBits 8 w)) := by
  induction words generalizing k with
  | nil => exact ⟨rfl, rfl⟩
  | cons w words ih =>
    cases k with
    | zero => exact ⟨rfl, rfl⟩
    | succ k => exact ih k

/-- The two bytes of a word make its low sixteen bits. -/
theorem word_of_bytes (w : Int) : 256 * (UInt8.ofNat (lowBits 8 (w / 256))).toNat +
    (UInt8.ofNat (lowBits 8 w)).toNat = (w % 65536).toNat := by
  have hhigh := lowBits_eq 8 (w / 256)
  have hlow := lowBits_eq 8 w
  rw [UInt8.toNat_ofNat', UInt8.toNat_ofNat']
  omega

/-! ## Loading an image -/

namespace Machine

/-- The memory after an image that fits. -/
structure Loads (m next : Machine) (image : List UInt8) : Prop where
  bytes : ∀ k (hk : k < image.length), next.memory.byte (0x200 + k) = image[k]
  others : ∀ a, ¬ (0x200 ≤ a ∧ a < 0x200 + image.length) →
    next.memory.byte a = m.memory.byte a
  /-- Nothing but memory changes. -/
  frame : next = { m with memory := next.memory }

theorem loads_write (m : Machine) {image : List UInt8} (hfits : image.length ≤ 3584) :
    m.Loads { m with memory := m.memory.write Memory.programStart image } image where
  bytes k hk := by
    have hin : Memory.programStart ≤ 0x200 + k ∧
        0x200 + k < Memory.programStart + image.length ∧ 0x200 + k < Memory.size := by
      simp only [Memory.programStart, Memory.size]
      omega
    have hplace : 0x200 + k - Memory.programStart = k := Nat.add_sub_cancel_left _ _
    rw [Memory.byte_write, if_pos hin, hplace, List.getD_eq_getElem?_getD,
      List.getElem?_eq_getElem hk, Option.getD_some]
  others a ha := by
    rw [Memory.byte_write, if_neg]
    exact fun h => ha ⟨h.1, h.2.1⟩
  frame := rfl

/-- A fetch from an image of words gives the low sixteen bits of the word. -/
theorem fetch_word {m before : Machine} {words : List Int} {k : Nat} (hk : k < words.length)
    (hfits : words.length ≤ 1792) {loaded : Machine}
    (hloads : before.Loads loaded (programImage words)) (hmemory : m.memory = loaded.memory)
    (hpc : m.pc = 0x200 + 2 * k) : m.fetch = .ok (words[k] % 65536).toNat := by
  have hlength := length_programImage words
  obtain ⟨hhigh, hlow⟩ := getElem?_programImage words k
  rw [List.getElem?_eq_getElem hk, List.getElem?_eq_getElem (by omega), Option.map_some,
    Option.some_inj] at hhigh hlow
  have hbytes := hloads.bytes (2 * k) (by omega)
  have hbytes' := hloads.bytes (2 * k + 1) (by omega)
  have hat : m.pc.toNat = 0x200 + 2 * k := by omega
  have hinside : Memory.fault? m.pc 2 "fetch" = none :=
    Memory.fault?_eq_none_iff.mpr (by omega)
  rw [fetch_eq, hinside, Option.elim_none, word, hat, hmemory, hbytes, hhigh, Nat.add_assoc,
    hbytes', hlow, word_of_bytes]

end Machine

namespace Interpreter

variable {ρ : Type} [ByteSource ρ]

theorem run_load (it : Interpreter ρ) (image : List UInt8) :
    (Operation.load image).on.run it =
      if 3584 < image.length then .error (.fault (.loadSize image.length 3584)) it
      else .ok .done { it with machine := { it.machine with
        memory := it.machine.memory.write Memory.programStart image } } := by
  have hcapacity : Memory.capacity = 3584 := rfl
  show it.change (it.machine.load image) = _
  rw [Machine.load, hcapacity]
  split <;> rfl

/-- A cycle executes the instruction that is decoded. -/
theorem run_cycle_of_decode {it : Interpreter ρ} {i : Instruction} (hd : it.decode = .ok i) :
    Operation.cycle.on.run it = it.finish (it.advance.execute i) := by
  show it.finish it.cycle = _
  rw [cycle_eq_execute hd]
  cases it.advance.execute i <;> rfl

/-- Whatever operations lead to a machine, an image is copied to the address of programs if it fits,
or refused with nothing changed, and on the bare machine it is the same. Words whose image fits are
fetched back from there, each reduced to sixteen bits, and a cycle at the word of an instruction
executes that instruction. -/
theorem images_are_fetched_back (source : ρ) (ops : List Operation) :
    let it := (play Operation.on ops (powerOn source)).2
    (∀ image : List UInt8,
      (3584 < image.length →
        (Operation.load image).on.run it = .error (.fault (.loadSize image.length 3584)) it) ∧
      (image.length ≤ 3584 → ∃ next, it.machine.Loads next image ∧
        (Operation.load image).on.run it = .ok .done { it with machine := next }) ∧
      (Bare.operate Bare.wrap (.load image)).run it.bare =
        along bare ((Operation.load image).on.run it)) ∧
    ∀ words : List Int, words.length ≤ 1792 → ∃ loaded,
      (Operation.load (programImage words)).on.run it = .ok .done loaded ∧
      ∀ (k : Nat) (hk : k < words.length) (here : Interpreter ρ),
        here.machine.memory = loaded.machine.memory → here.machine.pc = 0x200 + 2 * k →
        here.machine.fetch = .ok (words[k] % 65536).toNat ∧
        ∀ i : Instruction, words[k] = i.encode →
          here.decode = .ok i.reduced ∧
          Operation.cycle.on.run here = here.finish (here.advance.execute i.reduced) := by
  intro it
  have h : it.machine.HoldsBytes := (bounded_play source ops).toHoldsBytes
  have hloads (image : List UInt8) (hfits : image.length ≤ 3584) : ∃ next,
      it.machine.Loads next image ∧
        (Operation.load image).on.run it = .ok .done { it with machine := next } :=
    ⟨_, it.machine.loads_write hfits, by rw [run_load, if_neg (Nat.not_lt.mpr hfits)]⟩
  refine ⟨fun image => ⟨fun hlong => ?_, hloads image, Bare.run_operate Bare.suits_wrap h _⟩,
    fun words hwords => ?_⟩
  · rw [run_load, if_pos hlong]
  · have hlength := length_programImage words
    obtain ⟨next, hnext, hrun⟩ := hloads (programImage words) (by omega)
    refine ⟨_, hrun, fun k hk here hmemory hpc => ?_⟩
    have hfetch := Machine.fetch_word hk hwords hnext hmemory hpc
    refine ⟨hfetch, fun i hi => ?_⟩
    -- the word of an instruction has sixteen bits
    have hword : (words[k] % 65536).toNat = i.encode := by
      have hlt := i.encode_lt
      omega
    have hd : here.decode = .ok i.reduced := decode_of_fetch (hword ▸ hfetch) i.decode_encode
    exact ⟨hd, run_cycle_of_decode hd⟩

/-- A program of a number that is no word and an instruction behind it. -/
theorem fetched_back_behind_negative :
    let it := (play Operation.on [] (powerOn (CyclicTape.ofList []))).2
    let i : Instruction := { op := .ldImm, x := 3, nn := 7 }
    let words : List Int := [-1, i.encode]
    words.length ≤ 1792 ∧ ∃ loaded,
      (Operation.load (programImage words)).on.run it = .ok .done loaded ∧
        loaded.machine.fetch = .ok 65535 ∧
        Operation.cycle.on.run loaded.advance =
          loaded.advance.finish (loaded.advance.advance.execute i) := by
  intro it i words
  obtain ⟨-, hwords⟩ := images_are_fetched_back (CyclicTape.ofList []) []
  obtain ⟨loaded, hrun, hback⟩ := hwords words (by decide)
  have hpc : loaded.machine.pc = 0x200 := by
    have hleft : loaded = left ((Operation.load (programImage words)).on.run it) := by
      rw [hrun]
      rfl
    rw [hleft]
    rfl
  have hnext : loaded.advance.machine.pc = 0x200 + 2 * (1 : Nat) := by
    rw [advance, hpc]
    rfl
  exact ⟨by decide, loaded, hrun, (hback 0 (by decide) loaded rfl hpc).1,
    ((hback 1 (by decide) loaded.advance rfl hnext).2 i rfl).2⟩

end Interpreter

end Chip8
