import Chip8.Proofs.Run.Font
import Chip8.Proofs.Text.Numeral

/-!
# The place that a fault reports

A word that is no operation's is reported with the address that it was fetched from. A call or a
return that is refused is looked at with the program counter already past it, and what is reported
is that address (`Interpreter.Reports`). The machine is left at the instruction itself, so the two
do not agree : of the faults that report an address of the program at all (`Fault.place?`), only an
unknown word is reported at its own (`Interpreter.faults_report_places`).

The message of a fault tells the address it was given and no other (`Fault.message_placedAt_inj`),
so nothing in it leads back to the instruction.
-/

namespace Chip8

namespace Fault

/-- The address of the program that a fault reports. -/
def place? : Fault → Option Int
  | decode _ address => some address
  | stackOverflow pc | stackUnderflow pc => some pc
  | memory .. | loadSize .. => none

/-- The fault, reported at an address of the program. -/
def placedAt (place : Int) : Fault → Fault
  | decode word _ => decode word place
  | stackOverflow _ => stackOverflow place
  | stackUnderflow _ => stackUnderflow place
  | f => f

theorem placedAt_of_place {f : Fault} {place : Int} (h : f.place? = some place) :
    f.placedAt place = f := by
  cases f with
  | decode | stackOverflow | stackUnderflow =>
    obtain rfl := Option.some.inj h
    rfl
  | memory | loadSize => contradiction

/-- A message ends in the address that it reports. -/
theorem message_placedAt {f : Fault} (h : f.place?.isSome = true) :
    ∃ lead, ∀ place, (f.placedAt place).message = lead ++ Text.hexPadded 3 place := by
  cases f with
  | decode | stackOverflow | stackUnderflow => exact ⟨_, fun _ => rfl⟩
  | memory | loadSize => contradiction

/-- A message tells the address that it reports. -/
theorem message_placedAt_inj {f : Fault} (h : f.place?.isSome = true) {a b : Int} :
    (f.placedAt a).message = (f.placedAt b).message ↔ a = b := by
  obtain ⟨lead, hlead⟩ := message_placedAt h
  rw [hlead, hlead, String.append_right_inj]
  exact (Text.hexPadded_injective 3).eq_iff

end Fault

/-- An instruction that is refused is a return without a call, a call without room or an access that
does not lie inside memory. -/
theorem Machine.refusal_cases {m : Machine} {i : Instruction} {f : Fault}
    (h : m.refusal i = some f) :
    (i.op = .ret ∧ f = .stackUnderflow m.pc) ∨ (i.op = .call ∧ f = .stackOverflow m.pc) ∨
      ∃ address purpose, f = .memory address purpose := by
  cases hop : i.op <;> simp only [refusal, hop, reduceCtorEq] at h
  case ret =>
    split_ifs at h
    exact Or.inl ⟨rfl, (Option.some.inj h).symm⟩
  case call =>
    split_ifs at h
    exact Or.inr (Or.inl ⟨rfl, (Option.some.inj h).symm⟩)
  case drw | ldBcd | storeRegs | loadRegs =>
    obtain ⟨address, rfl⟩ := Memory.exists_of_fault? h
    exact Or.inr (Or.inr ⟨_, _, rfl⟩)

namespace Interpreter

variable {ρ : Type}

/-- What the fault of a cycle reports of the place of its instruction. -/
inductive Reports (it : Interpreter ρ) : Fault → Prop
  /-- A word that is no operation's is reported with its own address. -/
  | unknown : Reports it (.decode it.machine.word it.machine.pc)
  /-- A call without room is reported with the address behind it. -/
  | overflow {i : Instruction} (hd : it.decode = .ok i) (hop : i.op = .call) :
    Reports it (.stackOverflow (it.machine.pc + 2))
  /-- A return without a call is reported with the address behind it. -/
  | underflow {i : Instruction} (hd : it.decode = .ok i) (hop : i.op = .ret) :
    Reports it (.stackUnderflow (it.machine.pc + 2))
  /-- An access that does not lie inside memory is reported with no address of the program. -/
  | outside (address : Int) (purpose : String) : Reports it (.memory address purpose)

theorem reports_of_decode {it : Interpreter ρ} {f : Fault} (h : it.decode = .error f) :
    it.Reports f := by
  rw [decode, Machine.fetch_eq] at h
  cases hfetch : Memory.fault? it.machine.pc 2 "fetch" with
  | some fault =>
    obtain ⟨address, rfl⟩ := Memory.exists_of_fault? hfetch
    simp only [hfetch, Option.elim_some, bind, Except.bind, Except.error.injEq] at h
    exact h ▸ .outside address "fetch"
  | none =>
    simp only [hfetch, Option.elim_none, bind, Except.bind] at h
    cases hd : Instruction.decode it.machine.word with
    | ok i => simp [hd, pure, Except.pure] at h
    | error e =>
      obtain ⟨-, rfl⟩ := Instruction.decode_eq_error_iff.mp hd
      rw [it.machine.lowBits_word] at hd
      simp only [hd, throw, throwThe, MonadExceptOf.throw, Except.error.injEq] at h
      exact h ▸ .unknown

theorem reports_of_refusal {it : Interpreter ρ} {i : Instruction} (hd : it.decode = .ok i)
    {f : Fault} (hr : it.advance.machine.refusal i = some f) : it.Reports f := by
  have hpc : it.advance.machine.pc = it.machine.pc + 2 := by rw [advance_of_decode hd]
  rcases Machine.refusal_cases hr with ⟨hop, rfl⟩ | ⟨hop, rfl⟩ | ⟨address, purpose, rfl⟩
  · exact hpc ▸ .underflow hd hop
  · exact hpc ▸ .overflow hd hop
  · exact .outside address purpose

/-- Only an unknown word is reported at the address that the machine is left at. -/
theorem Reports.place_eq_iff {it : Interpreter ρ} {f : Fault} (h : it.Reports f) {place : Int}
    (hplace : f.place? = some place) : place = it.machine.pc ↔ ∃ word, f = .decode word place := by
  cases h with
  | unknown =>
    obtain rfl := Option.some.inj hplace
    exact iff_of_true rfl ⟨_, rfl⟩
  | overflow | underflow =>
    obtain rfl := Option.some.inj hplace
    exact iff_of_false (by omega) (by simp)
  | outside => contradiction

variable [ByteSource ρ]

/-- Whatever calls lead to a machine, a cycle that faults leaves it at its instruction. The address
that the fault reports is the one of the instruction if it is an unknown word, and the one behind it
if it is a call or a return. The message tells the address that is reported, so it names the
instruction in the first case alone. -/
theorem faults_report_places (source : ρ) (calls : List Call) {f : Fault}
    (hfault : (play Call.on calls (powerOn source)).2.cycle = .error (.fault f)) :
    let it := (play Call.on calls (powerOn source)).2
    Operation.cycle.on.run it = .error (.fault f) it ∧ it.Reports f ∧
      ∀ place, f.place? = some place →
        (place = it.machine.pc ↔ ∃ word, f = .decode word place) ∧
        (f.message = (f.placedAt it.machine.pc).message ↔ ∃ word, f = .decode word place) := by
  intro it
  have h : it.machine.HoldsBytes := holdsBytes_play source calls
  have hreports : it.Reports f := by
    rcases (cycle_eq_fault_iff h).mp hfault with hd | ⟨i, hd, hr⟩
    · exact reports_of_decode hd
    · exact reports_of_refusal hd hr
  have hleft : Operation.cycle.on.run it = .error (.fault f) it := by
    simp only [Operation.on, EStateM.run]
    rw [hfault]
    rfl
  refine ⟨hleft, hreports, fun place hplace => ?_⟩
  have hiff := hreports.place_eq_iff hplace
  refine ⟨hiff, ?_⟩
  have htells := Fault.message_placedAt_inj (f := f) (by rw [hplace]; rfl) (a := place)
    (b := it.machine.pc)
  rw [Fault.placedAt_of_place hplace] at htells
  exact htells.trans hiff

/-- A call with every slot of the call stack in use. -/
theorem place_of_call_without_room :
    let calls := .operation (.load [0x22, 0x00]) :: List.replicate 16 (.push 0x300)
    let it := (play Call.on calls (powerOn (CyclicTape.ofList []))).2
    it.cycle = .error (.fault (.stackOverflow 0x202)) ∧ it.machine.pc = 0x200 ∧
      it.Reports (.stackOverflow 0x202) := by
  intro calls it
  have h : it.machine.HoldsBytes := holdsBytes_play _ calls
  let call : Instruction := { op := .call, nnn := 0x200 }
  have hd : it.decode = .ok call := decode_of_fetch (by decide +kernel) call.decode_encode
  have hfault : it.cycle = .error (.fault (.stackOverflow 0x202)) :=
    (cycle_eq_fault_iff h).mpr (Or.inr ⟨call, hd, by decide +kernel⟩)
  exact ⟨hfault, by decide +kernel, (faults_report_places _ calls hfault).2.1⟩

/-- The first instruction is a return. It is reported behind itself, and the machine is left at
it. -/
theorem return_is_reported_behind_itself :
    let it := (play Call.on [.operation (.load [0x00, 0xEE])] (powerOn (CyclicTape.ofList []))).2
    Operation.cycle.on.run it = .error (.fault (.stackUnderflow 0x202)) it ∧
      it.machine.pc = 0x200 ∧
      (Fault.stackUnderflow 0x202).message = "Call stack underflow at PC 0x202" := by
  intro it
  have h : it.machine.HoldsBytes := holdsBytes_play _ _
  let ret : Instruction := { op := .ret }
  have hd : it.decode = .ok ret := decode_of_fetch (by decide +kernel) ret.decode_encode
  have hfault : it.cycle = .error (.fault (.stackUnderflow 0x202)) :=
    (cycle_eq_fault_iff h).mpr (Or.inr ⟨ret, hd, by decide +kernel⟩)
  refine ⟨?_, by decide +kernel, by decide +kernel⟩
  simp only [Operation.on, EStateM.run]
  rw [hfault]
  rfl

end Interpreter

end Chip8
