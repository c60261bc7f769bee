import Chip8.Proofs.Run.Font

/-!
# Where a cycle leads

The program counter is moved on before an instruction is executed, and the instruction can set it,
move it on again or move it back. What comes of this is told by the state before the cycle alone
(`Machine.Successor`) : the target of a jump, a call or a return, the instruction itself if it waits
for a key, the instruction behind the next one if it passes over that (`Machine.Passes`), and
otherwise the next one. There is always just one successor (`Machine.successor_iff`).

The addresses are plain integers, and within the bounds of a machine that operations lead to none
of them is negative or comes near the 65536 at which a mask would begin again at zero
(`Interpreter.cycles_lead_to_successor`). A program counter that has left memory stays where it is
(`Interpreter.cycle_of_outside`).
-/

namespace Chip8

namespace Opcode

/-- The operation that passes over the next instruction just if another one does not. -/
def opposite? : Opcode → Option Opcode
  | seImm => some sneImm
  | sneImm => some seImm
  | seReg => some sneReg
  | sneReg => some seReg
  | skp => some sknp
  | sknp => some skp
  | _ => none

theorem opposite?_symm {op other : Opcode} (h : op.opposite? = some other) :
    other.opposite? = some op := by
  cases op <;> simp only [opposite?, reduceCtorEq, Option.some_inj] at h <;> subst h <;> rfl

end Opcode

namespace CallStack

/-- The last return address in use is the one that a return takes. -/
theorem pop?_of_live {s : CallStack} {outer : List UInt16} {address : UInt16}
    (h : s.live = outer ++ [address]) : s.pop?.map Prod.fst = some address := by
  cases hp : s.pop? with
  | none => simp [pop?_eq_none_iff.mp hp] at h
  | some p =>
    obtain ⟨last, rest⟩ := p
    rw [live_of_pop? hp] at h
    obtain ⟨-, hlast⟩ := List.append_inj' h rfl
    rw [List.singleton_inj.mp hlast]
    rfl

end CallStack

namespace Machine

/-- The key is down whose number a register has, but for multiples of sixteen. -/
def NamesHeldKey (m : Machine) (r : Register) : Prop :=
  ∃ key : Key, (key.val : Int) = m.reg r % 16 ∧ m.keys.get key = true

/-- The condition on which an instruction passes over the next one. -/
def Passes (m : Machine) (i : Instruction) : Prop :=
  match i.op with
  | .seImm => m.reg i.vx = i.nn
  | .sneImm => m.reg i.vx ≠ i.nn
  | .seReg => m.reg i.vx = m.reg i.vy
  | .sneReg => m.reg i.vx ≠ m.reg i.vy
  | .skp => m.NamesHeldKey i.vx
  | .sknp => ¬ m.NamesHeldKey i.vx
  | _ => False

/-- Where an instruction at the program counter leads, told by the machine before it. -/
inductive Successor (m : Machine) (i : Instruction) : Int → Prop
  | target (hop : i.op = .jp ∨ i.op = .call) : Successor m i i.nnn
  | offset (hop : i.op = .jpV0) : Successor m i (m.reg .base + i.nnn)
  | back (hop : i.op = .ret) {outer : List UInt16} {address : UInt16}
    (hlive : m.stack.live = outer ++ [address]) : Successor m i address.toNat
  | here (hop : i.op = .ldKey) (hkeys : ∀ key : Key, m.keys.get key = false) : Successor m i m.pc
  | beyond (hpass : m.Passes i) : Successor m i (m.pc + 4)
  | next (hop : i.op ∉ [.jp, .call, .jpV0, .ret]) (hpass : ¬ m.Passes i)
    (hkeys : i.op = .ldKey → ∃ key : Key, m.keys.get key = true) : Successor m i (m.pc + 2)

variable {m : Machine} {i : Instruction}

theorem skips_iff : m.skips i = true ↔ m.Passes i := by
  have hnames : m.keys[Register.ofField (m.reg i.vx)] = true ↔ m.NamesHeldKey i.vx := by
    have hval : ((Register.ofField (m.reg i.vx)).val : Int) = m.reg i.vx % 16 :=
      Int.toNat_of_nonneg (Int.emod_nonneg _ (by decide))
    constructor
    · intro hdown
      exact ⟨_, hval, hdown⟩
    · rintro ⟨key, hkey, hdown⟩
      obtain rfl : key = Register.ofField (m.reg i.vx) := Fin.ext (by omega)
      exact hdown
  unfold skips Passes
  cases i.op <;> simp [← hnames]

theorem Passes.op {m : Machine} {i : Instruction} (h : m.Passes i) :
    i.op ∉ [.ret, .jp, .call, .jpV0, .ldKey] := by
  unfold Passes at h
  cases hop : i.op <;> simp [hop] at h ⊢

theorem nextPc_of_not_mem (hop : i.op ∉ [.ret, .jp, .call, .jpV0, .ldKey]) :
    m.nextPc i = if m.skips i then m.pc + wordSize else m.pc := by
  unfold nextPc
  cases h : i.op <;> first | rfl | simp [h] at hop

/-- What leads to a successor leads the program counter there. -/
theorem Successor.eq_nextPc {m : Machine} {i : Instruction} {pc : Int} (hs : m.Successor i pc)
    (h : m.Bounded) (hi : i.InRange) : pc = ({ m with pc := m.pc + 2 } : Machine).nextPc i := by
  have hnnn := hi.nnn
  have hbase := h.reg .base
  have hskips : ({ m with pc := m.pc + 2 } : Machine).skips i = m.skips i := rfl
  cases hs with
  | target hop => rcases hop with hop | hop <;> simp [nextPc, hop]
  | offset hop =>
    have hmask : (m.reg .base + i.nnn) % 65536 = m.reg .base + i.nnn := by omega
    simp only [nextPc, hop]
    exact hmask.symm
  | back hop hlive =>
    have hpop := CallStack.pop?_of_live hlive
    obtain ⟨p, hp, rfl⟩ := Option.map_eq_some_iff.mp hpop
    simp [nextPc, hop, hp]
  | here hop hkeys =>
    have hnone : m.keys.lowest?.isNone = true := by simp [Keypad.lowest?_eq_none_iff.mpr hkeys]
    simp [nextPc, hop, hnone, wordSize]
  | beyond hpass =>
    rw [nextPc_of_not_mem hpass.op, hskips, if_pos (skips_iff.mpr hpass)]
    exact (Int.add_assoc m.pc 2 2).symm
  | next hop hpass hkeys =>
    have hskip : m.skips i ≠ true := mt skips_iff.mp hpass
    by_cases hkey : i.op = .ldKey
    · obtain ⟨key, hdown⟩ := hkeys hkey
      have hsome : m.keys.lowest?.isNone = false := by
        rw [Bool.eq_false_iff, ne_eq, Option.isNone_iff_eq_none, Keypad.lowest?_eq_none_iff]
        exact fun hup => Bool.eq_false_iff.mp (hup key) hdown
      simp [nextPc, hkey, hsome]
    · rw [nextPc_of_not_mem (by simp_all), hskips, if_neg hskip]

/-- An instruction that is not refused has a successor. -/
theorem exists_successor (hr : m.refusal i = none) : ∃ pc, m.Successor i pc := by
  by_cases hpass : m.Passes i
  · exact ⟨_, .beyond hpass⟩
  by_cases htarget : i.op = .jp ∨ i.op = .call
  · exact ⟨_, .target htarget⟩
  by_cases hoffset : i.op = .jpV0
  · exact ⟨_, .offset hoffset⟩
  by_cases hret : i.op = .ret
  · have hdepth : m.stack.live ≠ [] := by
      intro hlive
      have hdepth : m.stack.depth.val = 0 := by rw [← CallStack.length_live, hlive]; rfl
      simp [refusal, hret, hdepth] at hr
    exact ⟨_, .back hret (List.dropLast_concat_getLast hdepth).symm⟩
  by_cases hwait : i.op = .ldKey ∧ ∀ key : Key, m.keys.get key = false
  · exact ⟨_, .here hwait.1 hwait.2⟩
  · refine ⟨_, .next (by simp_all) hpass fun hop => ?_⟩
    by_contra hnone
    exact hwait ⟨hop, fun key => Bool.eq_false_iff.mpr fun hkey => hnone ⟨key, hkey⟩⟩

/-- Whether an instruction is refused does not depend on the program counter. -/
theorem refusal_eq_none_of_pc (pc : Int) :
    ({ m with pc } : Machine).refusal i = none ↔ m.refusal i = none := by
  unfold refusal
  cases i.op <;> simp

/-- Of all addresses an instruction that is not refused leads to one. -/
theorem successor_iff (h : m.Bounded) (hi : i.InRange) (hr : m.refusal i = none) {pc : Int} :
    m.Successor i pc ↔ pc = ({ m with pc := m.pc + 2 } : Machine).nextPc i := by
  refine ⟨fun hs => hs.eq_nextPc h hi, fun hpc => ?_⟩
  obtain ⟨pc', hs⟩ := exists_successor hr
  rw [hpc, ← hs.eq_nextPc h hi]
  exact hs

/-- Of two opposite instructions with the same operands just one passes over the next one. -/
theorem passes_opposite {op : Opcode} (h : i.op.opposite? = some op) :
    m.Passes { i with op } ↔ ¬ m.Passes i := by
  unfold Opcode.opposite? at h
  unfold Passes
  cases hop : i.op <;> simp only [hop, reduceCtorEq, Option.some_inj] at h <;> subst h
  case seImm | seReg | skp => exact Iff.rfl
  all_goals exact not_not.symm

/-- An instruction that has an opposite leads to the next one or over it, and is never refused. -/
theorem successor_of_opposite {op : Opcode} (h : i.op.opposite? = some op) :
    m.refusal i = none ∧ (m.Passes i → m.Successor i (m.pc + 4)) ∧
      (¬ m.Passes i → m.Successor i (m.pc + 2)) := by
  obtain ⟨hr, hop, hkey⟩ : m.refusal i = none ∧ i.op ∉ [.jp, .call, .jpV0, .ret] ∧
      i.op ≠ .ldKey := by
    unfold Opcode.opposite? at h
    unfold refusal
    cases hop : i.op <;> simp [hop] at h ⊢
  exact ⟨hr, .beyond, fun hpass => .next hop hpass (absurd · hkey)⟩

end Machine

namespace Interpreter

variable {ρ : Type} [ByteSource ρ]

/-- Behind the last word of memory no cycle is completed. -/
theorem cycle_of_outside {it : Interpreter ρ} (h : 4094 < it.machine.pc) :
    it.cycle = .error (.fault (.memory (max it.machine.pc 4096) "fetch")) := by
  have hfault : Memory.fault? it.machine.pc 2 "fetch" =
      some (.memory (max it.machine.pc 4096) "fetch") := by
    rw [Memory.fault?, if_neg (by omega), if_pos (by simp only [Memory.size]; omega)]
    rfl
  rw [cycle, decode, Machine.fetch_eq, hfault]
  rfl

/-- A completed cycle leads to the successor of its instruction. -/
theorem cycle_successor {it : Interpreter ρ} (h : it.machine.Bounded) {i : Instruction}
    (hd : it.decode = .ok i) {done : Cycled ρ} (hc : it.cycle = .ok done) (pc : Int) :
    it.machine.Successor i pc ↔ pc = done.next.machine.pc := by
  obtain ⟨j, hj, hr, -, hnext⟩ := cycle_eq_ok h.toHoldsBytes hc
  obtain rfl : i = j := Except.ok.inj (hd.symm.trans hj)
  have hi := inRange_of_decode hd
  rw [advance_of_decode hd] at hr hnext
  rw [Machine.successor_iff h hi ((Machine.refusal_eq_none_of_pc _).mp hr), hnext]
  rfl

/-- Whatever operations lead to a machine, a cycle that it completes leads to the one successor of
the instruction at the program counter. No address on the way is negative or so large that a mask
changes it, and behind the end of memory no cycle is completed. With the opposite instruction in its
place, a cycle that passes over the next instruction would not have done so, and the other way
round. -/
theorem cycles_lead_to_successor (source : ρ) (ops : List Operation) {done : Cycled ρ}
    (hc : (play Operation.on ops (powerOn source)).2.cycle = .ok done) :
    let it := (play Operation.on ops (powerOn source)).2
    let m := it.machine
    let pc := done.next.machine.pc
    ∃ i, Instruction.decode m.word = .ok i ∧ (∀ a, m.Successor i a ↔ a = pc) ∧
      (0 ≤ m.pc ∧ m.pc ≤ 4094) ∧ (0 ≤ pc ∧ pc ≤ 4350) ∧
      (4094 < pc → done.next.cycle = .error (.fault (.memory (max pc 4096) "fetch"))) ∧
      ∀ op, i.op.opposite? = some op → ∀ memory : Memory,
        let other : Interpreter ρ := { it with machine := { m with memory } }
        other.decode = .ok { i with op } → ∃ done', other.cycle = .ok done' ∧
          ((pc = m.pc + 4 ∧ done'.next.machine.pc = m.pc + 2) ∨
            (pc = m.pc + 2 ∧ done'.next.machine.pc = m.pc + 4)) := by
  intro it m pc
  have h : m.Bounded := bounded_play source ops
  obtain ⟨i, hd, -⟩ := cycle_eq_ok h.toHoldsBytes hc
  obtain ⟨hlow, hhigh, hword⟩ := decode_eq_ok hd
  have hsuccessor := cycle_successor h hd hc
  have hbounds : 0 ≤ pc ∧ pc ≤ 4350 := (bounded_cycle h hc).pc
  refine ⟨i, hword, hsuccessor, ⟨hlow, hhigh⟩, hbounds, fun hout => cycle_of_outside hout, ?_⟩
  intro op hop memory other hother
  have hb : other.machine.Bounded :=
    ⟨⟨h.reg, h.delay, h.sound⟩, h.pc, h.index, h.live, h.tick, h.pending⟩
  obtain ⟨-, hover, hnext⟩ := m.successor_of_opposite hop
  obtain ⟨hr', hover', hnext'⟩ := other.machine.successor_of_opposite
    (i := { i with op }) (Opcode.opposite?_symm hop)
  obtain ⟨done', hc', -⟩ := cycle_of_decode hb.toHoldsBytes hother
    ((Machine.refusal_eq_none_of_pc _).mpr hr')
  have hsuccessor' := cycle_successor hb hother hc'
  have hpasses : other.machine.Passes { i with op } ↔ ¬ m.Passes i := Machine.passes_opposite hop
  refine ⟨done', hc', ?_⟩
  by_cases hpass : m.Passes i
  · exact Or.inl ⟨((hsuccessor _).mp (hover hpass)).symm,
      ((hsuccessor' _).mp (hnext' fun h => hpasses.mp h hpass)).symm⟩
  · exact Or.inr ⟨((hsuccessor _).mp (hnext hpass)).symm,
      ((hsuccessor' _).mp (hover' (hpasses.mpr hpass))).symm⟩

/-- A program that jumps to the last word of memory and goes on from there. -/
theorem successor_of_last_word :
    let it := (play Operation.on [.load [0x1F, 0xFE], .cycle] (powerOn (CyclicTape.ofList []))).2
    ∃ done, it.cycle = .ok done ∧ done.next.machine.pc = 4096 ∧
      done.next.cycle = .error (.fault (.memory 4096 "fetch")) := by
  intro it
  let jump : Instruction := { op := .jp, nnn := 0xFFE }
  let idle : Instruction := { op := .nop }
  let loaded := left ((Operation.load [0x1F, 0xFE]).on.run (powerOn (CyclicTape.ofList [])))
  have hbytes : loaded.machine.HoldsBytes := Operation.holdsBytes _ .powerOn
  have hjump : it = loaded.advance.executed jump :=
    left_cycle_of_fetch (i := jump) hbytes (by decide +kernel) rfl
  have hpc : it.machine.pc = 4094 := by rw [hjump]; decide +kernel
  have hfetch : it.machine.fetch = .ok idle.encode := by rw [hjump]; decide +kernel
  have hd : it.decode = .ok idle := decode_of_fetch hfetch idle.decode_encode
  obtain ⟨done, hc, -⟩ := cycle_of_decode (bounded_play _ _).toHoldsBytes hd rfl
  obtain ⟨i, hword, hsuccessor, -, -, hout, -⟩ := cycles_lead_to_successor
    (CyclicTape.ofList []) [.load [0x1F, 0xFE], .cycle] hc
  obtain rfl : idle = i := Except.ok.inj ((decode_eq_ok hd).2.2.symm.trans hword)
  have hnext : done.next.machine.pc = 4096 := by
    have hgo : it.machine.Successor idle (it.machine.pc + 2) :=
      .next (by decide) (fun h => h) (fun h => by contradiction)
    rw [← (hsuccessor _).mp hgo, hpc]
    rfl
  have hfault := hout (by rw [hnext]; decide)
  rw [hnext] at hfault
  exact ⟨done, hc, hnext, hfault⟩

end Interpreter

end Chip8
