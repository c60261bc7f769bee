import Chip8.Proofs.Run.Steps

/-!
# Calls and returns

The calls that are open after an execution are told from its completed cycles alone : a call adds
the address behind it to the list, and a return takes the last address away
(`Interpreter.openCalls`). No other step and no other instruction has a part in it.

The call stack holds that list in the slots below its depth (`Interpreter.addresses_after`), so
the list says where a return goes on, and when a call or a return is refused
(`Interpreter.Nested`). As long as an execution stays deeper than a call was made, the list goes
on with the address behind the call (`Interpreter.prefix_openCalls`). So the return that leads
back is the one that belongs to the call, and goes on behind it
(`Interpreter.calls_are_nested`).
-/

namespace Chip8

/-- The return addresses in use, the outermost call first. -/
def CallStack.addresses (s : CallStack) : List Int := s.live.map fun a => (a.toNat : Int)

/-- The open calls after an instruction. A call adds the address behind it, and a return takes the
last address away. -/
def Completed.track (calls : List Int) (c : Completed) : List Int :=
  match c.instruction.op with
  | .call => calls ++ [c.machine.pc + 2]
  | .ret => calls.dropLast
  | _ => calls

variable {ρ : Type} [ByteSource ρ]

/-- The open calls after a step. A machine that is switched on anew has none. -/
def Step.track (s : Step) (it : Interpreter ρ) (calls : List Int) : List Int :=
  match s with
  | .call .reset _ => []
  | s => (s.completed it).foldl Completed.track calls

/-- The open calls after steps. -/
def Interpreter.openCalls : List Step → Interpreter ρ → List Int → List Int
  | [], _, calls => calls
  | s :: steps, it, calls => openCalls steps (s.on it) (s.track it calls)

namespace CallStack

@[simp] theorem length_addresses (s : CallStack) : s.addresses.length = s.depth.val := by
  simp [addresses]

theorem addresses_of_push? {s t : CallStack} {address : Int} (h : s.push? address = some t)
    (hfits : 0 ≤ address ∧ address < 65536) : t.addresses = s.addresses ++ [address] := by
  have hkept : ((UInt16.ofInt address).toNat : Int) = address := by
    rw [toNat_address]
    omega
  simp [addresses, live_of_push? h, hkept]

theorem addresses_of_pop? {s t : CallStack} {address : UInt16} (h : s.pop? = some (address, t)) :
    s.addresses = t.addresses ++ [(address.toNat : Int)] := by
  simp [addresses, live_of_pop? h]

end CallStack

namespace Interpreter

/-! ## The list is in the call stack -/

/-- What an instruction does to the call stack is what it does to the list. -/
theorem addresses_executed {it : Interpreter ρ} {i : Instruction} (hd : it.decode = .ok i)
    (hr : it.advance.machine.refusal i = none) :
    (it.advance.executed i).machine.stack.addresses =
      Completed.track it.machine.stack.addresses ⟨it.machine, i⟩ := by
  have hpc := decode_eq_ok hd
  have hnext : it.advance.machine.pc = it.machine.pc + 2 := by
    simp only [advance, wordSize]
    omega
  show (it.advance.machine.nextStack i).addresses = _
  unfold Machine.nextStack Completed.track
  split
  · next hop =>
    cases hp : it.advance.machine.stack.pop? with
    | none => simp [Machine.refusal, hop, CallStack.pop?_eq_none_iff_depth.mp hp] at hr
    | some p =>
      obtain ⟨a, rest⟩ := p
      have hstack : it.machine.stack.addresses = rest.addresses ++ [(a.toNat : Int)] :=
        CallStack.addresses_of_pop? hp
      simp [hop, hstack]
  · next hop =>
    cases hp : it.advance.machine.stack.push? it.advance.machine.pc with
    | none => simp [Machine.refusal, hop, CallStack.push?_eq_none_iff_depth.mp hp] at hr
    | some stack =>
      rw [Option.getD_some, CallStack.addresses_of_push? hp (by omega), hnext]
      simp only [hop]
      rfl
  · next hret hcall =>
    split
    · next hop => exact absurd hop hcall
    · next hop => exact absurd hop hret
    · rfl

/-- What a step does to the call stack is what it does to the list. -/
theorem addresses_on (s : Step) {it : Interpreter ρ} (h : it.machine.HoldsBytes) :
    (s.on it).machine.stack.addresses = s.track it it.machine.stack.addresses := by
  cases s with
  | set | nextTick | endFrame => rfl
  | call o brief =>
    cases o with
    | cycle =>
      simp only [Step.track]
      rcases cycle_cases h with ⟨hnone, -, hon⟩ | ⟨i, done, hi, -, hd, hr, -, hon⟩
      · rw [Step.completed_of_none hnone, hon]
        rfl
      · rw [Step.completed_of_some hi, hon, addresses_executed hd hr]
        rfl
    | run => contradiction
    | reset | tickTimers | deliver | toggle | clear => rfl
    | load image =>
      simp only [Step.on, Operation.on, EStateM.run, Machine.load]
      split <;> rfl
    | moveKey key pressed =>
      simp only [Step.on, Operation.on, EStateM.run]
      split <;> rfl
    | schedule events =>
      simp only [Step.on, Operation.on, EStateM.run]
      split <;> rfl

/-- The call stack holds the open calls. -/
theorem addresses_after (steps : List Step) {it : Interpreter ρ} (h : it.machine.HoldsBytes) :
    (it.after steps).machine.stack.addresses =
      it.openCalls steps it.machine.stack.addresses := by
  induction steps generalizing it with
  | nil => rfl
  | cons s steps ih =>
    rw [after_cons, ih (holdsBytes_on s h), addresses_on s h]
    rfl

/-! ## Calls and returns that are made -/

/-- A return goes on at the last address in use. -/
theorem cycle_ret {it : Interpreter ρ} (h : it.machine.HoldsBytes) {i : Instruction}
    (hd : it.decode = .ok i) (hop : i.op = .ret) {a : Int}
    (ha : it.machine.stack.addresses.getLast? = some a) :
    ∃ done, it.cycle = .ok done ∧ done.next.machine.pc = a := by
  cases hp : it.machine.stack.pop? with
  | none =>
    have hlive : it.machine.stack.addresses = [] := by
      rw [CallStack.addresses, CallStack.pop?_eq_none_iff.mp hp, List.map_nil]
    simp [hlive] at ha
  | some p =>
    obtain ⟨b, rest⟩ := p
    have hlast : (b.toNat : Int) = a := by simpa [CallStack.addresses_of_pop? hp] using ha
    have hdepth : it.machine.stack.depth.val ≠ 0 := fun hdepth => by
      simp [CallStack.pop?_eq_none_iff_depth.mpr hdepth] at hp
    have hr : it.advance.machine.refusal i = none := by
      simp only [Machine.refusal, hop]
      exact if_neg hdepth
    obtain ⟨done, hc, hnext⟩ := cycle_of_decode h hd hr
    refine ⟨done, hc, ?_⟩
    rw [hnext]
    show it.advance.machine.nextPc i = a
    have hp' : it.advance.machine.stack.pop? = some (b, rest) := hp
    simp only [Machine.nextPc, hop, hp', Option.map_some, Option.getD_some, hlast]

/-- The addresses in use after a completed cycle. -/
theorem addresses_of_cycle {it : Interpreter ρ} (h : it.machine.HoldsBytes) {done : Cycled ρ}
    (hc : it.cycle = .ok done) {i : Instruction} (hd : it.decode = .ok i) :
    done.next.machine.stack.addresses =
      Completed.track it.machine.stack.addresses ⟨it.machine, i⟩ := by
  obtain ⟨j, hd', hr, -, hnext⟩ := cycle_eq_ok h hc
  obtain rfl := Except.ok.inj (hd.symm.trans hd')
  rw [hnext, addresses_executed hd hr]

/-! ## The list goes on behind an open call -/

/-- A step makes the list longer at its end, or shorter. -/
theorem prefix_track (s : Step) (it : Interpreter ρ) (calls : List Int) :
    calls <+: s.track it calls ∨ s.track it calls <+: calls := by
  unfold Step.track
  split
  · exact Or.inr List.nil_prefix
  · unfold Step.completed
    split
    · cases it.completes? with
      | none => exact Or.inl (List.prefix_refl _)
      | some i =>
        show calls <+: Completed.track calls _ ∨ Completed.track calls _ <+: calls
        unfold Completed.track
        split
        · exact Or.inl (List.prefix_append _ _)
        · exact Or.inr (List.dropLast_prefix _)
        · exact Or.inl (List.prefix_refl _)
    · exact Or.inl (List.prefix_refl _)

/-- What the list begins with stays as long as the list is not shorter than that. -/
theorem prefix_openCalls {front : List Int} (steps : List Step) {it : Interpreter ρ}
    {calls : List Int} (hfront : front <+: calls)
    (hlong : ∀ some, some <+: steps → front.length ≤ (it.openCalls some calls).length) :
    front <+: it.openCalls steps calls := by
  induction steps generalizing it calls with
  | nil => exact hfront
  | cons s steps ih =>
    have hfirst : front.length ≤ (s.track it calls).length :=
      hlong [s] (by simp)
    refine ih ?_ fun some hsome => hlong (s :: some) (List.cons_prefix_cons.mpr ⟨rfl, hsome⟩)
    rcases prefix_track s it calls with hlonger | hshorter
    · exact hfront.trans hlonger
    · exact List.prefix_of_prefix_length_le hfront hshorter hfirst

/-- What the open calls, the outermost first, say of an interpreter. -/
structure Nested (it : Interpreter ρ) (calls : List Int) : Prop where
  /-- The call stack holds them below its depth. -/
  addresses : it.machine.stack.addresses = calls
  /-- A return goes on at the last of them. -/
  ret : ∀ i a, it.decode = .ok i → i.op = .ret → calls.getLast? = some a →
    ∃ done, it.cycle = .ok done ∧ done.next.machine.pc = a
  /-- A return is refused if there is none. -/
  underflow : ∀ i, it.decode = .ok i → i.op = .ret →
    ((∃ pc, it.cycle = .error (.fault (.stackUnderflow pc))) ↔ calls = [])
  /-- A call that finds room is made. -/
  call : ∀ i, it.decode = .ok i → i.op = .call → calls.length < 16 →
    ∃ done, it.cycle = .ok done ∧ done.next.machine.pc = i.nnn
  /-- A call is refused if there are sixteen. -/
  overflow : ∀ i, it.decode = .ok i → i.op = .call →
    ((∃ pc, it.cycle = .error (.fault (.stackOverflow pc))) ↔ calls.length = 16)
  /-- A call that is made is followed by steps that stay deeper than it was made, and then by a
  cycle that leads back to its depth. That cycle is a return, and it goes on behind the call. -/
  back : ∀ i done steps last, it.decode = .ok i → i.op = .call → it.cycle = .ok done →
    (∀ some, some <+: steps →
      it.machine.stack.depth.val < (done.next.after some).machine.stack.depth.val) →
    (done.next.after steps).cycle = .ok last →
    last.next.machine.stack.depth = it.machine.stack.depth →
      (∃ j, (done.next.after steps).decode = .ok j ∧ j.op = .ret) ∧
        last.next.machine.pc = it.machine.pc + 2

theorem back_of_call {it : Interpreter ρ} (h : it.machine.HoldsBytes) {i : Instruction}
    (hd : it.decode = .ok i) (hop : i.op = .call) {done : Cycled ρ} (hc : it.cycle = .ok done)
    {steps : List Step}
    (hdeep : ∀ some, some <+: steps →
      it.machine.stack.depth.val < (done.next.after some).machine.stack.depth.val)
    {last : Cycled ρ} (hlast : (done.next.after steps).cycle = .ok last)
    (hback : last.next.machine.stack.depth = it.machine.stack.depth) :
    (∃ j, (done.next.after steps).decode = .ok j ∧ j.op = .ret) ∧
      last.next.machine.pc = it.machine.pc + 2 := by
  have hbytes : done.next.machine.HoldsBytes := holdsBytes_cycle h hc
  have hafter := holdsBytes_after hbytes steps
  have hcalled : done.next.machine.stack.addresses =
      it.machine.stack.addresses ++ [it.machine.pc + 2] := by
    rw [addresses_of_cycle h hc hd]
    simp only [Completed.track, hop]
  -- the list goes on with the address behind the call
  have hfront : it.machine.stack.addresses ++ [it.machine.pc + 2] <+:
      (done.next.after steps).machine.stack.addresses := by
    rw [addresses_after steps hbytes]
    refine prefix_openCalls steps (hcalled ▸ List.prefix_refl _) fun some hsome => ?_
    have := hdeep some hsome
    rw [← addresses_after some hbytes, List.length_append, CallStack.length_addresses,
      CallStack.length_addresses, List.length_singleton]
    omega
  obtain ⟨j, hj, -, -, -⟩ := cycle_eq_ok hafter hlast
  have htrack := congrArg List.length (addresses_of_cycle hafter hlast hj)
  have hdeeper := hdeep steps (List.prefix_refl _)
  rw [CallStack.length_addresses, hback] at htrack
  -- only a return makes the list shorter, and then the list was no longer than that
  have hret : j.op = .ret := by
    unfold Completed.track at htrack
    split at htrack
    · rw [List.length_append, CallStack.length_addresses] at htrack
      omega
    · next hret => exact hret
    · rw [CallStack.length_addresses] at htrack
      omega
  simp only [Completed.track, hret, List.length_dropLast, CallStack.length_addresses] at htrack
  have hwhole := hfront.eq_of_length (by
    rw [List.length_append, List.length_singleton, CallStack.length_addresses,
      CallStack.length_addresses]
    omega)
  obtain ⟨last', hlast', hpc⟩ := cycle_ret hafter hj hret (a := it.machine.pc + 2) (by
    rw [← hwhole, List.getLast?_concat])
  obtain rfl := Except.ok.inj (hlast.symm.trans hlast')
  exact ⟨⟨j, hj, hret⟩, hpc⟩

theorem nested {it : Interpreter ρ} (h : it.machine.HoldsBytes) :
    it.Nested it.machine.stack.addresses where
  addresses := rfl
  ret i a hd hop ha := cycle_ret h hd hop ha
  underflow i hd hop := by
    rw [← List.length_eq_zero_iff, CallStack.length_addresses, cycle_eq h, hd]
    have hdepth : it.advance.machine.stack = it.machine.stack := rfl
    simp only [Machine.refusal, hop, hdepth]
    split <;> simp_all
  call i hd hop hroom := by
    rw [CallStack.length_addresses] at hroom
    have hdepth : it.advance.machine.stack.depth.val ≠ 16 := Nat.ne_of_lt hroom
    have hr : it.advance.machine.refusal i = none := by
      simp only [Machine.refusal, hop]
      exact if_neg hdepth
    obtain ⟨done, hc, hnext⟩ := cycle_of_decode h hd hr
    refine ⟨done, hc, ?_⟩
    rw [hnext]
    show it.advance.machine.nextPc i = i.nnn
    simp only [Machine.nextPc, hop]
  overflow i hd hop := by
    rw [CallStack.length_addresses, cycle_eq h, hd]
    have hdepth : it.advance.machine.stack = it.machine.stack := rfl
    simp only [Machine.refusal, hop, hdepth]
    split <;> simp_all
  back i done steps last hd hop hc hdeep hlast hback := back_of_call h hd hop hc hdeep hlast hback

/-- Whatever happens to a machine that is switched on, the calls that are open are nested. Every
history of operations, runs included, is such an execution. -/
theorem calls_are_nested (source : ρ) (steps : List Step) :
    ((powerOn source).after steps).Nested ((powerOn source).openCalls steps []) ∧
      ∀ ops : List Operation, (play Operation.on ops (powerOn source)).2 =
        (powerOn source).after ((powerOn source).stepsOfAll ops) := by
  have hstart : (powerOn source).machine.HoldsBytes := .powerOn
  have hlist := addresses_after steps hstart
  rw [show (powerOn source).machine.stack.addresses = [] from rfl] at hlist
  refine ⟨?_, fun ops => (after_stepsOfAll ops hstart).symm⟩
  rw [← hlist]
  exact nested (holdsBytes_after hstart steps)

end Interpreter

end Chip8
