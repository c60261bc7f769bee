import Chip8.Proofs.Bare.Program

/-!
# What bare programs do to a machine

On the bare state of a machine no index misses its row and no splice changes the length of one, so
each program of the bare machine does there what the operation of the machine does. There is one
equation for each program.
-/

namespace Chip8

namespace Bare

variable {ρ : Type}

theorem run_bind_ok {α β : Type} {x : Prog ρ α} {f : α → Prog ρ β} {s t : State ρ} {a : α}
    (h : x.run s = .ok a t) : (x >>= f).run s = (f a).run t := by
  rw [EStateM.run_bind, h]

theorem run_bind_error {α β : Type} {x : Prog ρ α} {f : α → Prog ρ β} {s t : State ρ} {e : Raised}
    (h : x.run s = .error e t) : (x >>= f).run s = .error e t := by
  rw [EStateM.run_bind, h]

/-- A program that tells in another way what a program returned. -/
theorem run_return {α β : Type} {x : Prog ρ α} {s : State ρ}
    {r : EStateM.Result Raised (State ρ) α} (f : α → β) :
    x.run s = r → (x >>= fun a => pure (f a)).run s =
      match r with
      | .ok a t => .ok (f a) t
      | .error e t => .error e t := by
  rintro rfl
  rw [EStateM.run_bind]
  cases x.run s <;> rfl

theorem run_cell {α : Type} {c : Option α} {a : α} (h : c = some a) (s : State ρ) :
    (cell c).run s = .ok a s := by
  rw [h]
  rfl

/-- A program that checks a range first is broken off, or it may count on the range. -/
theorem run_check_bind {α : Type} {address length : Int} (purpose : String) {p : Unit → Prog ρ α}
    {s : State ρ} {r : EStateM.Result Raised (State ρ) α}
    (h : 0 ≤ address ∧ address + length ≤ 4096 → (p ()).run s = r) :
    (check address length purpose >>= p).run s =
      (Memory.fault? address length purpose).elim r fun f => .error (.fault f) s := by
  rw [check, Memory.check_eq]
  cases hf : Memory.fault? address length purpose with
  | some f => rfl
  | none => exact h (Memory.fault?_eq_none_iff.mp hf)

variable (m : Machine) (source : ρ) (beeps : Nat)

/-! ## Registers and memory -/

theorem run_register {r : Int} (h : 0 ≤ r ∧ r < 16) :
    (register r).run (.of m source beeps) =
      .ok (m.reg (.ofField r)) (.of m source beeps) := by
  have hread : Row.read? m.registers.toList r = some (m.reg (.ofField r)) :=
    Row.read?_toList m.registers (Register.val_ofField h).symm
  simp only [register, EStateM.run_bind, EStateM.run_get]
  exact run_cell hread _

theorem run_setRegister {r : Int} (h : 0 ≤ r ∧ r < 16) (v : Int) :
    (setRegister r v).run (.of m source beeps) =
      .ok () (.of (m.put (.ofField r) v) source beeps) := by
  have hwrite : Row.write? m.registers.toList r v =
      some (m.registers.set (Register.ofField r) v).toList :=
    Row.write?_toList m.registers (Register.val_ofField h).symm v
  simp only [setRegister, EStateM.run_bind, EStateM.run_get, State.of]
  rw [run_cell hwrite]
  rfl

theorem run_setFlag (flag : Bool) :
    (setRegister 15 (if flag then 1 else 0)).run (.of m source beeps) =
      .ok () (.of (m.put .flag (if flag then 1 else 0)) source beeps) :=
  run_setRegister m source beeps (by decide) _

theorem run_setFlagged {r : Int} (h : 0 ≤ r ∧ r < 16) (v : Int) (flag : Bool) :
    (setFlagged r v flag).run (.of m source beeps) =
      .ok () (.of ((m.put (.ofField r) v).putFlag (some flag)) source beeps) := by
  rw [setFlagged, run_bind_ok (run_setRegister m source beeps h v)]
  exact run_setFlag _ source beeps flag

theorem run_byteAt {address : Int} (h : 0 ≤ address ∧ address < 4096) :
    (byteAt address).run (.of m source beeps) =
      .ok (m.memory.byte address.toNat) (.of m source beeps) := by
  simp only [byteAt, EStateM.run_bind, EStateM.run_get]
  exact run_cell (Row.read?_memory m.memory h) _

theorem run_skipIf (c : Bool) :
    (skipIf c).run (.of m source beeps) =
      .ok () (.of { m with pc := if c then m.pc + wordSize else m.pc } source beeps) := by
  cases c <;> rfl

theorem run_toBytes {vs : List Int} (h : ∀ v ∈ vs, 0 ≤ v ∧ v < 256) (s : State ρ) :
    (toBytes vs).run s = .ok (vs.map UInt8.ofInt) s := by
  rw [toBytes, Machine.mapM_byte? h]
  rfl

theorem run_fetch :
    fetch.run (.of m source beeps) =
      (Memory.fault? m.pc 2 "fetch").elim (.ok m.word (.of m source beeps)) fun f =>
        .error (.fault f) (.of m source beeps) := by
  rw [fetch, run_bind_ok (EStateM.run_get _), State.of_pc]
  refine run_check_bind "fetch" fun hpc => ?_
  have hnext : (m.pc + 1).toNat = m.pc.toNat + 1 := by omega
  rw [run_bind_ok (run_byteAt m source beeps (by omega)),
    run_bind_ok (run_byteAt m source beeps (by omega)), hnext]
  rfl

theorem decimalDigits_lt (v : Int) :
    (decimalDigits v).1 < 16 ∧ (decimalDigits v).2.1 < 16 ∧ (decimalDigits v).2.2 < 16 := by
  simp only [decimalDigits]
  omega

theorem ofInt_natCast {n : Nat} (h : n < 256) : UInt8.ofInt n = UInt8.ofNat n := by
  have hn : ((n : Int) % 2 ^ 8).toNat = n := by omega
  rw [UInt8.ofInt, hn]

theorem run_storeDigits {i : Instruction} (hi : i.InRange) (hop : i.op = .ldBcd) :
    (storeDigits i).run (.of m source beeps) =
      (Memory.fault? m.index 3 "BCD write").elim
        (.ok () (.of { m with memory := m.memory.write m.index.toNat (m.stored i) } source beeps))
        fun f => .error (.fault f) (.of m source beeps) := by
  rw [storeDigits, run_bind_ok (EStateM.run_get _), State.of_index]
  refine run_check_bind "BCD write" fun hindex => ?_
  obtain ⟨hhundreds, htens, hones⟩ := decimalDigits_lt (m.reg i.vx)
  have hsmall : ∀ v ∈ [((decimalDigits (m.reg i.vx)).1 : Int),
      ((decimalDigits (m.reg i.vx)).2.1 : Int), ((decimalDigits (m.reg i.vx)).2.2 : Int)],
      0 ≤ v ∧ v < 256 := by
    simp
    omega
  have hbytes := run_toBytes hsmall (.of m source beeps)
  have hstored : m.stored i = [UInt8.ofInt (decimalDigits (m.reg i.vx)).1,
      UInt8.ofInt (decimalDigits (m.reg i.vx)).2.1,
      UInt8.ofInt (decimalDigits (m.reg i.vx)).2.2] := by
    rw [ofInt_natCast (by omega), ofInt_natCast (by omega), ofInt_natCast (by omega)]
    simp only [Machine.stored, hop]
  have hsplice := Row.splice_memory m.memory (m.stored i) (b := m.index + 3) hindex.1
    (by rw [hstored]; rfl) hindex.2
  rw [run_bind_ok (run_register m source beeps hi.x)]
  refine (run_bind_ok hbytes).trans ?_
  rw [EStateM.run_modify, State.of_memory, State.of_index, List.map_cons, List.map_cons,
    List.map_cons, List.map_nil, ← hstored, hsplice]
  rfl

theorem run_storeRegisters (h : m.HoldsBytes) {i : Instruction} (hi : i.InRange)
    (hop : i.op = .storeRegs) :
    (storeRegisters i).run (.of m source beeps) =
      (Memory.fault? m.index (i.x + 1) "register store").elim
        (.ok () (.of { m with memory := m.memory.write m.index.toNat (m.stored i) } source beeps))
        fun f => .error (.fault f) (.of m source beeps) := by
  have hx := hi.x
  obtain ⟨last, hlast⟩ := Int.eq_ofNat_of_zero_le (show 0 ≤ i.x + 1 by omega)
  have hslice : Row.slice m.registers.toList 0 (i.x + 1) = m.registersUpTo i.x := by
    rw [hlast, Row.slice_zero _ (by simp; omega), Machine.registersUpTo, hlast, Int.toNat_natCast]
  have hsmall : ∀ v ∈ m.registersUpTo i.x, 0 ≤ v ∧ v < 256 := fun _ hv =>
    h.mem (List.mem_of_mem_take hv)
  have hbytes := run_toBytes hsmall (.of m source beeps)
  have hstored : m.stored i = (m.registersUpTo i.x).map .ofInt := by
    simp only [Machine.stored, hop]
  rw [storeRegisters, run_bind_ok (EStateM.run_get _), State.of_index]
  refine run_check_bind "register store" fun hindex => ?_
  have hlength : (m.stored i).length = last := by
    rw [hstored, List.length_map, Machine.registersUpTo, List.length_take, Vector.length_toList]
    omega
  have hsplice := Row.splice_memory m.memory (m.stored i) (b := m.index + i.x + 1)
    hindex.1 (by omega) (by omega)
  rw [State.of_registers, hslice, run_bind_ok hbytes, EStateM.run_modify, State.of_memory,
    State.of_index, ← hstored, hsplice]
  rfl

theorem run_loadRegisters {i : Instruction} (hi : i.InRange) (hop : i.op = .loadRegs)
    (random : UInt8) :
    (loadRegisters i).run (.of m source beeps) =
      (Memory.fault? m.index (i.x + 1) "register load").elim
        (.ok () (.of { m with registers := m.nextRegisters i random } source beeps))
        fun f => .error (.fault f) (.of m source beeps) := by
  have hx := hi.x
  obtain ⟨last, hlast⟩ := Int.eq_ofNat_of_zero_le (show 0 ≤ i.x + 1 by omega)
  rw [loadRegisters, run_bind_ok (EStateM.run_get _), State.of_index]
  refine run_check_bind "register load" fun hindex => ?_
  have hslice := Row.slice_memory m.memory (b := m.index + i.x + 1) (k := last) hindex.1
    (by omega) (by omega)
  have hsplice : Row.splice m.registers.toList 0 (i.x + 1)
      ((Row.slice m.memory.toList m.index (m.index + i.x + 1)).map fun b => (b.toNat : Int)) =
      (m.nextRegisters i random).toList := by
    rw [hslice, hlast, Row.splice_zero _ (by simp; omega)]
    refine List.ext_getElem (by simp; omega) fun r h₁ h₂ => ?_
    have hr : r < 16 := by simpa using h₂
    simp only [Machine.nextRegisters, hop, Vector.getElem_toList, Vector.getElem_ofFn]
    by_cases hle : r < last
    · have hread : (r : Int) ≤ i.x := by omega
      rw [if_pos hread, List.getElem_append_left (by simpa using hle)]
      simp
    · have hkept : ¬ (r : Int) ≤ i.x := by omega
      have hidx : last + (r - last) = r := by omega
      rw [if_neg hkept, List.getElem_append_right (by simp; omega)]
      simp [Machine.reg, hidx]
  rw [EStateM.run_modify, State.of_memory, State.of_index, State.of_registers, hsplice]
  rfl

/-! ## The call stack -/

theorem run_push {mask : Mask} {address : Int} (h : mask address = wrap address) :
    (push mask address).run (.of m source beeps) =
      (m.stack.push? address).elim
        (.error (.fault (.stackOverflow m.pc)) (.of m source beeps))
        fun stack => .ok () (.of { m with stack } source beeps) := by
  rw [push, run_bind_ok (EStateM.run_get _), State.of_depth]
  by_cases hd : m.stack.depth.val < 16
  · have hroom : ¬ 16 ≤ (m.stack.depth.val : Int) := by omega
    have hwrite := Row.write?_toList (m.stack.slots.map fun a => (a.toNat : Int))
      (k := ⟨m.stack.depth.val, hd⟩) rfl (address % 65536)
    rw [if_neg hroom, h, State.of_stack, CallStack.push?, dif_pos hd]
    simp only [wrap, ofExcept, pure_bind]
    rw [run_bind_ok (run_cell hwrite _), ← CallStack.toNat_address]
    simp only [EStateM.run_bind, EStateM.run_set, EStateM.run_modify, State.of, Option.elim_some,
      Vector.map_set, Int.natCast_add, Int.natCast_one]
  · have hfull : 16 ≤ (m.stack.depth.val : Int) := by omega
    rw [if_pos hfull, CallStack.push?, dif_neg hd]
    rfl

theorem run_pop :
    pop.run (.of m source beeps) =
      m.stack.pop?.elim (.error (.fault (.stackUnderflow m.pc)) (.of m source beeps))
        fun (address, stack) =>
          .ok (address.toNat : Int) (.of { m with stack } source beeps) := by
  rw [pop, run_bind_ok (EStateM.run_get _), State.of_depth]
  cases hd : m.stack.depth.val with
  | zero =>
    rw [CallStack.pop?_eq_none_iff_depth.mpr hd]
    rfl
  | succ d =>
    have hd16 : d < 16 := by omega
    have hopen : ¬ ((d + 1 : Nat) : Int) = 0 := by omega
    have hless : ((d + 1 : Nat) : Int) - 1 = d := by omega
    have hread := Row.read?_toList (m.stack.slots.map fun a => (a.toNat : Int))
      (k := ⟨d, hd16⟩) rfl
    rw [if_neg hopen, run_bind_ok (EStateM.run_modify _ _), State.of_depth, hd, hless,
      run_bind_ok (EStateM.run_get _), State.of_stack, run_cell hread, CallStack.pop?_of_depth hd]
    simp [State.of]
    rfl

/-! ## Keys -/

theorem run_moveKey (key : Value) (pressed : Bool) :
    (moveKey key pressed).run (.of m source beeps) =
      match Key.resolve key with
      | .ok key => .ok () (.of (m.moveKey key pressed) source beeps)
      | .error e => .error (.key e) (.of m source beeps) := by
  rw [moveKey]
  cases Key.resolve key with
  | error e => rfl
  | ok key =>
    have hwrite := Row.write?_toList m.keys (k := key) rfl pressed
    simp only [Except.mapError_ok, ofExcept, pure_bind]
    rw [run_bind_ok (EStateM.run_get _), State.of_keys, run_bind_ok (run_cell hwrite _)]
    rfl

theorem run_keyDown (v : Int) :
    (keyDown v).run (.of m source beeps) =
      .ok m.keys[Register.ofField v] (.of m source beeps) := by
  have hread := Row.read?_toList m.keys (k := Register.ofField v) rfl
  rw [keyDown, run_bind_ok (EStateM.run_get _), State.of_keys]
  exact run_cell hread _

theorem run_schedule (events : Value) :
    (schedule events).run (.of m source beeps) =
      match KeyEvent.ofValues events with
      | .ok events => .ok () (.of (m.schedule events) source beeps)
      | .error e => .error (.events e) (.of m source beeps) := by
  rw [schedule]
  cases KeyEvent.ofValues events with
  | error e => rfl
  | ok events =>
    have hsort : (KeyEvent.timeline events).map Event.of =
        (events.map Event.of).mergeSort fun a b => a.tick ≤ b.tick :=
      List.map_mergeSort fun a _ b _ => rfl
    simp only [Except.mapError_ok, ofExcept, pure_bind, EStateM.run_modify, State.of,
      Machine.schedule, hsort]

theorem resolve_val (key : Key) : Key.resolve (.int key.val) = .ok key := by
  have hkey : 0 ≤ (key.val : Int) ∧ (key.val : Int) < 16 := by omega
  simp [Key.resolve, Key.ofInt, hkey]

/-- Events are delivered as far as they are due, and those behind them stay. -/
theorem run_deliver (tick : Int) (events : List KeyEvent) (keys : Keypad) :
    (deliver tick (events.map .of)).run (.of { m with keys, pending := events } source beeps) =
      .ok () (.of ({ m with keys, pending := events }.deliver tick) source beeps) := by
  induction events generalizing keys with
  | nil => rfl
  | cons e rest ih =>
    have hmove := run_moveKey { m with keys, pending := rest } source beeps (.int e.key.val)
      e.pressed
    rw [resolve_val] at hmove
    by_cases hdue : e.tick ≤ tick
    · have hstep : ({ m with keys, pending := e :: rest } : Machine).deliver tick =
          { m with keys := keys.put e.key e.pressed, pending := rest }.deliver tick := by
        simp [Machine.deliver, Machine.due, Keypad.deliver, hdue]
      rw [List.map_cons, deliver, Event.of, if_pos hdue, run_bind_ok (EStateM.run_modify _ _),
        hstep, ← ih]
      exact run_bind_ok hmove
    · have hstay : ({ m with keys, pending := e :: rest } : Machine).deliver tick =
          { m with keys, pending := e :: rest } := by
        simp [Machine.deliver, Machine.due, Keypad.deliver, hdue]
      rw [List.map_cons, deliver, Event.of, if_neg hdue, hstay]
      rfl

/-- The first cell of the keys that is set is the lowest key that is down. -/
theorem findIdx?_keys (keys : Keypad) :
    keys.toList.findIdx? id = keys.lowest?.map fun key => key.val := by
  cases hlow : keys.lowest? with
  | none =>
    have hup := List.find?_eq_none.mp hlow
    rw [Option.map_none, List.findIdx?_eq_none_iff]
    intro down hdown
    obtain ⟨k, hk, rfl⟩ := List.getElem_of_mem hdown
    have := hup ⟨k, by simpa using hk⟩ (List.mem_finRange _)
    simpa using this
  | some key =>
    obtain ⟨hdown, k, hk, hkey, hup⟩ := List.find?_eq_some_iff_getElem.mp hlow
    have hk : k = key.val := by rw [← hkey, List.getElem_finRange]; rfl
    rw [Option.map_some, List.findIdx?_eq_some_iff_getElem]
    refine ⟨by simp, by simpa using hdown, fun j hj => ?_⟩
    have := hup j (by omega)
    simpa using this

/-! ## The screen -/

theorem run_clear :
    clear.run (.of m source beeps) = .ok () (.of { m with screen := .blank } source beeps) := by
  rw [clear, EStateM.run_modify]
  rfl

theorem run_toggle (x y : Int) :
    (toggle x y).run (.of m source beeps) =
      .ok (m.screen.lit x y)
        (.of { m with screen := m.screen.toggle (Screen.cell x y) } source beeps) := by
  have hcell : y % 32 * 64 + x % 64 = ((Screen.cell x y).val : Int) := by
    simp only [Screen.cell]
    omega
  have hread := Row.read?_toList m.screen hcell
  have hwrite := Row.write?_toList m.screen hcell (!m.screen[Screen.cell x y])
  rw [toggle, run_bind_ok (EStateM.run_get _), State.of_screen, run_bind_ok (run_cell hread _),
    run_bind_ok (run_cell hwrite _)]
  rfl

/-- Columns are drawn as the cells of the bits that are set are turned over. -/
theorem run_drawBits (x y : Int) (bits : UInt8) (columns : List Nat) (hit : Bool)
    (screen : Screen) :
    (columns.foldlM (drawBit x y bits) hit).run (.of { m with screen } source beeps) =
      let columnsSet := columns.filter fun column => bits.toNat.testBit (7 - column)
      let drawn := screen.toggleAll (columnsSet.map fun column : Nat => Screen.cell (x + column) y)
      .ok (hit || drawn.2) (.of { m with screen := drawn.1 } source beeps) := by
  induction columns generalizing hit screen with
  | nil => simp [Screen.toggleAll]
  | cons column columns ih =>
    rw [List.foldlM_cons, drawBit]
    by_cases hbit : bits.toNat.testBit (7 - column)
    · rw [if_pos hbit, bind_assoc, run_bind_ok (run_toggle _ source beeps _ _), pure_bind, ih]
      simp [hbit, Screen.toggleAll, Screen.lit, Bool.or_assoc]
    · rw [if_neg hbit, pure_bind, ih]
      simp [hbit]

/-- Rows are drawn as their cells are turned over, as long as they lie in memory. -/
theorem run_drawRows (x y : Int) (hindex : 0 ≤ m.index) (rows : List Nat)
    (hrows : ∀ row ∈ rows, m.index + row < 4096) (hit : Bool) (screen : Screen) :
    (rows.foldlM (drawRow x y) hit).run (.of { m with screen } source beeps) =
      let drawn := screen.toggleAll (rows.flatMap fun row =>
        (Machine.spriteColumns (m.memory.byte (m.index.toNat + row))).map fun column : Nat =>
          Screen.cell (x + column) (y + row))
      .ok (hit || drawn.2) (.of { m with screen := drawn.1 } source beeps) := by
  induction rows generalizing hit screen with
  | nil => simp [Screen.toggleAll]
  | cons row rows ih =>
    have hrow := hrows row (by simp)
    have hplace : (m.index + row).toNat = m.index.toNat + row := by omega
    have hplaced : 0 ≤ m.index + row ∧ m.index + row < 4096 := by omega
    have hbyte := run_byteAt { m with screen } source beeps hplaced
    have hbits := run_drawBits m source beeps x (y + row)
      (m.memory.byte (m.index.toNat + row)) (List.range 8) hit screen
    rw [hplace] at hbyte
    rw [List.foldlM_cons, drawRow, bind_assoc, run_bind_ok (EStateM.run_get _), State.of_index,
      bind_assoc, run_bind_ok hbyte, run_bind_ok hbits,
      ih fun row hrow => hrows row (List.mem_cons_of_mem _ hrow)]
    simp [Screen.toggleAll_append, Machine.spriteColumns, Bool.or_assoc]

theorem run_draw {i : Instruction} (hi : i.InRange) :
    (draw i).run (.of m source beeps) =
      (Memory.fault? m.index i.n "sprite read").elim
        (.ok () (.of ({ m with screen := (m.drawn i).1 }.putFlag (some (m.drawn i).2)) source
          beeps))
        fun f => .error (.fault f) (.of m source beeps) := by
  rw [draw, run_bind_ok (EStateM.run_get _), State.of_index]
  refine run_check_bind "sprite read" fun hindex => ?_
  have hn := hi.n
  have hinside : ∀ row ∈ List.range i.n.toNat, m.index + row < 4096 := by
    intro row hrow
    have := List.mem_range.mp hrow
    omega
  have hrows := run_drawRows m source beeps (m.reg i.vx) (m.reg i.vy) hindex.1 _ hinside false
    m.screen
  rw [run_bind_ok (run_register m source beeps hi.x),
    run_bind_ok (run_register m source beeps hi.y)]
  refine (run_bind_ok hrows).trans ?_
  rw [Bool.false_or]
  exact run_setFlag _ source beeps _

end Bare

end Chip8
