import Chip8.Proofs.Run.Program
import Chip8.Proofs.Run.Randomness

/-!
# Runs with two sources of random bytes

Two interpreters that differ in nothing but their sources (`Interpreter.Alike`) take the same steps
to machines that are the same, until a random number shows its byte (`Completed.showsRandom`). This
is so for one cycle (`Interpreter.cycle_withSource`) and one operation
(`Interpreter.operation_withSource`). What is so for some steps and then for some more is so for all
of them (`Interpreter.Agrees.append`), so it holds of the turns of a run by induction on their
number, and of a history by induction on its operations.
`Program.random_bytes_do_not_interfere` adds the account of the bytes.
-/

namespace Chip8

/-- Whether an instruction is a random number whose mask lets bits of its byte through. -/
def Completed.showsRandom (c : Completed) : Bool :=
  c.instruction.op = .rnd ∧ c.instruction.nn ≠ 0

namespace Interpreter

variable {ρ σ : Type} [ByteSource ρ] [ByteSource σ]

/-- No random number is completed that shows its byte. -/
def Unaffected (it : Interpreter ρ) (steps : List Step) : Prop :=
  ∀ c ∈ it.seen Step.completed steps, c.showsRandom = false

/-! ## One cycle -/

/-- The interpreter with another source of random bytes. -/
def withSource (it : Interpreter ρ) (source : σ) : Interpreter σ := { it with source }

/-- Two interpreters differ in nothing but their sources of random bytes. -/
structure Alike (it : Interpreter ρ) (jt : Interpreter σ) : Prop where
  machine : jt.machine = it.machine
  settings : jt.settings = it.settings
  beeps : jt.beeps = it.beeps

omit [ByteSource ρ] [ByteSource σ] in
theorem alike_withSource (it : Interpreter ρ) (source : σ) : it.Alike (it.withSource source) :=
  ⟨rfl, rfl, rfl⟩

omit [ByteSource ρ] [ByteSource σ] in
theorem Alike.eq_withSource {it : Interpreter ρ} {jt : Interpreter σ} (h : it.Alike jt) :
    jt = it.withSource jt.source := by
  obtain ⟨machine, settings, source, beeps⟩ := jt
  obtain ⟨rfl, rfl, rfl⟩ := h
  rfl

theorem completes?_withSource {it : Interpreter ρ} (h : it.machine.HoldsBytes) (source : σ) :
    (it.withSource source).completes? = it.completes? := by
  have h' : (it.withSource source).machine.HoldsBytes := h
  have hdecode : (it.withSource source).decode = it.decode := rfl
  rw [completes?, completes?, cycle_eq h, cycle_eq h', hdecode]
  cases it.decode with
  | error f => rfl
  | ok i =>
    have hrefusal : (it.withSource source).advance.machine.refusal i =
        it.advance.machine.refusal i := rfl
    simp only [hrefusal]
    cases it.advance.machine.refusal i <;> rfl

/-- A cycle does the same for another source if it shows no random byte. -/
theorem cycle_withSource {it : Interpreter ρ} (h : it.machine.HoldsBytes)
    (hun : it.Unaffected [.cycle]) (source : σ) :
    (∃ f, it.cycle = .error (.fault f) ∧ (it.withSource source).cycle = .error (.fault f)) ∨
      ∃ done source', it.cycle = .ok done ∧ (it.withSource source).cycle =
        .ok ⟨done.state, done.next.withSource source', done.log⟩ := by
  have h' : (it.withSource source).machine.HoldsBytes := h
  have hdecode : (it.withSource source).decode = it.decode := rfl
  have hrefusal (i : Instruction) : (it.withSource source).advance.machine.refusal i =
      it.advance.machine.refusal i := rfl
  rw [cycle_eq h, cycle_eq h', hdecode]
  cases hd : it.decode with
  | error f => exact Or.inl ⟨f, rfl, rfl⟩
  | ok i =>
    simp only [hrefusal]
    cases hr : it.advance.machine.refusal i with
    | some f => exact Or.inl ⟨f, rfl, rfl⟩
    | none =>
      have hi : it.completes? = some i := by
        rw [completes?, cycle_eq h, hd]
        simp only [hr]
        rfl
      have hmask : i.op = .rnd → i.nn = 0 := by
        simpa [Unaffected, Step.completed_of_some hi, Completed.showsRandom] using hun
      have hexecuted : (it.withSource source).advance.executed i =
          (it.advance.executed i).withSource ((it.withSource source).draw i).2 := by
        have hsame := it.advance.machine.effect_congr hmask
          ((it.withSource source).advance.draw i).1 (it.advance.draw i).1
        rw [executed, executed, ← hsame]
        rfl
      refine Or.inr ⟨_, ((it.withSource source).draw i).2, rfl, ?_⟩
      rw [hexecuted]
      rfl

theorem turnSteps_withSource {it : Interpreter ρ} (h : it.machine.HoldsBytes) (source : σ) :
    (it.withSource source).turnSteps = it.turnSteps := by
  have hbytes : it.deliverDue.machine.HoldsBytes := h.deliver _
  have hbytes' : (it.withSource source).deliverDue.machine.HoldsBytes := hbytes
  have hcompletes : (it.withSource source).deliverDue.completes? = it.deliverDue.completes? :=
    completes?_withSource hbytes source
  rw [turnSteps, turnSteps, closing_eq hbytes, closing_eq hbytes', hcompletes]
  rfl

theorem unaffected_append {it : Interpreter ρ} {steps more : List Step} :
    it.Unaffected (steps ++ more) ↔ it.Unaffected steps ∧ (it.after steps).Unaffected more := by
  simp [Unaffected, or_imp, forall_and]

theorem unaffected_turnSteps {it : Interpreter ρ} :
    it.Unaffected it.turnSteps ↔ it.deliverDue.Unaffected [.cycle] := by
  have hseen : it.seen Step.completed it.turnSteps = Step.cycle.completed it.deliverDue :=
    seen_turnSteps (fun _ => rfl) (fun _ => rfl) it
  rw [Unaffected, Unaffected, hseen, seen_cons, seen_nil, List.append_nil]

omit [ByteSource ρ] [ByteSource σ] in
theorem onward_withSource (it : Interpreter ρ) (source : σ) :
    (it.withSource source).onward = it.onward.withSource source := by
  have hends : (it.withSource source).nextTick.frameEnds = it.nextTick.frameEnds := rfl
  rw [onward, onward, hends]
  split <;> rfl

theorem beat_withSource {it : Interpreter ρ} (h : it.machine.HoldsBytes)
    (hun : it.Unaffected it.turnSteps) (source : σ) :
    ∃ source', (it.withSource source).beat =
      it.beat.map fun p => (p.1, p.2.withSource source') := by
  have hdue : (it.withSource source).deliverDue = it.deliverDue.withSource source := rfl
  rw [beat, beat, hdue]
  rcases cycle_withSource (h.deliver _) (unaffected_turnSteps.mp hun) source with
    ⟨f, hc, hc'⟩ | ⟨done, source', hc, hc'⟩
  · exact ⟨source, by rw [hc, hc']; rfl⟩
  · exact ⟨source', by simp [hc, hc', onward_withSource]⟩

/-- The steps of an interpreter are those of another one until a random number shows its byte. -/
structure Agrees (it : Interpreter ρ) (steps others : List Step) : Prop where
  front : ∀ front, front <+: steps → it.Unaffected front → front <+: others
  whole : it.Unaffected steps → others = steps

namespace Agrees

theorem refl (it : Interpreter ρ) (steps : List Step) : it.Agrees steps steps :=
  ⟨fun _ h _ => h, fun _ => rfl⟩

theorem append {it : Interpreter ρ} {steps more others rest : List Step}
    (hsteps : it.Agrees steps others)
    (hmore : it.Unaffected steps → (it.after steps).Agrees more rest) :
    it.Agrees (steps ++ more) (others ++ rest) where
  front front hfront hun := by
    rcases List.prefix_or_prefix_of_prefix hfront (List.prefix_append steps more) with hin | hout
    · exact (hsteps.front front hin hun).trans (List.prefix_append _ _)
    · obtain ⟨between, rfl⟩ := hout
      obtain ⟨hun, hbetween⟩ := unaffected_append.mp hun
      have hprefix := (List.prefix_append_right_inj steps).mp hfront
      rw [hsteps.whole hun]
      exact (List.prefix_append_right_inj steps).mpr ((hmore hun).front between hprefix hbetween)
  whole hun := by
    obtain ⟨hun, hrest⟩ := unaffected_append.mp hun
    rw [hsteps.whole hun, (hmore hun).whole hrest]

end Agrees

/-- The turns that are taken are those for another source until a random number shows its byte. -/
theorem agrees_turns {it : Interpreter ρ} (h : it.machine.HoldsBytes)
    (hframe : it.settings.cyclesPerFrame ≠ 0) (n : Nat) (source : σ) :
    it.Agrees (it.turns n).flatten ((it.withSource source).turns n).flatten := by
  induction n generalizing it source with
  | zero => exact .refl it []
  | succ n ih =>
    have h' : (it.withSource source).machine.HoldsBytes := h
    have hpauses : (it.withSource source).pauses = it.pauses := rfl
    rw [turns_succ h hframe, turns_succ h' hframe, hpauses, turnSteps_withSource h]
    split
    · exact .refl it []
    · rw [List.flatten_cons, List.flatten_cons]
      refine (Agrees.refl it it.turnSteps).append fun hun => ?_
      obtain ⟨source', hb'⟩ := beat_withSource h hun source
      rw [hb', after_turnSteps h]
      cases hb : it.beat with
      | none => exact .refl _ []
      | some p =>
        obtain ⟨state, next⟩ := p
        exact ih (holdsBytes_beat h hb) (settings_beat h hb ▸ hframe) source'

/-- A run ends alike for another source, if no random number shows its byte. -/
theorem course_withSource {it : Interpreter ρ} (h : it.machine.HoldsBytes)
    (hframe : it.settings.cyclesPerFrame ≠ 0) (last : CycleState) (n : Nat)
    (hun : it.Unaffected (it.turns n).flatten) (source : σ) :
    ∃ source', (it.withSource source).course last n =
      ((it.course last n).1, (it.course last n).2.withSource source') := by
  induction n generalizing it last source with
  | zero => exact ⟨source, rfl⟩
  | succ n ih =>
    have hpauses : (it.withSource source).pauses = it.pauses := rfl
    rw [turns_succ h hframe] at hun
    rw [course, course, hpauses]
    split at hun
    · next hp => exact ⟨source, by rw [if_pos hp, if_pos hp]⟩
    · next hp =>
      rw [List.flatten_cons, unaffected_append, after_turnSteps h] at hun
      obtain ⟨source', hb'⟩ := beat_withSource h hun.1 source
      rw [if_neg hp, if_neg hp, hb']
      cases hb : it.beat with
      | none => exact ⟨source, rfl⟩
      | some p =>
        obtain ⟨state, next⟩ := p
        have hrest := hun.2
        rw [hb] at hrest
        exact ih (holdsBytes_beat h hb) (settings_beat h hb ▸ hframe) state hrest source'

/-- An operation returns and leaves the same for another source, if no random number shows its
byte. -/
theorem operation_withSource (o : Operation) {it : Interpreter ρ} (h : it.machine.HoldsBytes)
    (hun : it.Unaffected (it.stepsOf o)) (source : σ) :
    ∃ source', o.on.run (it.withSource source) = along (·.withSource source') (o.on.run it) := by
  cases o with
  | cycle =>
    simp only [Operation.on, EStateM.run]
    rcases cycle_withSource h hun source with ⟨f, hc, hc'⟩ | ⟨done, source', hc, hc'⟩
    · exact ⟨source, by rw [hc, hc']; rfl⟩
    · exact ⟨source', by rw [hc, hc']; rfl⟩
  | run settings frame =>
    have hset : ({ it with settings } : Interpreter ρ).machine.HoldsBytes := h
    have hset' : (({ it with settings } : Interpreter ρ).withSource source).machine.HoldsBytes := h
    have hturns : ({ it with settings } : Interpreter ρ).Unaffected
        ({ it with settings } : Interpreter ρ).runTurns.flatten := hun
    obtain ⟨source', hcourse⟩ :=
      course_withSource hset (Int.ne_of_gt frame) .running _ hturns source
    refine ⟨source', ?_⟩
    show conclude (({ it with settings } : Interpreter ρ).withSource source).run =
      along _ (conclude ({ it with settings } : Interpreter ρ).run)
    have hleft : (({ it with settings } : Interpreter ρ).withSource source).ticksLeft =
        ({ it with settings } : Interpreter ρ).ticksLeft := rfl
    rw [conclude_run hset frame, conclude_run hset' frame, hleft, hcourse]
    rfl
  | load image =>
    simp only [Operation.on, EStateM.run]
    refine ⟨source, ?_⟩
    show (it.withSource source).change (it.machine.load image) = _
    cases it.machine.load image <;> rfl
  | moveKey key pressed =>
    simp only [Operation.on, EStateM.run]
    refine ⟨source, ?_⟩
    cases Key.resolve key <;> rfl
  | schedule events =>
    simp only [Operation.on, EStateM.run]
    refine ⟨source, ?_⟩
    cases KeyEvent.ofValues events <;> rfl
  | reset | tickTimers | deliver | toggle | clear => exact ⟨source, rfl⟩

/-- A step leads to the same for another source, if it does not show a byte. -/
theorem on_withSource (s : Step) {it : Interpreter ρ} (h : it.machine.HoldsBytes)
    (hun : it.Unaffected [s]) (source : σ) :
    ∃ source', s.on (it.withSource source) = (s.on it).withSource source' := by
  cases s with
  | set | nextTick | endFrame => exact ⟨source, rfl⟩
  | call o brief =>
    have hsteps : it.stepsOf o = [.call o brief] := by
      unfold stepsOf
      split
      · rfl
      · simp_all
    obtain ⟨source', hrun⟩ := operation_withSource o h (hsteps ▸ hun) source
    refine ⟨source', ?_⟩
    rw [Step.on, hrun, left_along]
    rfl

/-- Steps lead to interpreters that are alike, if no random number shows its byte. -/
theorem Alike.after {it : Interpreter ρ} {jt : Interpreter σ} (halike : it.Alike jt)
    (h : it.machine.HoldsBytes) {steps : List Step} (hun : it.Unaffected steps) :
    (it.after steps).Alike (jt.after steps) := by
  induction steps generalizing it jt with
  | nil => exact halike
  | cons s steps ih =>
    have hcons : it.Unaffected ([s] ++ steps) := hun
    obtain ⟨hs, hrest⟩ := unaffected_append.mp hcons
    obtain ⟨source', hon⟩ := on_withSource s h hs jt.source
    rw [halike.eq_withSource, after_cons, after_cons, hon]
    exact ih (alike_withSource _ _) (holdsBytes_on s h) hrest

/-- An operation takes the same steps for another source until a random number shows its byte. -/
theorem agrees_stepsOf (o : Operation) {it : Interpreter ρ} (h : it.machine.HoldsBytes)
    (source : σ) : it.Agrees (it.stepsOf o) ((it.withSource source).stepsOf o) := by
  cases o with
  | run settings frame =>
    have hset : ({ it with settings } : Interpreter ρ).machine.HoldsBytes := h
    exact (Agrees.refl it [.set settings]).append fun _ =>
      agrees_turns hset (Int.ne_of_gt frame) _ source
  | _ => exact .refl it _

/-- So does a history of operations. -/
theorem agrees_stepsOfAll (ops : List Operation) {it : Interpreter ρ} (h : it.machine.HoldsBytes)
    (source : σ) : it.Agrees (it.stepsOfAll ops) ((it.withSource source).stepsOfAll ops) := by
  induction ops generalizing it source with
  | nil => exact .refl it []
  | cons o ops ih =>
    refine (agrees_stepsOf o h source).append fun hun => ?_
    obtain ⟨source', hrun⟩ := operation_withSource o h hun source
    rw [hrun, left_along, after_stepsOf h]
    exact ih (o.holdsBytes h) source'

/-- A history has the same answers for another source, if no random number shows its byte. -/
theorem answers_withSource (ops : List Operation) {it : Interpreter ρ} (h : it.machine.HoldsBytes)
    (hun : it.Unaffected (it.stepsOfAll ops)) (source : σ) :
    (play Operation.on ops (it.withSource source)).1 = (play Operation.on ops it).1 := by
  induction ops generalizing it source with
  | nil => rfl
  | cons o ops ih =>
    obtain ⟨hun, hrest⟩ := unaffected_append.mp hun
    rw [after_stepsOf h] at hrest
    obtain ⟨source', hrun⟩ := operation_withSource o h hun source
    simp only [play, hrun, answer_along, left_along, ih (o.holdsBytes h) hrest]

/-- Two interpreters go the same way until a random number shows its byte. -/
structure SameUntilRandom (it : Interpreter ρ) (jt : Interpreter σ) : Prop where
  /-- As far as none does, their runs take the same steps, to machines that are the same. -/
  run : ∀ steps, steps <+: it.runTurns.flatten → it.Unaffected steps →
    steps <+: jt.runTurns.flatten ∧ (it.after steps).Alike (jt.after steps)
  /-- So do operations, runs that are taken up again among them. -/
  history : ∀ ops steps, steps <+: it.stepsOfAll ops → it.Unaffected steps →
    steps <+: jt.stepsOfAll ops ∧ (it.after steps).Alike (jt.after steps)
  /-- Operations have the same answers if none does in all their steps. -/
  answers : ∀ ops, it.Unaffected (it.stepsOfAll ops) →
    (play Operation.on ops jt).1 = (play Operation.on ops it).1

theorem Alike.sameUntilRandom {it : Interpreter ρ} {jt : Interpreter σ} (halike : it.Alike jt)
    (h : it.machine.HoldsBytes) (hframe : 0 < it.settings.cyclesPerFrame) :
    it.SameUntilRandom jt := by
  have hsource := halike.eq_withSource
  refine ⟨fun steps hsteps hun => ⟨?_, halike.after h hun⟩,
    fun ops steps hsteps hun => ⟨?_, halike.after h hun⟩, fun ops hun => ?_⟩
  · rw [hsource]
    exact (agrees_turns h (Int.ne_of_gt hframe) _ jt.source).front steps hsteps hun
  · rw [hsource]
    exact (agrees_stepsOfAll ops h jt.source).front steps hsteps hun
  · rw [hsource]
    exact answers_withSource ops h hun jt.source

end Interpreter

namespace Program

variable {ρ σ : Type} [ByteSource ρ] [ByteSource σ]

omit [ByteSource ρ] [ByteSource σ] in
/-- A program begins to run in the same way whatever its source. -/
theorem start_withSource (source : ρ) (other : σ) (image : List UInt8) (c : Config)
    (keys : Value) :
    start other image c keys = (start source image c keys).map (·.withSource other) := by
  rw [start, start]
  cases boot image with
  | error e => rfl
  | ok machine =>
    cases eventsOf keys with
    | error e => rfl
    | ok events => rfl

/-- A run tells the same for another source, if no random number shows its byte. -/
theorem report_withSource {it : Interpreter ρ} (h : it.machine.HoldsBytes)
    (hframe : it.settings.cyclesPerFrame ≠ 0) (hun : it.Unaffected it.runTurns.flatten)
    (other : σ) : report (it.withSource other).run = report it.run := by
  have h' : (it.withSource other).machine.HoldsBytes := h
  obtain ⟨hending, hfinal⟩ := Interpreter.runFor_eq_course h hframe .running #[] it.ticksLeft
  obtain ⟨hending', hfinal'⟩ := Interpreter.runFor_eq_course h' hframe .running #[] it.ticksLeft
  obtain ⟨other', hcourse⟩ := Interpreter.course_withSource h hframe .running _ hun other
  rw [hcourse] at hending' hfinal'
  have hrun : it.run = Interpreter.runFor .running #[] it.ticksLeft it := rfl
  have hrun' : (it.withSource other).run =
      Interpreter.runFor .running #[] it.ticksLeft (it.withSource other) := rfl
  rw [report, report, hrun, hrun', hending, hending', hfinal, hfinal']
  rfl

/-- A program runs under a configuration that is loaded, with any source of random bytes. The random
numbers of any steps from its beginning on, those of its run and of whatever is called after it, get
the bytes of the source in their order, and nothing else takes one. With another source the program
begins to run likewise and goes the same way until a random number shows its byte. If none does in
its run, the same comes of it. -/
theorem random_bytes_do_not_interfere (source : ρ) (other : σ) (files : FileTree)
    (image : List UInt8) (config keys : Value) {c : Config}
    (hconfig : Config.load files config = .ok c) :
    (∀ it, start source image c keys = .ok it → it.source = source ∧
      it.run.final = it.after it.runTurns.flatten ∧ (∀ steps, it.DrawsInOrder steps) ∧
      ∃ jt, start other image c keys = .ok jt ∧ jt.source = other ∧ it.SameUntilRandom jt) ∧
    ((∀ it, start source image c keys = .ok it → it.Unaffected it.runTurns.flatten) →
      (runWith source image c keys).result = (runWith other image c keys).result) := by
  have hvalid := Config.valid_of_load hconfig
  have hother := start_withSource source other image c keys
  refine ⟨fun it hstart => ?_, fun hun => ?_⟩
  · have h := holdsBytes_start hstart
    have hframe := cyclesPerFrame_start hvalid hstart
    have hsource : it.source = source := by
      obtain ⟨memory, pending, rfl⟩ := start_eq_ok hstart
      rfl
    rw [hstart] at hother
    exact ⟨hsource, Interpreter.final_run h hframe, Interpreter.drawsInOrder h,
      it.withSource other, hother, rfl, (it.alike_withSource other).sameUntilRandom h hframe⟩
  · rw [result_runWith, result_runWith, hother]
    cases hstart : start source image c keys with
    | error e => rfl
    | ok it =>
      have hframe := cyclesPerFrame_start hvalid hstart
      exact (report_withSource (holdsBytes_start hstart) (Int.ne_of_gt hframe) (hun it hstart)
        other).symm

/-- A program that takes a random number under no mask and then one under a mask of four bits. -/
theorem random_bytes_of_two_tapes :
    let image : List UInt8 := [0xC0, 0x00, 0xC1, 0x0F, 0x12, 0x04]
    let c : Config := {}
    let start : Interpreter CyclicTape := {
      machine := { Machine.powerOn with
        memory := Machine.powerOn.memory.write Memory.programStart image }
      settings := settings c
      source := .ofList [0x12, 0x34] }
    (Config.load {} .null = .ok c ∧
      Program.start (.ofList [0x12, 0x34] : CyclicTape) image c .null = .ok start) ∧
      (∀ steps, start.DrawsInOrder steps) ∧
      start.SameUntilRandom (start.withSource (.ofList [0xFF] : CyclicTape)) := by
  intro image c start
  have hconfig : Config.load {} .null = .ok c := rfl
  have hstart : Program.start (.ofList [0x12, 0x34] : CyclicTape) image c .null = .ok start := rfl
  have hprogram := (random_bytes_do_not_interfere (CyclicTape.ofList [0x12, 0x34])
    (CyclicTape.ofList [0xFF]) {} image .null .null hconfig).1
  obtain ⟨-, -, hdraws, jt, hjt, -, hsame⟩ := hprogram start hstart
  obtain rfl : start.withSource (CyclicTape.ofList [0xFF]) = jt := Except.ok.inj hjt
  exact ⟨⟨hconfig, hstart⟩, hdraws, hsame⟩

end Program

end Chip8
