import Chip8.Proofs.Run.TwoSources
import Chip8.Proofs.Text.Line

/-!
# What comes of a program

A program with a configuration that has been loaded, and with the lines of a key schedule, either
runs and comes to an end or is refused : its image is too large, or a key is none
(`Program.report_or_refused`). The message of a refusal is one line.

What comes of it depends on the random bytes only if it takes any. So it is told by the image, the
configuration and the key events alone, if these have a seed or the program takes no random number
(`Program.Yields`), whatever files there are and whatever the random bytes without a seed
(`Program.Yields.eq_run`).
-/

namespace Chip8

/-! ## Programs that do not run -/

/-- A line of a schedule is an event, unless its key is none. -/
theorem KeyEvent.ofValue_line (l : Schedule.Line) : KeyEvent.ofValue l.value =
    ((Key.ofText l.key).mapError Error.key).map fun key => ⟨l.tick, key, l.pressed⟩ := by
  show (Key.ofText l.key).mapError Error.key >>= _ = _
  cases Key.ofText l.key <;> rfl

/-- Lines of a schedule are events, unless a key is none. -/
theorem KeyEvent.error_of_lines {lines : List Schedule.Line} {e : Error}
    (h : (lines.map Schedule.Line.value).mapM KeyEvent.ofValue = .error e) :
    ∃ name key, Key.ofText name = .error key ∧ e = .key key := by
  induction lines with
  | nil => contradiction
  | cons l lines ih =>
    rw [List.map_cons, List.mapM_cons, KeyEvent.ofValue_line] at h
    rcases bind_eq_error_iff.mp h with hline | ⟨event, -, h⟩
    · cases hkey : Key.ofText l.key with
      | error key =>
        rw [hkey] at hline
        exact ⟨l.key, key, hkey, (Except.error.inj hline).symm⟩
      | ok key =>
        rw [hkey] at hline
        contradiction
    · rcases bind_eq_error_iff.mp h with hrest | ⟨events, -, h⟩
      · exact ih hrest
      · contradiction

namespace Program

/-- Why a program does not run, and what is said then. -/
inductive Refused : Error → String → Prop
  | tooLarge (size : Nat) :
    Refused (.fault (.loadSize size 3584)) (Fault.loadSize size 3584).message
  | badKey (e : Key.Error) : Refused (.keys (.key e)) e.message

theorem error_of_boot {image : List UInt8} {e : Error} (h : boot image = .error e) :
    e = .fault (.loadSize image.length 3584) := by
  have hcapacity : Memory.capacity = 3584 := rfl
  rw [boot, Machine.load, hcapacity] at h
  split at h
  · exact (Except.error.inj h).symm
  · contradiction

theorem error_of_eventsOf {lines : List Schedule.Line} {e : Error}
    (h : eventsOf (.list (lines.map Schedule.Line.value)) = .error e) :
    ∃ name key, Key.ofText name = .error key ∧ e = .keys (.key key) := by
  unfold eventsOf at h
  split at h
  · cases hevents : KeyEvent.ofValues (.list (lines.map Schedule.Line.value)) with
    | ok events =>
      rw [hevents] at h
      contradiction
    | error e' =>
      rw [hevents] at h
      obtain ⟨name, key, hkey, rfl⟩ := KeyEvent.error_of_lines hevents
      exact ⟨name, key, hkey, (Except.error.inj h).symm⟩
  · contradiction

/-- A program that does not begin to run is refused, and that in one line. -/
theorem refused_start {ρ : Type} {source : ρ} {image : List UInt8} {c : Config}
    {lines : List Schedule.Line} {e : Error}
    (h : start source image c (.list (lines.map Schedule.Line.value)) = .error e) :
    ∃ message, Refused e message ∧ Text.OneLine message := by
  unfold start at h
  rcases bind_eq_error_iff.mp h with hboot | ⟨machine, -, h⟩
  · obtain rfl := error_of_boot hboot
    exact ⟨_, .tooLarge _, Fault.oneLine_loadSize _ _⟩
  · rcases bind_eq_error_iff.mp h with hevents | ⟨events, -, h⟩
    · obtain ⟨name, key, hkey, rfl⟩ := error_of_eventsOf hevents
      exact ⟨_, .badKey key, Key.oneLine_message hkey⟩
    · contradiction

variable {ρ σ : Type} [ByteSource ρ] [ByteSource σ]

/-- A program has a report, or it is refused. -/
theorem report_or_refused (source : ρ) (image : List UInt8) {c : Config} (hvalid : c.Valid)
    (lines : List Schedule.Line) :
    let result := (runWith source image c (.list (lines.map Schedule.Line.value))).result
    (∃ r, result = .ok r) ∨
      ∃ e message, result = .error e ∧ Refused e message ∧ Text.OneLine message := by
  intro result
  cases hstart : start source image c (.list (lines.map Schedule.Line.value)) with
  | ok it =>
    obtain ⟨ending, hreport⟩ := report_of_start hvalid hstart
    exact Or.inl ⟨_, hreport⟩
  | error e =>
    obtain ⟨message, he, hline⟩ := refused_start hstart
    have hresult : result = .error e := by
      show (runWith source image c _).result = _
      rw [result_runWith, hstart]
      rfl
    exact Or.inr ⟨e, message, hresult, he, hline⟩

/-! ## Programs that take no random number -/

/-- A program never takes a random number. -/
def NeverRandom (source : ρ) (image : List UInt8) (c : Config) (keys : Value) : Prop :=
  ∀ it, start source image c keys = .ok it →
    ∀ done ∈ it.seen Step.completed it.runTurns.flatten, done.instruction.op ≠ .rnd

/-- What comes of a program that is handed in. Without a seed the random bytes may be any, and only
a program that takes none has an outcome. -/
inductive Yields (image : List UInt8) (config keys : Value) : Except Error Report → Prop
  | seeded {files : FileTree} {c : Config} {seed : Int}
    (hload : Config.load files config = .ok c) (hseed : c.seed = some seed) :
    Yields image config keys (run files image config keys).result
  | unseeded {files : FileTree} {c : Config} {ρ : Type} [ByteSource ρ] (source : ρ)
    (hload : Config.load files config = .ok c) (hnever : NeverRandom source image c keys) :
    Yields image config keys (runWith source image c keys).result

/-- The same comes of a program that takes no random number, whatever the random bytes are. -/
theorem result_withSource {source : ρ} {image : List UInt8} {c : Config} {keys : Value}
    (hvalid : c.Valid) (hnever : NeverRandom source image c keys) (other : σ) :
    (runWith other image c keys).result = (runWith source image c keys).result := by
  rw [result_runWith, result_runWith, start_withSource source other]
  cases hstart : start source image c keys with
  | error e => rfl
  | ok it =>
    have hframe := cyclesPerFrame_start hvalid hstart
    refine report_withSource (holdsBytes_start hstart) (Int.ne_of_gt hframe) (fun done hdone => ?_)
      other
    simp [Completed.showsRandom, hnever it hstart done hdone]

/-- A program runs under the entries of a configuration as under the configuration. -/
theorem run_entries {c : Config} (hagain : Config.ofEntries c.entries = .ok c) (files : FileTree)
    (image : List UInt8) (keys : Value) (fresh : Twister) :
    run files image (.map c.entries) keys fresh =
      runWith (Program.source c fresh) image c keys := by
  have hload : Config.load files (.map c.entries) = .ok c := hagain
  exact run_of_load hload image keys fresh

/-- A seed is all that the random bytes depend on. -/
theorem source_of_seed {c : Config} {seed : Int} (hseed : c.seed = some seed) (fresh : Twister) :
    Program.source c fresh = .ofSeed seed := by
  rw [Program.source, hseed]
  rfl

/-- Under a configuration that has been loaded there is one outcome, whatever files there are and
whatever the random bytes of a run without a seed. -/
theorem Yields.eq_run {image : List UInt8} {c : Config} {keys : Value}
    {result : Except Error Report} (h : Yields image (.map c.entries) keys result)
    (hagain : Config.ofEntries c.entries = .ok c) (files : FileTree) (fresh : Twister) :
    (run files image (.map c.entries) keys fresh).result = result := by
  cases h with
  | seeded hload hseed =>
    obtain rfl := Except.ok.inj (hagain.symm.trans hload)
    rw [run_entries hagain, run_entries hagain, source_of_seed hseed, source_of_seed hseed]
  | unseeded source hload hnever =>
    obtain rfl := Except.ok.inj (hagain.symm.trans hload)
    rw [run_entries hagain]
    exact result_withSource (Config.valid_of_ofEntries hagain) hnever _

end Program

end Chip8
