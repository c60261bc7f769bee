import Chip8.Run.Program

/-!
# The normal form of a configuration

A mapping is laid over the defaults, its settings are read, and what else it holds is kept. A
configuration that comes out of this is the normal form of the mapping (`Config.Normalizes`), and
one comes out if and only if there is a normal form (`Config.ofEntries_eq_ok_iff`). Its numbers are
in their ranges (`Config.Valid`).

A normal form written out as a mapping again is its own normal form (`Config.Normalizes.entries`),
so it can be loaded once more and nothing changes. This and where the mapping comes from is put
together in `Config.load_yields_normal_form`.
-/

namespace Chip8

/-- A computation of two parts gives a result if both of them do. -/
theorem bind_eq_ok_iff {α β ε : Type} {x : Except ε α} {f : α → Except ε β} {b : β} :
    x >>= f = .ok b ↔ ∃ a, x = .ok a ∧ f a = .ok b := by
  cases x with
  | error e => simp [bind, Except.bind]
  | ok a => simp [bind, Except.bind]

/-- A computation of two parts fails in one of them. -/
theorem bind_eq_error_iff {α β ε : Type} {x : Except ε α} {f : α → Except ε β} {e : ε} :
    x >>= f = .error e ↔ x = .error e ∨ ∃ a, x = .ok a ∧ f a = .error e := by
  cases x with
  | error e' => simp [bind, Except.bind]
  | ok a => simp [bind, Except.bind]

/-- A computation that checks something first gives a result if the check is passed. -/
theorem check_eq_ok_iff {α ε : Type} {p : Prop} [Decidable p] {e : ε} {x : Except ε α} {a : α} :
    (if p then (do (throw e : Except ε Unit); x) else x) = .ok a ↔ ¬ p ∧ x = .ok a := by
  by_cases hp : p
  · simp [hp, throw, throwThe, MonadExceptOf.throw, bind, Except.bind]
  · simp [hp]

/-- A computation that checks something first fails in the check or behind it. -/
theorem check_eq_error_iff {α ε : Type} {p : Prop} [Decidable p] {e e' : ε} {x : Except ε α} :
    (if p then (do (throw e : Except ε Unit); x) else x) = .error e' ↔
      p ∧ e = e' ∨ ¬ p ∧ x = .error e' := by
  by_cases hp : p
  · simp [hp, throw, throwThe, MonadExceptOf.throw, bind, Except.bind]
  · simp [hp]

namespace Config

/-- The numbers of a configuration are in their ranges. -/
structure Valid (c : Config) : Prop where
  cyclesPerFrame : 0 < c.cyclesPerFrame
  tickLimit : 0 < c.tickLimit
  pauseTick : ∀ tick, c.pauseTick = some tick → 0 ≤ tick

/-- The value of a setting in a mapping laid over the defaults. -/
def setting (given : List (Value × Value)) (name : String) : Value :=
  (Value.lookup? given name).getD ((Value.lookup? ({} : Config).entries name).getD .null)

/-- A value is read as an integer, or it is the empty value. -/
def Reads (v : Value) : Option Int → Prop
  | some i => v.toInt = .ok i
  | none => v = .null

/-- A configuration is the normal form of a mapping : the mapping laid over the defaults, with the
settings read and in their ranges. -/
structure Normalizes (given : List (Value × Value)) (c : Config) : Prop extends c.Valid where
  cycles : (setting given "cycles_per_frame").toInt = .ok c.cyclesPerFrame
  limit : (setting given "tick_limit").toInt = .ok c.tickLimit
  pause : Reads (setting given "pause_tick") c.pauseTick
  seed : Reads (setting given "seed") c.seed
  lenient : setting given "lenient_log" = .bool c.lenientLog
  /-- What is no setting is carried over as it is, and nothing is added. -/
  extra : c.extra = given.filter fun e => !isSetting e.1

/-- Where the mapping of a configuration comes from : nowhere, from the user, or from a file whose
document is one. -/
inductive Supplies (files : FileTree) : Value → List (Value × Value) → Prop
  | nothing : Supplies files .null []
  | mapping (given : List (Value × Value)) : Supplies files (.map given) given
  | file {path text : String} {bytes : List UInt8} {given : List (Value × Value)}
    (hread : files.read path = .ok bytes) (hdecode : Text.Utf8.decode? bytes = some text)
    (hdoc : Yaml.Document.read text.toList = .ok (.map given)) : Supplies files (.text path) given

/-! ## Settings -/

theorem conversion_eq_ok_iff {α : Type} {r : Except IntError α} {a : α} :
    r.mapError Error.conversion = .ok a ↔ r = .ok a := by
  cases r <;> simp

section Setting

variable {given : List (Value × Value)} {name : String}

theorem intSetting_iff {default i : Int} :
    intSetting given name default = .ok i ↔
      ((Value.lookup? given name).getD (.int default)).toInt = .ok i := by
  unfold intSetting
  cases Value.lookup? given name with
  | none => simp [Value.toInt]
  | some v => exact conversion_eq_ok_iff

theorem optionalSetting_iff {i : Option Int} :
    optionalSetting given name = .ok i ↔ Reads ((Value.lookup? given name).getD .null) i := by
  unfold optionalSetting
  cases Value.lookup? given name with
  | none => cases i <;> simp [Reads, Value.toInt]
  | some v =>
    by_cases hnull : v = .null
    · cases i <;> simp [hnull, Reads, Value.toInt]
    · simp only [Option.getD_some, conversion_eq_ok_iff]
      cases hv : v.toInt <;> cases i <;> simp [hv, hnull, Reads, Except.map]

theorem boolSetting_iff {b : Bool} :
    boolSetting given name = .ok b ↔ (Value.lookup? given name).getD (.bool false) = .bool b := by
  unfold boolSetting
  cases Value.lookup? given name with
  | none => simp
  | some v => cases v <;> simp

end Setting

/-- What a mapping gives is its normal form. It gives none if a setting is not read or not in its
range. -/
theorem ofEntries_eq_ok_iff {given : List (Value × Value)} {c : Config} :
    ofEntries given = .ok c ↔ Normalizes given c := by
  simp only [ofEntries, bind_eq_ok_iff, intSetting_iff, optionalSetting_iff, boolSetting_iff,
    check_eq_ok_iff]
  constructor
  · rintro ⟨cycles, hcycles, limit, hlimit, pause, hpause, seed, hseed, hframe, hticks, htick,
      lenient, hlenient, hc⟩
    obtain rfl := Except.ok.inj hc
    have htick : ∀ tick, pause = some tick → 0 ≤ tick := by
      rintro tick rfl
      simpa using htick
    exact ⟨⟨Int.not_le.mp hframe, Int.not_le.mp hticks, htick⟩, hcycles, hlimit, hpause, hseed,
      hlenient, rfl⟩
  · intro h
    have htick : ¬ c.pauseTick.any (· < 0) = true := by
      have hpause := h.pauseTick
      cases hc : c.pauseTick with
      | none => simp
      | some tick => simpa using hpause tick hc
    refine ⟨_, h.cycles, _, h.limit, _, h.pause, _, h.seed, Int.not_le.mpr h.cyclesPerFrame,
      Int.not_le.mpr h.tickLimit, htick, _, h.lenient, ?_⟩
    rw [← h.extra]
    rfl

theorem filter_entries (c : Config) :
    (c.entries.filter fun e => !isSetting e.1) = c.extra.filter fun e => !isSetting e.1 := by
  rw [entries, List.filter_append]
  rfl

/-- A normal form is its own normal form. -/
theorem Normalizes.entries {given : List (Value × Value)} {c : Config} (h : Normalizes given c) :
    Normalizes c.entries c where
  toValid := h.toValid
  cycles := rfl
  limit := rfl
  pause := by
    show Reads (optionalValue c.pauseTick) c.pauseTick
    cases c.pauseTick <;> rfl
  seed := by
    show Reads (optionalValue c.seed) c.seed
    cases c.seed <;> rfl
  lenient := rfl
  extra := by simp only [filter_entries, h.extra, List.filter_filter, Bool.and_self]

/-! ## Loading -/

theorem valid_of_ofEntries {entries : List (Value × Value)} {c : Config}
    (h : ofEntries entries = .ok c) : c.Valid :=
  (ofEntries_eq_ok_iff.mp h).toValid

theorem normalizes_of_ofText {path text : String} {c : Config} (h : ofText path text = .ok c) :
    ∃ given, Normalizes given c := by
  unfold ofText at h
  split at h
  · contradiction
  · split at h
    · exact ⟨_, ofEntries_eq_ok_iff.mp h⟩
    · split at h
      · exact ⟨_, ofEntries_eq_ok_iff.mp h⟩
      · contradiction

/-- A configuration that is loaded is the normal form of a mapping, wherever it comes from. -/
theorem normalizes_of_load {files : FileTree} {config : Value} {c : Config}
    (h : load files config = .ok c) : ∃ given, Normalizes given c := by
  unfold load at h
  split at h
  · exact ⟨_, ofEntries_eq_ok_iff.mp h⟩
  · exact ⟨_, ofEntries_eq_ok_iff.mp h⟩
  · unfold ofFile at h
    split at h
    · contradiction
    · contradiction
    · contradiction
    · split at h
      · exact normalizes_of_ofText h
      · contradiction
  · contradiction

/-- A configuration that is loaded has its numbers in their ranges. -/
theorem valid_of_load {files : FileTree} {config : Value} {c : Config}
    (h : load files config = .ok c) : c.Valid := by
  obtain ⟨given, hform⟩ := normalizes_of_load h
  exact hform.toValid

/-- A configuration that is loaded can be loaded again. -/
theorem ofEntries_of_load {files : FileTree} {config : Value} {c : Config}
    (h : load files config = .ok c) : ofEntries c.entries = .ok c := by
  obtain ⟨given, hform⟩ := normalizes_of_load h
  exact ofEntries_eq_ok_iff.mpr hform.entries

/-- The document of a file gives what its mapping gives, errors included. -/
theorem ofText_of_mapping {path text : String} {given : List (Value × Value)}
    (hdoc : Yaml.Document.read text.toList = .ok (.map given)) :
    ofText path text = ofEntries given := by
  unfold ofText
  rw [hdoc]
  cases given <;> rfl

theorem load_of_supplies {files : FileTree} {config : Value} {given : List (Value × Value)}
    (h : Supplies files config given) : load files config = ofEntries given := by
  cases h with
  | nothing => rfl
  | mapping => rfl
  | @file path text bytes _ hread hdecode hdoc =>
    show ofFile files path = ofEntries given
    simp only [ofFile, hread, hdecode]
    exact ofText_of_mapping hdoc

/-- A mapping may come from nowhere, from the user or from the document of a file : the same comes
of it, be it a configuration or an error. A configuration comes of it if it has a normal form, and
then that one. It has each setting once and all that is no setting as it was. It can be loaded
again, whatever files there are, and is the same then, so a program runs under it as under what it
was loaded from. -/
theorem load_yields_normal_form {files : FileTree} {config : Value} {given : List (Value × Value)}
    (h : Supplies files config given) :
    load files config = load files (.map given) ∧
    (∀ c, load files config = .ok c ↔ Normalizes given c) ∧
    ∀ c, load files config = .ok c →
      (c.entries.filter fun e => isSetting e.1).map Prod.fst = settingNames.map .text ∧
      (c.entries.filter fun e => !isSetting e.1) = given.filter (fun e => !isSetting e.1) ∧
      (∀ others, load others (.map c.entries) = .ok c) ∧
      ∀ image keys fresh, Program.run files image (.map c.entries) keys fresh =
        Program.run files image config keys fresh := by
  have hload := load_of_supplies h
  have hnormal (c : Config) : load files config = .ok c ↔ Normalizes given c := by
    rw [hload]
    exact ofEntries_eq_ok_iff
  refine ⟨hload, hnormal, fun c hc => ?_⟩
  have hform := (hnormal c).mp hc
  have hagain (others : FileTree) : load others (.map c.entries) = .ok c :=
    ofEntries_eq_ok_iff.mpr hform.entries
  have hextra : (c.extra.filter fun e => isSetting e.1) = [] := by
    rw [hform.extra]
    simp
  refine ⟨?_, ?_, hagain, fun image keys fresh => ?_⟩
  · rw [entries, List.filter_append, hextra]
    rfl
  · rw [filter_entries, hform.extra]
    simp
  · rw [Program.run, Program.run, hagain, hc]

/-- A mapping whose numbers are a truth value, a text with blanks and a fraction, and which has a
key that is no setting. -/
theorem normal_form_of_mixed_values :
    let given : List (Value × Value) := [(.text "cycles_per_frame", .bool true),
      (.text "palette", .text "amber"), (.text "tick_limit", .text " 7 "),
      (.text "pause_tick", .real (.finite false 4503599627370496 (-53)))]
    let c : Config := {
      cyclesPerFrame := 1
      tickLimit := 7
      pauseTick := some 0
      extra := [(.text "palette", .text "amber")] }
    Supplies {} (.map given) given ∧ load {} (.map given) = .ok c ∧
      load {} (.map c.entries) = .ok c := by
  intro given c
  have hsupplies : Supplies {} (.map given) given := .mapping given
  have hload : load {} (.map given) = .ok c := rfl
  have hform := (load_yields_normal_form hsupplies).2.2 c hload
  exact ⟨hsupplies, hload, hform.2.2.1 {}⟩

end Config

end Chip8
