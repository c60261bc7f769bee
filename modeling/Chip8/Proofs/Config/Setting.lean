import Chip8.Config

/-!
# Settings that are set

A setting of a mapping is a text key. To set one leaves what the other text keys have
(`Value.lookup?_setKey_other`) and what is no setting (`Config.filter_setKey`). So a mapping gives
the same configuration, or the same error, whatever the log is set to, but for the log
(`Config.ofEntries_setLenient`).
-/

namespace Chip8

section Map

variable {α β γ ε : Type} {f : β → γ}

/-- A computation of two parts has a mapped result if its second part has. -/
theorem bind_eq_map_bind {x : Except ε α} {g : α → Except ε γ} {h : α → Except ε β}
    (hgh : ∀ a, g a = (h a).map f) : x >>= g = (x >>= h).map f := by
  cases x with
  | error e => rfl
  | ok a => exact hgh a

/-- So has one that checks something first. -/
theorem check_eq_map_check {p : Prop} [Decidable p] {e : ε} {x : Except ε γ} {y : Except ε β}
    (hxy : x = y.map f) :
    (if p then (do (throw e : Except ε Unit); x) else x) =
      (if p then (do (throw e : Except ε Unit); y) else y).map f := by
  by_cases hp : p
  · rw [if_pos hp, if_pos hp]
    rfl
  · rw [if_neg hp, if_neg hp, hxy]

end Map

namespace Value

theorem sameKey_text_iff {v : Value} {name : String} :
    v.sameKey (.text name) = true ↔ v = .text name := by
  cases v with
  | real x => cases x <;> simp [sameKey, asInt?]
  | _ => simp [sameKey, asInt?]

theorem lookup?_cons_same (v : Value) (given : List (Value × Value)) (name : String) :
    lookup? ((.text name, v) :: given) name = some v := by
  have hsame : (text name).sameKey (.text name) = true := sameKey_text_iff.mpr rfl
  simp [lookup?, hsame]

theorem lookup?_cons_other {k : Value} {name : String} (hk : k ≠ .text name) (v : Value)
    (given : List (Value × Value)) : lookup? ((k, v) :: given) name = lookup? given name := by
  have hother : ¬ k.sameKey (.text name) = true := mt sameKey_text_iff.mp hk
  simp [lookup?, hother]

theorem lookup?_setKey_same (given : List (Value × Value)) (name : String) (v : Value) :
    lookup? (setKey given (.text name) v) name = some v := by
  induction given with
  | nil => exact lookup?_cons_same v [] name
  | cons e given ih =>
    obtain ⟨k, w⟩ := e
    rw [setKey]
    split
    · next hk => rw [sameKey_text_iff.mp hk, lookup?_cons_same]
    · next hk => rw [lookup?_cons_other (mt sameKey_text_iff.mpr hk), ih]

/-- To set a text key leaves what the others have. -/
theorem lookup?_setKey_other (given : List (Value × Value)) {key name : String}
    (hname : key ≠ name) (v : Value) :
    lookup? (setKey given (.text key) v) name = lookup? given name := by
  have hother {k : Value} (hk : k = .text key) : k ≠ .text name := by
    simpa [hk] using hname
  induction given with
  | nil => exact lookup?_cons_other (hother rfl) v []
  | cons e given ih =>
    obtain ⟨k, w⟩ := e
    rw [setKey]
    split
    · next hk =>
      have hk := hother (sameKey_text_iff.mp hk)
      rw [lookup?_cons_other hk, lookup?_cons_other hk]
    · by_cases hk : k = .text name
      · rw [hk, lookup?_cons_same, lookup?_cons_same]
      · rw [lookup?_cons_other hk, lookup?_cons_other hk, ih]

end Value

namespace Config

/-- To set a setting leaves what is no setting. -/
theorem filter_setKey (given : List (Value × Value)) {name : String}
    (hname : isSetting (.text name) = true) (v : Value) :
    ((Value.setKey given (.text name) v).filter fun e => !isSetting e.1) =
      given.filter fun e => !isSetting e.1 := by
  induction given with
  | nil => simp [Value.setKey, hname]
  | cons e given ih =>
    obtain ⟨k, w⟩ := e
    rw [Value.setKey]
    split
    · next hk => simp [Value.sameKey_text_iff.mp hk, hname]
    · rw [List.filter_cons, List.filter_cons, ih]

/-- A mapping with the log set to leave the steps out, or not to. -/
def setLenient (given : List (Value × Value)) (lenient : Bool) : List (Value × Value) :=
  Value.setKey given (.text "lenient_log") (.bool lenient)

/-- Whether the log leaves the steps out changes nothing else in a configuration. -/
theorem ofEntries_setLenient (given : List (Value × Value)) (lenient : Bool) :
    ofEntries (setLenient given lenient) =
      (ofEntries (setLenient given false)).map fun c => { c with lenientLog := lenient } := by
  have hint (b : Bool) {name : String} (hname : "lenient_log" ≠ name) (default : Int) :
      intSetting (setLenient given b) name default = intSetting given name default := by
    rw [intSetting, intSetting, setLenient, Value.lookup?_setKey_other given hname]
  have hoptional (b : Bool) {name : String} (hname : "lenient_log" ≠ name) :
      optionalSetting (setLenient given b) name = optionalSetting given name := by
    rw [optionalSetting, optionalSetting, setLenient, Value.lookup?_setKey_other given hname]
  have hlenient (b : Bool) : boolSetting (setLenient given b) "lenient_log" = .ok b := by
    rw [boolSetting, setLenient, Value.lookup?_setKey_same]
  have hextra (b : Bool) : ((setLenient given b).filter fun e => !isSetting e.1) =
      given.filter fun e => !isSetting e.1 := filter_setKey given rfl _
  have hcycles (b : Bool) : intSetting (setLenient given b) "cycles_per_frame" 15 =
      intSetting given "cycles_per_frame" 15 := hint b (by decide) 15
  have hlimit (b : Bool) : intSetting (setLenient given b) "tick_limit" 100000 =
      intSetting given "tick_limit" 100000 := hint b (by decide) 100000
  have hpause (b : Bool) : optionalSetting (setLenient given b) "pause_tick" =
      optionalSetting given "pause_tick" := hoptional b (by decide)
  have hseed (b : Bool) : optionalSetting (setLenient given b) "seed" =
      optionalSetting given "seed" := hoptional b (by decide)
  simp only [ofEntries, hcycles, hlimit, hpause, hseed, hlenient, hextra]
  refine bind_eq_map_bind fun cyclesPerFrame => bind_eq_map_bind fun tickLimit => ?_
  refine bind_eq_map_bind fun pauseTick => bind_eq_map_bind fun seed => ?_
  exact check_eq_map_check (check_eq_map_check (check_eq_map_check rfl))

end Config

end Chip8
