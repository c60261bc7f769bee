import Mathlib
import Chip8.Proofs.Config.Normal
import Chip8.Proofs.Config.Setting

/-!
# Documents that are no mappings

What a file gives is decided by the value of its document (`Config.Holds`). A mapping is laid over
the defaults. Any other value is refused, but not if it counts as no : then it stands for the empty
mapping, and the defaults are all that is left. The empty value counts as no, and so do the zeros,
the empty texts and the empty collections (`Config.Void`). A file is refused for its document only,
since no mapping is refused in that way (`Config.ofEntries_ne_notMapping`).

This is put together in `Config.documents_are_refused_unless_void`. So a list without items passes
for a mapping (`Config.empty_list_is_loaded`).
-/

namespace Chip8

namespace Config

/-- A file holds a document with a value. -/
inductive Holds (files : FileTree) (path : String) (v : Value) : Prop
  | intro {bytes : List UInt8} {text : String} (hread : files.read path = .ok bytes)
    (hdecode : Text.Utf8.decode? bytes = some text) (hdoc : Yaml.Document.read text.toList = .ok v)

/-- A value that counts as no, and is no mapping. -/
@[mk_iff] inductive Void : Value → Prop
  | null : Void .null
  | no : Void (.bool false)
  | zero : Void (.int 0)
  | realZero {x : Binary64} (h : x.isZero = true) : Void (.real x)
  | text : Void (.text "")
  | broken : Void (.broken [])
  | bytes : Void (.bytes [])
  | list : Void (.list [])
  | set : Void (.set [])

theorem truthy_eq_false_iff {v : Value} : v.truthy = false ↔ Void v ∨ v = .map [] := by
  cases v <;> simp [Value.truthy, void_iff]

/-- A mapping is not refused for being none. -/
theorem ofEntries_ne_notMapping (given : List (Value × Value)) (path : String) :
    ofEntries given ≠ .error (.notMapping path) := by
  have hconversion {α : Type} (r : Except IntError α) :
      r.mapError Error.conversion ≠ .error (.notMapping path) := by
    cases r <;> simp [Except.mapError]
  have hint (name : String) (default : Int) :
      intSetting given name default ≠ .error (.notMapping path) := by
    unfold intSetting
    split
    · simp
    · exact hconversion _
  have hoptional (name : String) : optionalSetting given name ≠ .error (.notMapping path) := by
    unfold optionalSetting
    split
    · simp
    · simp
    · exact hconversion _
  have hbool (name : String) : boolSetting given name ≠ .error (.notMapping path) := by
    unfold boolSetting
    split <;> simp
  simp [ofEntries, bind_eq_error_iff, check_eq_error_iff, hint, hoptional, hbool, pure, Except.pure]

theorem ofBytes_ne_notMapping (path : String) (bytes : List UInt8) :
    Error.ofBytes path bytes ≠ .notMapping path := by
  unfold Error.ofBytes
  cases Yaml.Document.errorBefore? bytes with
  | none => nofun
  | some e => cases e <;> nofun

section Holds

variable {files : FileTree} {path : String} {v : Value}

theorem load_of_void (h : Holds files path v) (hv : Void v) :
    load files (.text path) = .ok {} := by
  obtain ⟨hread, hdecode, hdoc⟩ := h
  have htruthy : v.truthy = false := truthy_eq_false_iff.mpr (Or.inl hv)
  show ofFile files path = _
  simp only [ofFile, hread, hdecode, ofText, hdoc, htruthy, Bool.not_false, if_true]
  rfl

theorem load_of_other (h : Holds files path v) (hmap : ∀ entries, v ≠ .map entries)
    (hv : ¬ Void v) : load files (.text path) = .error (.notMapping path) := by
  obtain ⟨hread, hdecode, hdoc⟩ := h
  have htruthy : v.truthy = true := Bool.of_not_eq_false fun h =>
    (truthy_eq_false_iff.mp h).elim hv (hmap [])
  show ofFile files path = _
  simp only [ofFile, hread, hdecode, ofText, hdoc, htruthy]
  cases v with
  | map entries => exact absurd rfl (hmap entries)
  | _ => rfl

theorem load_of_mapping {entries : List (Value × Value)} (h : Holds files path (.map entries)) :
    load files (.text path) = ofEntries entries := by
  obtain ⟨hread, hdecode, hdoc⟩ := h
  exact load_of_supplies (.file hread hdecode hdoc)

/-- A file that is refused for its document holds one. -/
theorem exists_holds (h : load files (.text path) = .error (.notMapping path)) :
    ∃ v, Holds files path v := by
  have hfile : ofFile files path = .error (.notMapping path) := h
  unfold ofFile at hfile
  split at hfile
  · cases hfile
  · cases hfile
  · cases hfile
  · next bytes hread =>
    split at hfile
    · next text hdecode =>
      cases hdoc : Yaml.Document.read text.toList with
      | ok v => exact ⟨v, hread, hdecode, hdoc⟩
      | error e => cases e <;> simp [ofText, hdoc, Error.ofDocument] at hfile
    · exact absurd (Except.error.inj hfile) (ofBytes_ne_notMapping _ _)

end Holds

/-- A file is refused if its document is no mapping and does not count as no. One that counts as no
stands for the empty mapping, and a mapping for itself. -/
theorem documents_are_refused_unless_void (files : FileTree) (path : String) :
    (load files (.text path) = .error (.notMapping path) ↔
      ∃ v, Holds files path v ∧ (∀ entries, v ≠ .map entries) ∧ ¬ Void v) ∧
    (∀ v, Holds files path v → Void v → load files (.text path) = .ok {}) ∧
    ∀ entries, Holds files path (.map entries) →
      load files (.text path) = load files (.map entries) := by
  refine ⟨⟨fun h => ?_, ?_⟩, fun v => load_of_void, fun entries => load_of_mapping⟩
  · obtain ⟨v, hholds⟩ := exists_holds h
    refine ⟨v, hholds, ?_, fun hv => ?_⟩
    · rintro entries rfl
      exact ofEntries_ne_notMapping entries path ((load_of_mapping hholds).symm.trans h)
    · rw [load_of_void hholds hv] at h
      contradiction
  · rintro ⟨v, hholds, hmap, hv⟩
    exact load_of_other hholds hmap hv

/-- Values have no decidable equality, so the value of a given document is told by its form. -/
theorem eq_ok_of_form {isForm : Value → Bool} {v : Value} (hform : ∀ v', isForm v' = true → v' = v)
    {r : Except Yaml.Error Value} (h : r.toOption.any isForm = true) : r = .ok v := by
  cases r with
  | error e => contradiction
  | ok v' => rw [hform v' h]

theorem eq_null_of_kind {v : Value} (h : (v.kind == "NoneType") = true) : v = .null := by
  cases v <;> simp [Value.kind] at h ⊢

theorem eq_empty_list {v : Value}
    (h : (v.kind == "list" && v.parts?.any (·.isEmpty)) = true) : v = .list [] := by
  cases v <;> simp_all [Value.kind, Value.parts?]

/-- A text is refused, and a file with nothing in it stands for the empty mapping. -/
theorem text_is_refused_and_nothing_is_loaded :
    let files : FileTree := { entries := [(["t"], .file [0x61]), (["n"], .file [])] }
    Holds files "t" (.text "a") ∧ load files (.text "t") = .error (.notMapping "t") ∧
      Holds files "n" .null ∧ load files (.text "n") = .ok {} := by
  intro files
  have htext : Holds files "t" (.text "a") := by
    have hread : files.read "t" = .ok [0x61] := by cbv
    have hdecode : Text.Utf8.decode? [0x61] = some "a" := by decide +kernel
    exact ⟨hread, hdecode, eq_ok_of_form (fun v => Value.sameKey_text_iff.mp) (by decide +kernel)⟩
  have hnull : Holds files "n" .null := by
    have hread : files.read "n" = .ok [] := by cbv
    have hdecode : Text.Utf8.decode? [] = some "" := by decide +kernel
    exact ⟨hread, hdecode, eq_ok_of_form (fun v => eq_null_of_kind) (by decide +kernel)⟩
  refine ⟨htext, ?_, hnull, ?_⟩
  · exact (documents_are_refused_unless_void files "t").1.mpr ⟨_, htext, nofun, by simp [void_iff]⟩
  · exact (documents_are_refused_unless_void files "n").2.1 _ hnull .null

/-- A list without items is no mapping, and the defaults are loaded. -/
theorem empty_list_is_loaded :
    let files : FileTree := { entries := [(["c"], .file [0x5B, 0x5D, 0x0A])] }
    Holds files "c" (.list []) ∧ load files (.text "c") = .ok {} := by
  intro files
  have hread : files.read "c" = .ok [0x5B, 0x5D, 0x0A] := by cbv
  have hdecode : Text.Utf8.decode? [0x5B, 0x5D, 0x0A] = some "[]\n" := by decide +kernel
  have hholds : Holds files "c" (.list []) :=
    ⟨hread, hdecode, eq_ok_of_form (fun v => eq_empty_list) (by decide +kernel)⟩
  exact ⟨hholds, load_of_void hholds .list⟩

end Config

end Chip8
