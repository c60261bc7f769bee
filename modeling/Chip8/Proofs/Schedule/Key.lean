import Chip8.Proofs.Text.Case
import Chip8.Proofs.Text.Hexadecimal
import Chip8.Schedule.Key

/-!
# The key that a value names

A value names a key by telling its number (`Key.Denotes`) : as a number, as a literal with its mark,
or as the character of the keyboard that lies where the key does. A text is looked at without the
blanks around it and in lower case (`Key.nameOf`). What tells the number of a key is resolved to that
key and nothing else is (`Key.resolve_eq_ok_iff`), and what is refused is refused for a reason
(`Key.Explains`).

A text in lower case is its own lower-case form, and taking off blanks does not interfere with that.
So neither the case of a text nor the blanks around it matter (`Key.resolve_around`).
-/

namespace Chip8.Key

open Text (AllBlank)
open Text.Literal (SpellsMarked)

/-- What is looked at of a text : the text without blanks around it, in lower case. -/
def nameOf (s : String) : List Char := Text.lowerFrom false (Text.strip s.toList)

/-- A value tells a number, which is a key's or none's. -/
inductive Denotes : Value → Int → Prop
  /-- A number tells itself. -/
  | number (k : Int) : Denotes (.int k) k
  /-- A character of the keyboard tells the number of the key that lies there. -/
  | keyboard {s : String} {key : Key} (h : nameOf s = [keyboard.get key]) : Denotes (.text s) key.val
  /-- A literal with its mark tells the number that it spells. -/
  | literal {s : String} {k : Int} (h : SpellsMarked (nameOf s) k) : Denotes (.text s) k

/-- An error says why a value names no key. -/
inductive Explains : Error → Value → Prop
  /-- It is a truth value. -/
  | bool (b : Bool) : Explains (.bool b) (.bool b)
  /-- It tells a number that is no key's. -/
  | outOfRange {v : Value} {k : Int} (h : Denotes v k) (hk : k < 0 ∨ 15 < k) :
    Explains (.outOfRange k) v
  /-- It has the mark of a literal and is none. -/
  | malformed {s : String} (hmark : ['0', 'x'] <+: nameOf s) (h : ∀ k, ¬ SpellsMarked (nameOf s) k) :
    Explains (.malformed (Text.quoted (String.ofList (nameOf s)))) (.text s)
  /-- It is a text with neither the mark nor a character of the keyboard. -/
  | unknown {s : String} (hmark : ¬ ['0', 'x'] <+: nameOf s)
    (h : ∀ key, nameOf s ≠ [keyboard.get key]) : Explains (.unknown (.text s)) (.text s)
  /-- It has a surrogate in it. -/
  | broken (ps : List Text.CodePoint) : Explains (brokenError ps) (.broken ps)
  /-- It is of another kind. -/
  | kind {v : Value} (h : v.kind ∉ ["bool", "int", "str"]) : Explains (.unknown v) v

/-! ## Numbers and characters -/

theorem ofInt_val (key : Key) : ofInt key.val = .ok key := by
  have hrange : (0 : Int) ≤ key.val ∧ (key.val : Int) < 16 := by omega
  rw [ofInt, dif_pos hrange]
  simp

theorem ofInt_eq_ok_iff {k : Int} {key : Key} : ofInt k = .ok key ↔ k = key.val := by
  constructor
  · intro h
    unfold ofInt at h
    split at h
    · next hrange =>
      obtain rfl := Except.ok.inj h
      exact (Int.toNat_of_nonneg hrange.1).symm
    · contradiction
  · rintro rfl
    exact ofInt_val key

theorem ofChar?_eq_some_iff {c : Char} {key : Key} : ofChar? c = some key ↔ keyboard.get key = c := by
  constructor
  · intro h
    simpa using List.find?_some h
  · rintro rfl
    revert key
    decide

/-! ## Resolving -/

section Resolving

variable {s : String}

/-- A text with the mark is read as a literal if it is one. -/
theorem read_nameOf_eq_ok_iff (hmark : ['0', 'x'] <+: nameOf s) {k : Int} :
    Text.Literal.read 16 (nameOf s) = .ok k ↔ SpellsMarked (nameOf s) k := by
  have hlast := Text.not_blank_of_last_lowerFrom (Text.strips_strip s.toList).last false
  rw [← nameOf] at hlast
  obtain ⟨cs, hname⟩ := hmark
  rw [← hname] at hlast ⊢
  exact Text.Literal.read_marked_eq_ok_iff hlast

theorem resolve_of_literal {k : Int} (h : SpellsMarked (nameOf s) k) :
    resolve (.text s) = ofInt k := by
  have hmark := List.isPrefixOf_iff_prefix.mpr h.mark
  rw [resolve, ofText, ← nameOf, if_pos hmark, (read_nameOf_eq_ok_iff h.mark).mpr h]

theorem resolve_of_malformed (hmark : ['0', 'x'] <+: nameOf s)
    (h : ∀ k, ¬ SpellsMarked (nameOf s) k) :
    resolve (.text s) = .error (.malformed (Text.quoted (String.ofList (nameOf s)))) := by
  have hmark' := List.isPrefixOf_iff_prefix.mpr hmark
  rw [resolve, ofText, ← nameOf, if_pos hmark']
  cases hread : Text.Literal.read 16 (nameOf s) with
  | ok k => exact absurd ((read_nameOf_eq_ok_iff hmark).mp hread) (h k)
  | error => rfl

theorem resolve_of_keyboard {key : Key} (h : nameOf s = [keyboard.get key]) :
    resolve (.text s) = .ok key := by
  have hchar := ofChar?_eq_some_iff.mpr (rfl : Key.keyboard.get key = _)
  have hmark : ¬ ['0', 'x'].isPrefixOf [keyboard.get key] = true := by simp
  rw [resolve, ofText, ← nameOf, h, if_neg hmark]
  simp only [hchar]

theorem resolve_of_unknown (hmark : ¬ ['0', 'x'] <+: nameOf s)
    (h : ∀ key, nameOf s ≠ [keyboard.get key]) :
    resolve (.text s) = .error (.unknown (.text s)) := by
  have hmark' := mt List.isPrefixOf_iff_prefix.mp hmark
  rw [resolve, ofText, ← nameOf, if_neg hmark']
  split
  · next c hname =>
    cases hchar : ofChar? c with
    | none => rfl
    | some key => exact absurd (ofChar?_eq_some_iff.mp hchar ▸ hname) (h key)
  · rfl

end Resolving

/-- A value that tells a number is resolved to the key of that number, if there is one. -/
theorem Denotes.resolve {v : Value} {k : Int} (h : Denotes v k) : resolve v = ofInt k := by
  cases h with
  | number k => rfl
  | keyboard h => rw [resolve_of_keyboard h, ofInt_val]
  | literal h => exact resolve_of_literal h

/-- A value that tells no number is refused. -/
theorem resolve_of_not_denotes {v : Value} (h : ∀ k, ¬ Denotes v k) :
    ∃ e, resolve v = .error e ∧ Explains e v := by
  cases v with
  | int k => exact absurd (.number k) (h k)
  | bool b => exact ⟨_, rfl, .bool b⟩
  | broken ps => exact ⟨_, rfl, .broken ps⟩
  | null | real | bytes | list | map | set | day | moment =>
    exact ⟨_, rfl, .kind (by simp [Value.kind])⟩
  | text s =>
    by_cases hmark : ['0', 'x'] <+: nameOf s
    · have hno : ∀ k, ¬ SpellsMarked (nameOf s) k := fun k hk => h k (.literal hk)
      exact ⟨_, resolve_of_malformed hmark hno, .malformed hmark hno⟩
    · have hno : ∀ key, nameOf s ≠ [keyboard.get key] := fun key hkey => h _ (.keyboard hkey)
      exact ⟨_, resolve_of_unknown hmark hno, .unknown hmark hno⟩

/-- A value is resolved to the key whose number it tells. -/
theorem resolve_eq_ok_iff {v : Value} {key : Key} : resolve v = .ok key ↔ Denotes v key.val := by
  constructor
  · intro h
    by_cases hv : ∃ k, Denotes v k
    · obtain ⟨k, hk⟩ := hv
      rw [hk.resolve, ofInt_eq_ok_iff] at h
      exact h ▸ hk
    · obtain ⟨e, he, -⟩ := resolve_of_not_denotes fun k hk => hv ⟨k, hk⟩
      rw [he] at h
      contradiction
  · intro h
    rw [h.resolve, ofInt_val]

theorem resolve_or_explains (v : Value) :
    (∃ key, resolve v = .ok key) ∨ ∃ e, resolve v = .error e ∧ Explains e v := by
  by_cases hv : ∃ k, Denotes v k
  · obtain ⟨k, hk⟩ := hv
    rw [hk.resolve]
    by_cases hrange : 0 ≤ k ∧ k < 16
    · exact Or.inl ⟨_, dif_pos hrange⟩
    · exact Or.inr ⟨_, dif_neg hrange, .outOfRange hk (by omega)⟩
  · exact Or.inr (resolve_of_not_denotes fun k hk => hv ⟨k, hk⟩)

/-! ## Case, blanks and digits -/

/-- The lower-case form of a text with blanks around it has the name that the text has. -/
theorem nameOf_around {before after : List Char} (hbefore : AllBlank before)
    (hafter : AllBlank after) (s : String) :
    nameOf (String.ofList (before ++ (Text.lower s).toList ++ after)) = nameOf s := by
  rw [nameOf, String.toList_ofList, Text.strip_around hbefore hafter, Text.lower,
    String.toList_ofList, Text.strip_lowerFrom, Text.lowerFrom_lowerFrom, nameOf]

theorem denotes_text_iff {s : String} {k : Int} : Denotes (.text s) k ↔
    (∃ key : Key, nameOf s = [keyboard.get key] ∧ k = key.val) ∨ SpellsMarked (nameOf s) k := by
  constructor
  · intro h
    cases h with
    | keyboard h => exact Or.inl ⟨_, h, rfl⟩
    | literal h => exact Or.inr h
  · rintro (⟨key, h, rfl⟩ | h)
    · exact .keyboard h
    · exact .literal h

/-- Neither the case of a text nor blanks around it matter. -/
theorem resolve_around {before after : List Char} (hbefore : AllBlank before)
    (hafter : AllBlank after) (s : String) (key : Key) :
    resolve (.text (String.ofList (before ++ (Text.lower s).toList ++ after))) = .ok key ↔
      resolve (.text s) = .ok key := by
  rw [resolve_eq_ok_iff, resolve_eq_ok_iff, denotes_text_iff, denotes_text_iff,
    nameOf_around hbefore hafter]

/-- A digit as a text is a character of the keyboard. -/
theorem resolve_digit_iff (d : Fin 10) (key : Key) :
    resolve (.text (String.singleton (Text.digitChar d))) = .ok key ↔
      keyboard.get key = Text.digitChar d := by
  have hname : nameOf (String.singleton (Text.digitChar d)) = [Text.digitChar d] := by
    revert d
    decide +kernel
  have hspells (c : Char) : ¬ SpellsMarked [c] key.val := fun h => by cases h
  rw [resolve_eq_ok_iff, denotes_text_iff, hname, or_iff_left (hspells _)]
  constructor
  · rintro ⟨other, hother, hval⟩
    have hsame : key = other := Fin.ext (by exact_mod_cast hval)
    rw [hsame, (List.cons.inj hother).1]
  · exact fun h => ⟨key, by rw [h], rfl⟩

/-- A value is resolved to a key if it tells the number of that key : as a number, as a character of
the keyboard or as a literal with its mark. Every other value is refused for a reason. Neither the
case of a text nor blanks around it matter. A digit as a text is a character of the keyboard, and as
a number it is the number of a key. -/
theorem keys_are_resolved_exactly :
    (∀ (v : Value) (k : Int), (∃ key, resolve v = .ok key ∧ (key.val : Int) = k) ↔
        0 ≤ k ∧ k ≤ 15 ∧ Denotes v k) ∧
      (∀ v : Value, (∃ k, 0 ≤ k ∧ k ≤ 15 ∧ Denotes v k) ∨
        ∃ e, resolve v = .error e ∧ Explains e v) ∧
      (∀ before after : List Char, AllBlank before → AllBlank after → ∀ (s : String) (key : Key),
        resolve (.text (String.ofList (before ++ (Text.lower s).toList ++ after))) = .ok key ↔
          resolve (.text s) = .ok key) ∧
      (∀ (d : Fin 10) (key : Key),
        (resolve (.text (String.singleton (Text.digitChar d))) = .ok key ↔
          keyboard.get key = Text.digitChar d) ∧
        (resolve (.int d.val) = .ok key ↔ key.val = d.val)) ∧
      resolve (.text "4") = .ok 0xC ∧ resolve (.int 4) = .ok 4 := by
  have hiff (v : Value) (k : Int) : (∃ key, resolve v = .ok key ∧ (key.val : Int) = k) ↔
      0 ≤ k ∧ k ≤ 15 ∧ Denotes v k := by
    constructor
    · rintro ⟨key, hkey, rfl⟩
      exact ⟨by omega, by omega, resolve_eq_ok_iff.mp hkey⟩
    · rintro ⟨hlow, hhigh, h⟩
      refine ⟨⟨k.toNat, by omega⟩, ?_, Int.toNat_of_nonneg hlow⟩
      rw [resolve_eq_ok_iff, Int.toNat_of_nonneg hlow]
      exact h
  refine ⟨hiff, fun v => ?_, fun _ _ hbefore hafter => resolve_around hbefore hafter,
    fun d key => ⟨resolve_digit_iff d key, ?_⟩, (resolve_digit_iff 4 0xC).mpr rfl, rfl⟩
  · refine (resolve_or_explains v).imp_left ?_
    rintro ⟨key, hkey⟩
    exact ⟨key.val, (hiff v _).mp ⟨key, hkey, rfl⟩⟩
  · rw [resolve, ofInt_eq_ok_iff]
    omega

/-- A literal with its mark in upper case and an underscore behind it, and blanks around it. -/
theorem key_of_spaced_literal :
    (AllBlank ['\t', ' '] ∧ AllBlank ['\u00a0']) ∧
      (resolve (.text (String.ofList (['\t', ' '] ++ (Text.lower "0X_F").toList ++ ['\u00a0']))) =
          .ok 0xF ↔ resolve (.text "0X_F") = .ok 0xF) := by
  have hbefore : AllBlank ['\t', ' '] := by decide
  have hafter : AllBlank ['\u00a0'] := by decide
  exact ⟨⟨hbefore, hafter⟩,
    keys_are_resolved_exactly.2.2.1 _ _ hbefore hafter "0X_F" 0xF⟩

end Chip8.Key
