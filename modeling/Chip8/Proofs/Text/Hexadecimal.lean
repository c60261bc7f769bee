import Chip8.Proofs.Text.Literal

/-!
# Hexadecimal literals

A hexadecimal literal with its mark has digits behind it, of either case or of any script, with
single underscores between two of them, and one between the mark and the first of them or none
(`Text.Literal.SpellsMarked`). Exactly these are read of the texts that have the mark and end in no
blank, however long they are (`Text.Literal.read_marked_eq_ok_iff`).
-/

namespace Chip8.Text.Literal

/-- A hexadecimal literal with its mark spells a number. -/
inductive SpellsMarked : List Char → Int → Prop
  | plain {cs : List Char} {ds : List Nat} (h : Digits 16 cs ds) :
    SpellsMarked ('0' :: 'x' :: cs) (value 16 ds)
  | underscore {cs : List Char} {ds : List Nat} (h : Digits 16 cs ds) :
    SpellsMarked ('0' :: 'x' :: '_' :: cs) (value 16 ds)

theorem SpellsMarked.mark {cs : List Char} {k : Int} (h : SpellsMarked cs k) : ['0', 'x'] <+: cs := by
  cases h with
  | plain => exact List.prefix_append ['0', 'x'] _
  | underscore => exact List.prefix_append ['0', 'x'] _

/-- What is left behind a mark without the underscore that may follow it. -/
def behindMark : List Char → List Char
  | '_' :: cs => cs
  | cs => cs

theorem dropMark_sixteen (cs : List Char) : dropMark 16 ('0' :: 'x' :: cs) = behindMark cs := by
  simp only [dropMark, decide_true, Bool.true_or, Bool.and_self, if_true]
  rfl

/-- A literal spells the digits behind its mark. -/
theorem spellsMarked_iff {cs : List Char} {i : Int} :
    SpellsMarked ('0' :: 'x' :: cs) i ↔ ∃ ds, Digits 16 (behindMark cs) ds ∧ value 16 ds = i := by
  constructor
  · intro h
    cases h with
    | @plain cs ds h =>
      refine ⟨ds, ?_, rfl⟩
      -- digits do not begin with an underscore
      have hbehind : behindMark cs = cs := by
        refine behindMark.eq_2 cs ?_
        rintro rest rfl
        cases h with
        | one hc | next hc | underscore hc =>
          rw [digitValue?_underscore] at hc
          contradiction
      rwa [hbehind]
    | @underscore _ ds h => exact ⟨ds, h, rfl⟩
  · rintro ⟨ds, h, rfl⟩
    unfold behindMark at h
    split at h
    · exact .underscore h
    · exact .plain h

theorem read_marked {cs : List Char} (hlast : ∀ c ∈ ('0' :: 'x' :: cs).getLast?, isBlank c = false) :
    read 16 ('0' :: 'x' :: cs) =
      match digits? 16 (behindMark cs) with
      | some (ds, []) => .ok (value 16 ds)
      | _ => .error .malformed := by
  have htrim : trim isMargin ([] ++ '0' :: 'x' :: cs ++ []) = '0' :: 'x' :: cs := by
    refine trim_of_around isMargin (by simp) (by simp) (fun c hc => ?_) fun c hc => ?_
    · obtain rfl := Option.some.inj hc
      decide
    · simp [isMargin, hlast c hc]
  rw [List.nil_append, List.append_nil] at htrim
  have hsign : sign ('0' :: 'x' :: cs) = (1, '0' :: 'x' :: cs) := rfl
  simp only [read, htrim, hsign, dropMark_sixteen]
  cases digits? 16 (behindMark cs) with
  | none => rfl
  | some found =>
    obtain ⟨ds, rest⟩ := found
    cases rest <;> simp

/-- A text with the mark is read as a literal if it is one. -/
theorem read_marked_eq_ok_iff {cs : List Char}
    (hlast : ∀ c ∈ ('0' :: 'x' :: cs).getLast?, isBlank c = false) {i : Int} :
    read 16 ('0' :: 'x' :: cs) = .ok i ↔ SpellsMarked ('0' :: 'x' :: cs) i := by
  rw [read_marked hlast, spellsMarked_iff]
  constructor
  · intro h
    split at h
    · next ds hread => exact ⟨ds, .of_read hread, Except.ok.inj h⟩
    · contradiction
  · rintro ⟨ds, hdigits, rfl⟩
    rw [hdigits.read]

end Chip8.Text.Literal
