import Mathlib.Tactic.SplitIfs
import Chip8.Fault
import Chip8.Proofs.Text.Literal
import Chip8.Schedule.Key

/-!
# Messages of one line

What a message repeats of what a user gave is a number or is in quotes, and neither has a line break
in it, whatever was given (`Text.oneLine_decimal`, `Text.oneLine_quoted`). So the message about a
key of a schedule is one line (`Key.oneLine_message`), and so is the one about an image that is too
large (`Fault.oneLine_loadSize`).
-/

namespace Chip8

namespace Text

/-- A text has no line break. -/
def OneLine (s : String) : Prop := '\n' ∉ s.toList

instance (s : String) : Decidable (OneLine s) := inferInstanceAs (Decidable ('\n' ∉ s.toList))

theorem OneLine.append {s t : String} (hs : OneLine s) (ht : OneLine t) : OneLine (s ++ t) := by
  rw [OneLine, String.toList_append, List.mem_append]
  exact not_or.mpr ⟨hs, ht⟩

theorem oneLine_ofList {cs : List Char} (h : '\n' ∉ cs) : OneLine (String.ofList cs) := by
  rw [OneLine, String.toList_ofList]
  exact h

/-! ## Numbers -/

theorem not_mem_leftpad {width : Nat} {fill : Char} {cs : List Char} (hfill : '\n' ≠ fill)
    (hcs : '\n' ∉ cs) : '\n' ∉ cs.leftpad width fill := by
  rw [List.leftpad, List.mem_append, List.mem_replicate]
  exact not_or.mpr ⟨fun h => hfill h.2, hcs⟩

theorem oneLine_decimal (i : Int) : OneLine (decimal i) :=
  oneLine_ofList fun h =>
    Literal.legible_ten.forall_mem_signed (p := (· ≠ '\n')) (by decide) (by decide) i '\n' h rfl

/-! ## Quotations -/

theorem not_mem_toDigits (n : Nat) : '\n' ∉ Nat.toDigits 16 n := by
  have hdigit : ∀ d < 16, '\n' ∉ [d.digitChar] := by decide
  induction n using Nat.strongRecOn with
  | ind n ih =>
    rw [Nat.toDigits_eq_if (by decide)]
    split
    · exact hdigit n (by omega)
    · rw [List.mem_append]
      exact not_or.mpr ⟨ih _ (by omega), hdigit _ (Nat.mod_lt _ (by decide))⟩

theorem not_mem_code (width n : Nat) : '\n' ∉ Quoted.code width n :=
  not_mem_leftpad (by decide) (not_mem_toDigits n)

theorem not_mem_escape {quote : Char} (hquote : quote ≠ '\n') (printable : Char → Bool) (c : Char) :
    '\n' ∉ Quoted.escape printable quote c := by
  have hcode (mark : Char) (hmark : '\n' ≠ mark) (width : Nat) :
      '\n' ∉ '\\' :: mark :: Quoted.code width c.toNat := by
    simp [hmark, not_mem_code]
  unfold Quoted.escape
  split_ifs with hspecial _ hbreak _ hprintable
  · have hne : '\n' ≠ c := by
      rintro rfl
      exact absurd hspecial (by simp [hquote.symm])
    simp [hne]
  · decide
  · decide
  · decide
  · simpa using Ne.symm hbreak
  · exact hcode 'x' (by decide) 2
  · exact hcode 'u' (by decide) 4
  · exact hcode 'U' (by decide) 8

theorem not_mem_escapePoint {quote : Char} (hquote : quote ≠ '\n') (p : CodePoint) :
    '\n' ∉ Quoted.escapePoint quote p := by
  cases p with
  | char c => exact not_mem_escape hquote isPrintable c
  | surrogate n => simp [Quoted.escapePoint, not_mem_code]

theorem oneLine_quoted (s : String) : OneLine (quoted s) := by
  refine oneLine_ofList ?_
  have hquote (cs : List Char) : Quoted.enclosing cs ≠ '\n' := by
    unfold Quoted.enclosing
    split <;> decide
  have hpoints (ps : List CodePoint) (q : Char) (hq : q ≠ '\n') :
      '\n' ∉ q :: ps.flatMap (Quoted.escapePoint q) ++ [q] := by
    simp [hq.symm, not_mem_escapePoint hq]
  exact hpoints _ _ (hquote _)

end Text

/-! ## The messages -/

open Text

theorem Fault.oneLine_loadSize (size capacity : Nat) :
    OneLine (Fault.loadSize size capacity).message :=
  ((((OneLine.append (by decide) (oneLine_decimal size)).append (by decide)).append
    (oneLine_decimal capacity)).append (by decide))

namespace Key

theorem oneLine_outOfRange (k : Int) : OneLine (Error.outOfRange k).message := by
  rw [Error.message]
  split
  · have hcounted : OneLine "" := by decide
    exact (((OneLine.append (by decide) (oneLine_decimal _)).append (by decide)).append
      hcounted).append (by decide)
  · exact ((OneLine.append (by decide) (oneLine_decimal k)).append (by decide))

theorem oneLine_malformed (s : String) : OneLine (Error.malformed (quoted s)).message := by
  refine ((OneLine.append (by decide) (oneLine_decimal 16)).append (by decide)).append
    (oneLine_ofList fun h => ?_)
  exact oneLine_quoted s (List.mem_of_mem_take h)

theorem oneLine_unknown (s : String) : OneLine (Error.unknown (.text s)).message :=
  OneLine.append (by decide) (oneLine_quoted s)

theorem oneLine_ofInt {k : Int} {e : Error} (h : ofInt k = .error e) : OneLine e.message := by
  unfold ofInt at h
  split at h
  · contradiction
  · obtain rfl := Except.error.inj h
    exact oneLine_outOfRange k

/-- What is said of a text that names no key is one line. -/
theorem oneLine_message {s : String} {e : Error} (h : ofText s = .error e) : OneLine e.message := by
  unfold ofText at h
  dsimp only at h
  split at h
  · split at h
    · exact oneLine_ofInt h
    · obtain rfl := Except.error.inj h
      exact oneLine_malformed _
  · split at h
    · split at h
      · contradiction
      · obtain rfl := Except.error.inj h
        exact oneLine_unknown s
    · obtain rfl := Except.error.inj h
      exact oneLine_unknown s

end Key

end Chip8
