import Chip8.Text.Blank

/-!
# Lines and their ends

A line feed, a carriage return, and the two together are the line ends (`Text.lineEnds`). A text is
told as its lines, each with its end, the last one without if there is anything on it
(`Text.Lined`). A carriage return and a line feed behind it are one end, so every text is told in
one way only, and its lines are those that are read (`Text.lines_eq_iff`).
-/

namespace Chip8.Text

/-- What ends a line. -/
def lineEnds : List (List Char) := [['\n'], ['\r'], ['\r', '\n']]

/-- A line : nothing in it ends one. -/
def Unbroken (line : List Char) : Prop := ∀ c ∈ line, c ≠ '\r' ∧ c ≠ '\n'

instance (line : List Char) : Decidable (Unbroken line) := List.decidableBAll _ _

/-- A text is made of lines with their ends. What is behind the last end is a line if it is not
empty. -/
inductive Lined : List (List Char) → List Char → Prop
  | nil : Lined [] []
  | last {line : List Char} (hline : Unbroken line) (hne : line ≠ []) : Lined [line] line
  | cons {line mark text : List Char} {lines : List (List Char)} (hline : Unbroken line)
    (hmark : mark ∈ lineEnds) (hwhole : mark = ['\r'] → text.head? ≠ some '\n')
    (h : Lined lines text) : Lined (line :: lines) (line ++ mark ++ text)

/-! ## Reading lines -/

theorem linesFrom_letter {c : Char} (h : c ≠ '\r' ∧ c ≠ '\n') (begun text : List Char) :
    linesFrom begun (c :: text) = linesFrom (c :: begun) text :=
  linesFrom.eq_5 begun c text (fun _ hc _ => h.1 hc) h.1 h.2

/-- A carriage return is an end by itself if no line feed is behind it. -/
theorem linesFrom_return {text : List Char} (h : text.head? ≠ some '\n') (begun : List Char) :
    linesFrom begun ('\r' :: text) = begun.reverse :: linesFrom [] text :=
  linesFrom.eq_3 begun text fun _ htext => h (congrArg List.head? htext)

theorem linesFrom_mark {mark text : List Char} (hmark : mark ∈ lineEnds)
    (hwhole : mark = ['\r'] → text.head? ≠ some '\n') (begun : List Char) :
    linesFrom begun (mark ++ text) = begun.reverse :: linesFrom [] text := by
  simp only [lineEnds, List.mem_cons, List.not_mem_nil, or_false] at hmark
  rcases hmark with rfl | rfl | rfl
  · exact linesFrom.eq_4 begun text
  · exact linesFrom_return (hwhole rfl) begun
  · exact linesFrom.eq_2 begun text

theorem linesFrom_letters {line : List Char} (h : Unbroken line) (begun text : List Char) :
    linesFrom begun (line ++ text) = linesFrom (line.reverse ++ begun) text := by
  induction line generalizing begun with
  | nil => rfl
  | cons c line ih =>
    obtain ⟨hc, hline⟩ := List.forall_mem_cons.mp h
    rw [List.cons_append, linesFrom_letter hc, ih hline]
    simp

theorem lines_of_lined {lines : List (List Char)} {text : List Char} (h : Lined lines text) :
    Text.lines text = lines := by
  induction h with
  | nil => rfl
  | @last line hline hne =>
    have hread := linesFrom_letters hline [] []
    simp only [List.append_nil] at hread
    rw [Text.lines, hread, linesFrom, if_neg (by simpa using hne), List.reverse_reverse]
  | @cons line mark text lines hline hmark hwhole h ih =>
    rw [Text.lines, List.append_assoc, linesFrom_letters hline, linesFrom_mark hmark hwhole,
      List.append_nil, List.reverse_reverse]
    exact congrArg (line :: ·) ih

/-- A text is made of the lines that are read from it, with what there is of a line that has begun
before it in front. -/
theorem lined_linesFrom {begun : List Char} (hbegun : Unbroken begun) (text : List Char) :
    Lined (linesFrom begun text) (begun.reverse ++ text) := by
  have hreverse {cs : List Char} (h : Unbroken cs) : Unbroken cs.reverse :=
    fun c hc => h c (List.mem_reverse.mp hc)
  have hnil : Unbroken [] := fun _ h => absurd h List.not_mem_nil
  have hended (mark : List Char) {begun text : List Char} (hbegun : Unbroken begun)
      (hmark : mark ∈ lineEnds) (hwhole : mark = ['\r'] → text.head? ≠ some '\n')
      (h : Lined (linesFrom [] text) text) :
      Lined (begun.reverse :: linesFrom [] text) (begun.reverse ++ (mark ++ text)) := by
    rw [← List.append_assoc]
    exact .cons (hreverse hbegun) hmark hwhole h
  fun_induction linesFrom begun text with
  | case1 => exact .nil
  | case2 begun hne =>
    rw [List.append_nil]
    exact .last (hreverse hbegun) (by simpa using hne)
  | case3 begun text ih =>
    exact hended ['\r', '\n'] hbegun (by simp [lineEnds]) (by simp) (ih hnil)
  | case4 begun text hnext ih =>
    have hhead : text.head? ≠ some '\n' := by
      intro h
      obtain ⟨rest, rfl⟩ := List.head?_eq_some_iff.mp h
      exact hnext rest rfl
    exact hended ['\r'] hbegun (by simp [lineEnds]) (fun _ => hhead) (ih hnil)
  | case5 begun text ih =>
    exact hended ['\n'] hbegun (by simp [lineEnds]) (by simp) (ih hnil)
  | case6 begun c text _ hreturn hfeed ih =>
    have h := ih (List.forall_mem_cons.mpr ⟨⟨hreturn, hfeed⟩, hbegun⟩)
    rwa [List.reverse_cons, List.append_assoc] at h

/-- The lines that are read from a text are those it is made of. -/
theorem lines_eq_iff {text : List Char} {lines : List (List Char)} :
    Text.lines text = lines ↔ Lined lines text :=
  ⟨fun h => h ▸ lined_linesFrom (by simp [Unbroken]) text, lines_of_lined⟩

end Chip8.Text
