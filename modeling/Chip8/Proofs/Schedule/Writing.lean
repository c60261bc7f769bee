import Chip8.Proofs.Schedule.Grammar

/-!
# Written schedules

There are many ways to write a key event on a line : with or without the direction when the key goes
down, the direction in any case, and any blanks between the words and around them, as long as they
end no line (`Schedule.Writes`). A text has such lines for its events, lines that say nothing among
them, and any line ends (`Schedule.WritesAll`).

Each of these lines says its event (`Schedule.Writes.tells`). What is between two lines ends the first
of them, or it ends an empty line as well, which says nothing (`Schedule.readLines_append`). So
however events are written, they are read back (`Schedule.written_events_are_read`).
-/

namespace Chip8.Schedule

open Text (AllBlank AnyCase IsWord Spaced Unbroken)
open Text.Literal (Spells)

/-- An event that can be written : its tick has no more digits than are read, and its key is a
word. -/
structure Writable (l : Line) : Prop where
  tick : l.tick.natAbs < 10 ^ Text.Literal.maxDigits
  key : IsWord l.key.toList

/-- Blanks on a line. -/
structure Margin (blanks : List Char) : Prop where
  blank : AllBlank blanks
  unbroken : Unbroken blanks

/-- Blanks on a line that separate two words. -/
structure Gap (blanks : List Char) : Prop extends Margin blanks where
  ne_nil : blanks ≠ []

/-- A line has an event : its tick, its key and its direction, which may be left out if the key goes
down. -/
inductive Writes : Line → List Char → Prop
  | press {i : Int} {key : String} {before gap after : List Char} (hbefore : Margin before)
    (hgap : Gap gap) (hafter : Margin after) :
    Writes ⟨i, key, true⟩ (before ++ Text.signed 10 i ++ (gap ++ key.toList ++ after))
  | direction {i : Int} {key : String} {pressed : Bool} {before gap gap' word after : List Char}
    (hbefore : Margin before) (hgap : Gap gap) (hgap' : Gap gap')
    (hword : AnyCase word (directionWord pressed)) (hafter : Margin after) :
    Writes ⟨i, key, pressed⟩
      (before ++ Text.signed 10 i ++ (gap ++ key.toList ++ (gap' ++ word ++ after)))

/-- A line is written for an event, or for none. -/
inductive WritesLine : Option Line → List Char → Prop
  | event {l : Line} {line : List Char} (h : Writes l line) : WritesLine (some l) line
  | remark {line : List Char} (h : Remark line) (hline : Unbroken line) : WritesLine none line

/-- A text is written for events, each on a line of its own. The last line may have no end. -/
inductive WritesAll : List Line → List Char → Prop
  | nil : WritesAll [] []
  | last {said : Option Line} {line : List Char} (h : WritesLine said line) :
    WritesAll said.toList line
  | cons {said : Option Line} {line mark text : List Char} {events : List Line}
    (h : WritesLine said line) (hmark : mark ∈ Text.lineEnds) (hrest : WritesAll events text) :
    WritesAll (said.toList ++ events) (line ++ mark ++ text)

/-! ## A line -/

theorem isWord_direction {word : List Char} {pressed : Bool}
    (h : AnyCase word (directionWord pressed)) : IsWord word where
  ne_nil := by
    rintro rfl
    exact absurd (List.forall₂_nil_left_iff.mp h) (by cases pressed <;> decide)
  letters := h.letters (plain_directionWord pressed)

theorem unbroken_of_isWord {word : List Char} (h : IsWord word) : Unbroken word := by
  intro c hc
  have hblank := h.letters c hc
  constructor <;> (rintro rfl; exact absurd hblank (by decide))

/-- A line does not say nothing if its first word has no mark in front. -/
theorem not_remark {word line : List Char} {words : List (List Char)}
    (h : Spaced (word :: words) line) (hmark : word.head? ≠ some '#') : ¬ Remark line := by
  cases h with
  | @cons before _ rest _ hbefore hword _ _ =>
    obtain ⟨c, word, rfl⟩ := List.exists_cons_of_ne_nil hword.ne_nil
    have hhead := Text.head_strip hbefore (hword.letters c List.mem_cons_self) (word ++ rest)
    have hne : c ≠ '#' := fun hc => hmark (congrArg some hc)
    rw [← isRemark_strip_iff, List.append_assoc, List.cons_append, isRemark, hhead,
      List.isEmpty_eq_false_iff.mpr (by rintro hnil; simp [hnil] at hhead)]
    simpa using hne

/-- What has a gap in front begins with a blank. -/
theorem Gap.head {gap : List Char} (h : Gap gap) (word rest : List Char) :
    ∀ c ∈ (gap ++ word ++ rest).head?, Text.isBlank c = true := by
  obtain ⟨b, gap, rfl⟩ := List.exists_cons_of_ne_nil h.ne_nil
  exact fun c hc => h.blank c (Option.some.inj hc ▸ List.mem_cons_self)

theorem Margin.head {after : List Char} (h : Margin after) :
    ∀ c ∈ after.head?, Text.isBlank c = true :=
  fun c hc => h.blank c (List.mem_of_mem_head? hc)

namespace Writes

variable {l : Line} {line : List Char}

theorem unbroken (h : Writes l line) (hl : Writable l) : Unbroken line := by
  have htick := unbroken_of_isWord (Text.Literal.legible_ten.isWord_signed l.tick)
  have hkey := unbroken_of_isWord hl.key
  cases h with
  | press hbefore hgap hafter =>
    simp only [Unbroken, List.forall_mem_append]
    exact ⟨⟨hbefore.unbroken, htick⟩, ⟨hgap.unbroken, hkey⟩, hafter.unbroken⟩
  | direction hbefore hgap hgap' hword hafter =>
    have hdirection := unbroken_of_isWord (isWord_direction hword)
    simp only [Unbroken, List.forall_mem_append]
    exact ⟨⟨hbefore.unbroken, htick⟩, ⟨hgap.unbroken, hkey⟩, ⟨hgap'.unbroken, hdirection⟩,
      hafter.unbroken⟩

/-- A line that has an event tells it. -/
theorem tells (h : Writes l line) (hl : Writable l) : Tells line (some l) := by
  have htick := Text.Literal.legible_ten.isWord_signed l.tick
  have hspells := Text.Literal.spells_signed hl.tick
  have hmark : (Text.signed 10 l.tick).head? ≠ some '#' := fun h =>
    Text.Literal.legible_ten.forall_mem_signed (p := (· ≠ '#')) (by decide) (by decide) l.tick
      '#' (List.mem_of_mem_head? h) rfl
  cases h with
  | @press i key before gap after hbefore hgap hafter =>
    have hwords : Spaced [Text.signed 10 i, key.toList]
        (before ++ Text.signed 10 i ++ (gap ++ key.toList ++ after)) :=
      .cons hbefore.blank htick (hgap.head _ _)
        (.cons hgap.blank hl.key hafter.head (.nil hafter.blank))
    have hreads : Reads _ ⟨i, String.ofList key.toList, true⟩ := .press hspells
    rw [String.ofList_toList] at hreads
    exact .event (not_remark hwords hmark) hwords hreads
  | @direction i key pressed before gap gap' word after hbefore hgap hgap' hword hafter =>
    have hwords : Spaced [Text.signed 10 i, key.toList, word]
        (before ++ Text.signed 10 i ++ (gap ++ key.toList ++ (gap' ++ word ++ after))) :=
      .cons hbefore.blank htick (hgap.head _ _) (.cons hgap.blank hl.key (hgap'.head _ _)
        (.cons hgap'.blank (isWord_direction hword) hafter.head (.nil hafter.blank)))
    have hreads : Reads _ ⟨i, String.ofList key.toList, pressed⟩ := .direction hspells hword
    rw [String.ofList_toList] at hreads
    exact .event (not_remark hwords hmark) hwords hreads

end Writes

/-- A line that is written for an event tells it, and one that is written for none tells none. -/
theorem WritesLine.tells {said : Option Line} {line : List Char} (h : WritesLine said line)
    (hsaid : ∀ l ∈ said, Writable l) : Unbroken line ∧ Tells line said := by
  cases h with
  | event h => exact ⟨h.unbroken (hsaid _ rfl), h.tells (hsaid _ rfl)⟩
  | remark h hline => exact ⟨hline, .remark h⟩

/-! ## A text -/

theorem readLines_cons {line : List Char} {said : Option Line} (h : Tells line said)
    (lines : List (List Char)) :
    readLines (line :: lines) = (readLines lines).map (said.toList ++ ·) := by
  rw [readLines, readLine_of_tells h]
  cases readLines lines <;> rfl

theorem readLines_empty (lines : List (List Char)) : readLines ([] :: lines) = readLines lines := by
  rw [readLines_cons (.remark (.blank .nil))]
  cases readLines lines <;> rfl

/-- A line without an end is read by itself, also if it is empty and so none. -/
theorem readLines_last {line : List Char} (hline : Unbroken line) :
    readLines (Text.lines line) = readLines [line] := by
  by_cases hne : line = []
  · rw [hne]
    exact (readLines_empty []).symm
  · rw [Text.lines_eq_iff.mpr (.last hline hne)]

/-- A line with an end is read by itself. A carriage return that the text behind it makes one end with
a line feed leaves out an empty line. -/
theorem readLines_append {line mark : List Char} (hline : Unbroken line)
    (hmark : mark ∈ Text.lineEnds) (text : List Char) :
    readLines (Text.lines (line ++ mark ++ text)) = readLines (line :: Text.lines text) := by
  have hlined (text : List Char) : Text.Lined (Text.lines text) text := Text.lines_eq_iff.mp rfl
  by_cases hsplit : mark = ['\r'] ∧ text.head? = some '\n'
  · obtain ⟨rfl, hhead⟩ := hsplit
    obtain ⟨rest, rfl⟩ := List.head?_eq_some_iff.mp hhead
    have hjoined : Text.Lined (line :: Text.lines rest) (line ++ ['\r', '\n'] ++ rest) :=
      .cons hline (by simp [Text.lineEnds]) (by simp) (hlined rest)
    have hempty : Text.Lined ([] :: Text.lines rest) ([] ++ ['\n'] ++ rest) :=
      .cons (by simp [Unbroken]) (by simp [Text.lineEnds]) (by simp) (hlined rest)
    have htext : line ++ ['\r'] ++ '\n' :: rest = line ++ ['\r', '\n'] ++ rest := by simp
    have hrest : Text.lines ('\n' :: rest) = [] :: Text.lines rest := Text.lines_eq_iff.mpr hempty
    rw [htext, Text.lines_eq_iff.mpr hjoined, hrest, readLines, readLines, readLines_empty]
  · have hwhole : mark = ['\r'] → text.head? ≠ some '\n' := fun h h' => hsplit ⟨h, h'⟩
    rw [Text.lines_eq_iff.mpr (.cons hline hmark hwhole (hlined text))]

theorem readLines_of_writesAll {events : List Line} {text : List Char} (h : WritesAll events text)
    (hevents : ∀ l ∈ events, Writable l) : readLines (Text.lines text) = .ok events := by
  induction h with
  | nil => rfl
  | @last said line h =>
    obtain ⟨hline, htells⟩ := h.tells (by simpa using hevents)
    rw [readLines_last hline, readLines_cons htells, readLines]
    exact congrArg Except.ok (List.append_nil _)
  | @cons said line mark text events h hmark _ ih =>
    have hsplit : (∀ l ∈ said, Writable l) ∧ ∀ l ∈ events, Writable l := by
      simpa [or_imp, forall_and] using hevents
    obtain ⟨hline, htells⟩ := h.tells hsplit.1
    rw [readLines_append hline hmark, readLines_cons htells, ih hsplit.2]
    rfl

/-! ## Reading back -/

theorem Margin.nil : Margin [] := ⟨.nil, by decide⟩

theorem Gap.space : Gap [' '] := ⟨⟨by decide, by decide⟩, by decide⟩

theorem exists_writesAll (events : List Line) : ∃ text, WritesAll events text := by
  induction events with
  | nil => exact ⟨[], .nil⟩
  | cons l events ih =>
    obtain ⟨text, h⟩ := ih
    have hword : AnyCase (directionWord l.pressed) (directionWord l.pressed) :=
      List.forall₂_same.mpr fun _ _ => Or.inl rfl
    obtain ⟨line, hline⟩ : ∃ line, Writes l line := ⟨_, .direction .nil .space .space hword .nil⟩
    exact ⟨_, .cons (.event hline) (by decide : ['\n'] ∈ Text.lineEnds) h⟩

/-- Events can be written, and they are read back from every text that they are written in. -/
theorem written_events_are_read {events : List Line} (hevents : ∀ l ∈ events, Writable l) :
    (∃ text : String, WritesAll events text.toList) ∧
    ∀ text : String, WritesAll events text.toList →
      readBytes (Text.Utf8.encode text) = .ok events := by
  refine ⟨?_, fun text h => ?_⟩
  · obtain ⟨text, h⟩ := exists_writesAll events
    exact ⟨String.ofList text, by rwa [String.toList_ofList]⟩
  · rw [readBytes_encode, readLines_of_writesAll h hevents]
    rfl

/-- A release of a key that looks like a remark, and a press that is not said. Each line has another
end than the one in front. -/
theorem read_back_behind_remark :
    (∀ l ∈ [⟨-12, "#1", false⟩, ⟨7, "q", true⟩], Writable l) ∧
    WritesAll [⟨-12, "#1", false⟩, ⟨7, "q", true⟩] "# keys\r\n-12\t#1  uP \r7 q".toList ∧
    readBytes (Text.Utf8.encode "# keys\r\n-12\t#1  uP \r7 q") =
      .ok [⟨-12, "#1", false⟩, ⟨7, "q", true⟩] := by
  have hsmall {n : Nat} (h : n < 10 ^ 2) : n < 10 ^ Text.Literal.maxDigits :=
    Nat.lt_of_lt_of_le h (Nat.pow_le_pow_right (by decide) (by decide))
  have hevents : ∀ l ∈ [(⟨-12, "#1", false⟩ : Line), ⟨7, "q", true⟩], Writable l := by
    simp only [List.forall_mem_cons, List.not_mem_nil, false_implies, implies_true, and_true]
    exact ⟨⟨hsmall (by decide), by decide⟩, ⟨hsmall (by decide), by decide⟩⟩
  have hremark : WritesLine none "# keys".toList := .remark (.mark .nil _) (by decide)
  have hrelease : WritesLine (some ⟨-12, "#1", false⟩) "-12\t#1  uP ".toList := by
    have hsigned : Text.signed 10 (-12) = "-12".toList := by decide +kernel
    have h : Writes ⟨-12, "#1", false⟩ ([] ++ Text.signed 10 (-12) ++
        (['\t'] ++ "#1".toList ++ ([' ', ' '] ++ ['u', 'P'] ++ [' ']))) :=
      .direction .nil ⟨⟨by decide, by decide⟩, by decide⟩ ⟨⟨by decide, by decide⟩, by decide⟩
        (.cons (Or.inl rfl) (.cons (Or.inr (by decide)) .nil)) Gap.space.toMargin
    rw [hsigned] at h
    exact .event h
  have hpress : WritesLine (some ⟨7, "q", true⟩) "7 q".toList := by
    have hsigned : Text.signed 10 7 = "7".toList := by decide +kernel
    have h : Writes ⟨7, "q", true⟩ ([] ++ Text.signed 10 7 ++ ([' '] ++ "q".toList ++ [])) :=
      .press .nil .space .nil
    rw [hsigned] at h
    exact .event h
  have htext : WritesAll [⟨-12, "#1", false⟩, ⟨7, "q", true⟩]
      ("# keys".toList ++ ['\r', '\n'] ++ ("-12\t#1  uP ".toList ++ ['\r'] ++ "7 q".toList)) :=
    .cons hremark (by decide) (.cons hrelease (by decide) (.last hpress))
  exact ⟨hevents, htext, (written_events_are_read hevents).2 _ htext⟩

end Chip8.Schedule
