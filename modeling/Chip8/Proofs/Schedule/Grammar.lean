import Chip8.Proofs.Text.Lines
import Chip8.Proofs.Text.Literal
import Chip8.Proofs.Text.Lower
import Chip8.Schedule.File

/-!
# The grammar of key schedules

A line of a schedule says nothing if it is blank or a remark (`Schedule.Remark`), and otherwise an
event by its words : a tick, a key, and a direction or none (`Schedule.Reads`). A line that is
neither offends in its tick, in its key or in its direction (`Schedule.Offends`).

The words of a line are read to the third one. A line says the event of these words
(`Schedule.Tells`), and it is refused if they offend (`Schedule.Refuses`), whatever is behind them. So
a schedule gives the events of its lines in their order, or the error of the first line that is
refused (`Schedule.texts_are_read_by_lines`), but two events on one line pass for the first of them
(`Schedule.trailing_words_are_dropped`).
-/

namespace Chip8.Schedule

open Text (AllBlank AnyCase IsWord Spaced Strips)
open Text.Literal (Spells)

/-! ## Lines -/

/-- A line that says nothing : only blanks, or blanks and a mark. -/
inductive Remark : List Char → Prop
  | blank {line : List Char} (h : AllBlank line) : Remark line
  | mark {blanks : List Char} (h : AllBlank blanks) (rest : List Char) :
    Remark (blanks ++ '#' :: rest)

/-- The word of a direction. -/
def directionWord (pressed : Bool) : List Char := if pressed then "down".toList else "up".toList

/-- The words of a line tell an event : a tick and a key, which goes down if no direction is said. -/
inductive Reads : List (List Char) → Line → Prop
  | press {tick key : List Char} {i : Int} (htick : Spells tick i) :
    Reads [tick, key] ⟨i, String.ofList key, true⟩
  | direction {tick key direction : List Char} {i : Int} {pressed : Bool} (htick : Spells tick i)
    (hdirection : AnyCase direction (directionWord pressed)) :
    Reads [tick, key, direction] ⟨i, String.ofList key, pressed⟩

/-- What is wrong with the words of a line. -/
inductive Offends : List (List Char) → Fault → Prop
  | tick {tick : List Char} {rest : List (List Char)} (h : ∀ i, ¬ Spells tick i) :
    Offends (tick :: rest) .tick
  | noKey {tick : List Char} {i : Int} (htick : Spells tick i) : Offends [tick] .noKey
  | direction {tick key direction : List Char} {rest : List (List Char)} {i : Int}
    (htick : Spells tick i) (h : ∀ pressed, ¬ AnyCase direction (directionWord pressed)) :
    Offends (tick :: key :: direction :: rest) .direction

/-- A line says an event or nothing. Words behind the third are passed over. -/
inductive Tells : List Char → Option Line → Prop
  | remark {line : List Char} (h : Remark line) : Tells line none
  | event {line : List Char} {words : List (List Char)} {l : Line} (hline : ¬ Remark line)
    (hwords : Spaced words line) (h : Reads (words.take 3) l) : Tells line (some l)

/-- A line is refused for its words, and quoted without the blanks around it. -/
structure Refuses (line : List Char) (e : Error) : Prop where
  speaks : ¬ Remark line
  offends : ∃ words, Spaced words line ∧ Offends words e.fault
  quoted : Strips line e.line

/-- The error of the first of some lines that is refused. -/
def RefusesFirst (lines : List (List Char)) (e : Error) : Prop :=
  ∃ before line after, lines = before ++ line :: after ∧ (∀ l ∈ before, ∃ said, Tells l said) ∧
    Refuses line e

/-! ## Reading a line -/

theorem isRemark_strip_iff {line : List Char} :
    isRemark (Text.strip line) = true ↔ Remark line := by
  have hiff (core : List Char) : isRemark core = true ↔ core = [] ∨ core.head? = some '#' := by
    simp [isRemark]
  rw [hiff]
  constructor
  · obtain ⟨before, after, hbefore, hafter, hline⟩ := (Text.strips_strip line).around
    rintro (hempty | hmark)
    · rw [hempty, List.append_nil] at hline
      exact hline ▸ .blank (List.forall_mem_append.mpr ⟨hbefore, hafter⟩)
    · obtain ⟨rest, hcore⟩ := List.head?_eq_some_iff.mp hmark
      rw [hcore, List.append_assoc] at hline
      exact hline ▸ .mark hbefore (rest ++ after)
  · rintro (hblank | ⟨hblanks, rest⟩)
    · refine Or.inl (Text.strip_eq_iff.mpr ⟨⟨line, [], hblank, .nil, by simp⟩, ?_, ?_⟩) <;> simp
    · exact Or.inr (Text.head_strip hblanks (by decide) rest)

theorem plain_directionWord (pressed : Bool) : ∀ l ∈ directionWord pressed, Text.IsPlain l := by
  intro l hl
  cases pressed with
  | true =>
    obtain rfl | rfl | rfl | rfl : l = 'd' ∨ l = 'o' ∨ l = 'w' ∨ l = 'n' := by
      simpa [directionWord] using hl
    all_goals decide
  | false =>
    obtain rfl | rfl : l = 'u' ∨ l = 'p' := by simpa [directionWord] using hl
    all_goals decide

theorem direction?_eq_some_iff {word : List Char} {pressed : Bool} :
    direction? word = some pressed ↔ AnyCase word (directionWord pressed) := by
  have hother : directionWord true ≠ directionWord false := by decide
  rw [← Text.lowerFrom_eq_iff (plain_directionWord pressed) false]
  show (if Text.lowerFrom false word = directionWord true then some true
    else if Text.lowerFrom false word = directionWord false then some false else none) =
      some pressed ↔ _
  cases pressed with
  | true => grind
  | false => grind

/-- The words behind the third make no difference. -/
theorem readWords_take (words : List (List Char)) : readWords words = readWords (words.take 3) := by
  match words with
  | [] | [_] | [_, _] => rfl
  | tick :: _ :: _ :: _ =>
    simp only [List.take_succ_cons, List.take_zero, readWords]
    cases Text.Literal.read 10 tick <;> rfl

theorem readWords_of_reads {words : List (List Char)} (hwords : ∀ w ∈ words, IsWord w) {l : Line}
    (h : Reads words l) : readWords words = .ok l := by
  have hread {tick : List Char} {i : Int} (hmem : tick ∈ words) (htick : Spells tick i) :
      Text.Literal.read 10 tick = .ok i :=
    (Text.Literal.read_eq_ok_iff (hwords tick hmem).letters).mpr htick
  cases h with
  | press htick => simp only [readWords, hread (by simp) htick]
  | direction htick hdirection =>
    simp only [readWords, hread (by simp) htick, direction?_eq_some_iff.mpr hdirection]

theorem readWords_of_offends {words : List (List Char)} (hwords : ∀ w ∈ words, IsWord w)
    {fault : Fault} (h : Offends words fault) : readWords words = .error fault := by
  have hread {tick : List Char} {i : Int} (hmem : tick ∈ words) :
      Text.Literal.read 10 tick = .ok i ↔ Spells tick i :=
    Text.Literal.read_eq_ok_iff (hwords tick hmem).letters
  cases h with
  | @tick tick rest h =>
    cases hr : Text.Literal.read 10 tick with
    | ok i => exact absurd ((hread (by simp)).mp hr) (h i)
    | error e => simp only [readWords, hr]
  | noKey htick => simp only [readWords, (hread (by simp)).mpr htick]
  | @direction tick key direction rest i htick h =>
    have hdirection : direction? direction = none :=
      Option.eq_none_iff_forall_ne_some.mpr fun b hb => h b (direction?_eq_some_iff.mp hb)
    simp only [readWords, (hread (by simp)).mpr htick, hdirection]

/-- Words tell an event by the first three of them, or they offend. -/
theorem reads_or_offends {words : List (List Char)} (hne : words ≠ []) :
    (∃ l, Reads (words.take 3) l) ∨ ∃ fault, Offends words fault := by
  match words with
  | tick :: rest =>
    by_cases htick : ∃ i, Spells tick i
    · obtain ⟨i, htick⟩ := htick
      match rest with
      | [] => exact Or.inr ⟨_, .noKey htick⟩
      | [_] => exact Or.inl ⟨_, .press htick⟩
      | _ :: direction :: _ =>
        by_cases hdirection : ∃ pressed, AnyCase direction (directionWord pressed)
        · obtain ⟨pressed, hdirection⟩ := hdirection
          exact Or.inl ⟨_, .direction htick hdirection⟩
        · exact Or.inr ⟨_, .direction htick (not_exists.mp hdirection)⟩
    · exact Or.inr ⟨_, .tick (not_exists.mp htick)⟩

theorem readLine_of_remark {line : List Char} (h : Remark line) : readLine line = .ok none := by
  simp only [readLine, isRemark_strip_iff.mpr h, if_true]

/-- A line that is no remark is read by its words. -/
theorem readLine_of_words {line : List Char} {words : List (List Char)} (h : ¬ Remark line)
    (hwords : Spaced words line) :
    readLine line = ((readWords words).map some).mapError (⟨·, Text.strip line⟩) := by
  have hremark : ¬ isRemark (Text.strip line) = true := isRemark_strip_iff.not.mpr h
  simp only [readLine, if_neg hremark, Text.words_strip, Text.words_eq_iff.mpr hwords]

theorem readLine_of_tells {line : List Char} {said : Option Line} (h : Tells line said) :
    readLine line = .ok said := by
  cases h with
  | remark h => exact readLine_of_remark h
  | event hline hwords h =>
    have htake := readWords_of_reads (fun w hw => hwords.isWord w (List.mem_of_mem_take hw)) h
    rw [readLine_of_words hline hwords, readWords_take, htake]
    rfl

theorem readLine_of_refuses {line : List Char} {e : Error} (h : Refuses line e) :
    readLine line = .error e := by
  obtain ⟨words, hwords, hoffends⟩ := h.offends
  rw [readLine_of_words h.speaks hwords, readWords_of_offends hwords.isWord hoffends,
    Text.strip_eq_iff.mpr h.quoted]
  rfl

theorem tells_or_refuses (line : List Char) : (∃ said, Tells line said) ∨ ∃ e, Refuses line e := by
  by_cases hline : Remark line
  · exact Or.inl ⟨none, .remark hline⟩
  · have hwords : Spaced (Text.words line) line := Text.words_eq_iff.mp rfl
    have hne : Text.words line ≠ [] := fun hnil =>
      hline (.blank (Spaced.allBlank (hnil ▸ hwords)))
    rcases reads_or_offends hne with ⟨l, hreads⟩ | ⟨fault, hoffends⟩
    · exact Or.inl ⟨some l, .event hline hwords hreads⟩
    · exact Or.inr ⟨⟨fault, Text.strip line⟩, hline, ⟨_, hwords, hoffends⟩, Text.strips_strip line⟩

/-! ## Reading lines -/

theorem readLines_of_tells {lines : List (List Char)} {told : List (Option Line)}
    (h : List.Forall₂ Tells lines told) : readLines lines = .ok told.reduceOption := by
  induction h with
  | nil => rfl
  | @cons line said lines told htells _ ih =>
    rw [readLines, readLine_of_tells htells, ih]
    cases said <;> rfl

theorem readLines_of_refusesFirst {lines : List (List Char)} {e : Error}
    (h : RefusesFirst lines e) : readLines lines = .error e := by
  obtain ⟨before, line, after, rfl, hbefore, hrefuses⟩ := h
  induction before with
  | nil =>
    rw [List.nil_append, readLines, readLine_of_refuses hrefuses]
    rfl
  | cons l before ih =>
    obtain ⟨⟨said, htells⟩, hbefore⟩ := List.forall_mem_cons.mp hbefore
    rw [List.cons_append, readLines, readLine_of_tells htells, ih hbefore]
    rfl

theorem told_or_refused (lines : List (List Char)) :
    (∃ told, List.Forall₂ Tells lines told) ∨ ∃ e, RefusesFirst lines e := by
  induction lines with
  | nil => exact Or.inl ⟨[], .nil⟩
  | cons line lines ih =>
    rcases tells_or_refuses line with ⟨said, htells⟩ | ⟨e, hrefuses⟩
    · rcases ih with ⟨told, htold⟩ | ⟨e, before, refused, after, rfl, hbefore, hrefuses⟩
      · exact Or.inl ⟨said :: told, .cons htells htold⟩
      · exact Or.inr ⟨e, line :: before, refused, after, rfl,
          List.forall_mem_cons.mpr ⟨⟨said, htells⟩, hbefore⟩, hrefuses⟩
    · exact Or.inr ⟨e, [], line, lines, rfl, by simp, hrefuses⟩

/-- Lines give what they say, if none of them is refused. -/
theorem readLines_eq_ok_iff {lines : List (List Char)} {events : List Line} :
    readLines lines = .ok events ↔
      ∃ told, List.Forall₂ Tells lines told ∧ told.reduceOption = events := by
  constructor
  · intro h
    rcases told_or_refused lines with ⟨told, htold⟩ | ⟨e, hrefuses⟩
    · exact ⟨told, htold, Except.ok.inj ((readLines_of_tells htold).symm.trans h)⟩
    · rw [readLines_of_refusesFirst hrefuses] at h
      contradiction
  · rintro ⟨told, htold, rfl⟩
    exact readLines_of_tells htold

theorem readLines_eq_error_iff {lines : List (List Char)} {e : Error} :
    readLines lines = .error e ↔ RefusesFirst lines e := by
  refine ⟨fun h => ?_, readLines_of_refusesFirst⟩
  rcases told_or_refused lines with ⟨told, htold⟩ | ⟨e', hrefuses⟩
  · rw [readLines_of_tells htold] at h
    contradiction
  · obtain rfl : e' = e := Except.error.inj ((readLines_of_refusesFirst hrefuses).symm.trans h)
    exact hrefuses

/-- A text is read line by line. -/
theorem readBytes_encode (text : String) : readBytes (Text.Utf8.encode text) =
    (readLines (Text.lines text.toList)).mapError .line := by
  rw [readBytes, Text.Utf8.decode?_encode]
  rfl

/-- A text is read to the events that its lines say, in their order, or to the error of the first
line that is refused. -/
theorem texts_are_read_by_lines (text : String) : ∃ lines, Text.Lined lines text.toList ∧
    (∀ events, readBytes (Text.Utf8.encode text) = .ok events ↔
      ∃ told, List.Forall₂ Tells lines told ∧ told.reduceOption = events) ∧
    (∀ e, readBytes (Text.Utf8.encode text) = .error (.line e) ↔ RefusesFirst lines e) ∧
    readBytes (Text.Utf8.encode text) ≠ .error .undecodable := by
  refine ⟨Text.lines text.toList, Text.lines_eq_iff.mp rfl, ?_⟩
  simp only [readBytes_encode, ← readLines_eq_ok_iff, ← readLines_eq_error_iff]
  cases readLines (Text.lines text.toList) with
  | error e => simp [Except.mapError]
  | ok events => simp [Except.mapError]

/-- Of two events on one line the second is lost. -/
theorem trailing_words_are_dropped :
    readBytes (Text.Utf8.encode "3 q down 9 w up\n") = .ok [⟨3, "q", true⟩] ∧
    ∃ line words, Text.Lined [line] "3 q down 9 w up\n".toList ∧ ¬ Remark line ∧
      Spaced words line ∧ ∀ l, ¬ Reads words l := by
  refine ⟨?_, "3 q down 9 w up".toList,
    ["3".toList, "q".toList, "down".toList, "9".toList, "w".toList, "up".toList],
    Text.lines_eq_iff.mp (by decide), isRemark_strip_iff.not.mp (by decide),
    Text.words_eq_iff.mp (by decide), fun l h => by cases h⟩
  · rw [readBytes_encode]
    decide +kernel

end Chip8.Schedule
