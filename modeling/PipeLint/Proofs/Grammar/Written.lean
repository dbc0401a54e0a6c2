import PipeLint.Proofs.Grammar.Reading
import PipeLint.Proofs.Pipeline.Literal
import PipeLint.Proofs.Pipeline.Padded

/-!
# Stages as they are written

Someone who writes a stage writes the name of a command, or leaves it out, then some groups of
flags, and then one pattern, with white space between them. A pattern in quotes holds neither the
quote nor a backslash; a pattern without quotes is a word that cannot be taken for anything else. A
stage that is written like this is read as the items that were written.

## Main definitions

* `PipeLint.Item.LeadsUp`: the commands and groups of flags that can stand before a pattern.
* `PipeLint.Item.IsPlainPattern`: the patterns that leave nothing to be misread.
* `PipeLint.WrittenStage`: a stage as it is written, with its `WrittenStage.text` and its
  `WrittenStage.items`.

## Main results

* `PipeLint.WrittenStage.readsAs`: a stage is read as it was written.
* `PipeLint.WrittenStage.toPadded`: a written stage is a text with white space around it.
-/

namespace PipeLint

open Quoting

/-! ### The items of a written stage -/

namespace Item

/-- The items that can stand before the pattern of a stage: the name of a command, and a dash with
letters. -/
def LeadsUp : Item → Prop
  | command name => name ∈ commandNames
  | flags letters => letters ≠ [] ∧ ∀ c ∈ letters, isFlagLetter c = true
  | quoted _ _ | word _ => False

/-- The patterns that leave nothing to be misread: a string that holds neither its quote nor a
backslash, and a word of ordinary characters that does not look like another item. -/
def IsPlainPattern : Item → Prop
  | command _ | flags _ => False
  | quoted quote body => isQuote quote = true ∧ quote ∉ body ∧ '\\' ∉ body
  | word text =>
    (text ≠ [] ∧ ∀ c ∈ text, isBlank c = false ∧ isControl c = false ∧ isQuote c = false ∧
      c ≠ '\\' ∧ c ≠ '|') ∧ text.head? ≠ some '-' ∧ text ∉ commandNames

variable {i : Item}

/-- A command or a group of flags can be read before white space. -/
theorem LeadsUp.fits (h : i.LeadsUp) {rest : Text}
    (hrest : ∀ c, rest.head? = some c → isBlank c = true) : i.Fits rest := by
  cases i with
  | command name => exact ⟨h, hrest⟩
  | flags letters => exact ⟨h.1, h.2, fun c hc => isFlagLetter_of_isBlank (hrest c hc)⟩
  | quoted quote body => exact h.elim
  | word text => exact h.elim

theorem LeadsUp.isPlain (h : i.LeadsUp) : ∀ c ∈ i.text, isPlain c = true ∧ c ≠ '|' := by
  have hletter {c : Char} (hc : isFlagLetter c = true) : PipeLint.isPlain c = true ∧ c ≠ '|' := by
    refine ⟨isPlain_of_isFlagLetter hc, ?_⟩
    rintro rfl
    exact absurd hc (by decide)
  cases i with
  | command name =>
    have hpipe : '|' ∉ name := by
      have hall : commandNames.all ('|' ∉ ·) = true := by decide
      simpa using List.all_eq_true.mp hall name h
    exact fun c hc => ⟨isPlain_of_mem_commandNames h c hc, fun heq => hpipe (heq ▸ hc)⟩
  | flags letters => exact List.forall_mem_cons.mpr ⟨by decide, fun c hc => hletter (h.2 c hc)⟩
  | quoted quote body => exact h.elim
  | word text => exact h.elim

namespace IsPlainPattern

theorem fits (h : i.IsPlainPattern) : i.Fits [] := by
  cases i with
  | command name => exact h.elim
  | flags letters => exact h.elim
  | quoted quote body => exact ⟨h.1, Text.isInterior_of_notMem h.2.1 h.2.2⟩
  | word text =>
    obtain ⟨⟨hne, hall⟩, hdash, hname⟩ := h
    obtain ⟨c, t, rfl⟩ := List.exists_cons_of_ne_nil hne
    refine fitsWord_of_run (hall c List.mem_cons_self).2.2.1 (fun hflags => hdash ?_) ?_ (by simp)
      fun hfits => hname hfits.mem_commandNames
    · rw [hflags.1, List.head?_cons]
    · exact fun d hd => isWordCharacter_iff.mpr ⟨(hall d hd).1, (hall d hd).2.1⟩

theorem scan_text (h : i.IsPlainPattern) : neutral.scan i.text = neutral := by
  cases i with
  | command name => exact h.elim
  | flags letters => exact h.elim
  | quoted quote body => exact Text.scan_quoted h.1 h.2.1 h.2.2
  | word text =>
    refine scan_neutral_of_isPlain fun c hc => ?_
    obtain ⟨-, -, hquote, hback, -⟩ := h.1.2 c hc
    exact isPlain_eq_true_iff.mpr ⟨hback, hquote⟩

theorem unsplit_text (h : i.IsPlainPattern) : i.text.Unsplit := by
  cases i with
  | command name => exact h.elim
  | flags letters => exact h.elim
  | quoted quote body => exact Text.unsplit_quoted h.1 h.2.1 h.2.2
  | word text => exact Text.unsplit_of_notMem fun hmem => (h.1.2 '|' hmem).2.2.2.2 rfl

theorem isSearchable (h : i.IsPlainPattern) (supported : FlagSet) : i.IsSearchable supported := by
  cases i with
  | command name => exact h.elim
  | flags letters => exact h.elim
  | quoted quote body => trivial
  | word text => trivial

end IsPlainPattern

end Item

/-! ### Written stages -/

/-- A command or a group of flags with the white space behind it. -/
structure Heading where
  /-- The command or the group of flags. -/
  item : Item
  /-- The white space behind it. -/
  gap : Text
  leadsUp : item.LeadsUp
  blank_gap : gap.Blank
  gap_ne_nil : gap ≠ []

namespace Heading

/-- The item and the white space behind it. -/
def spelled (h : Heading) : Text :=
  h.item.text ++ h.gap

theorem isPlain_of_mem_spelled (h : Heading) : ∀ c ∈ h.spelled, isPlain c = true ∧ c ≠ '|' := by
  intro c hc
  rcases List.mem_append.mp hc with hc | hc
  · exact h.leadsUp.isPlain c hc
  · refine ⟨isPlain_of_isBlank (h.blank_gap c hc), ?_⟩
    rintro rfl
    exact absurd (h.blank_gap _ hc) (by decide)

theorem isBlank_of_head?_gap_append (h : Heading) (rest : Text) :
    ∀ c, (h.gap ++ rest).head? = some c → isBlank c = true := by
  obtain ⟨d, gap, heq⟩ := List.exists_cons_of_ne_nil h.gap_ne_nil
  intro c hc
  rw [heq, List.cons_append, List.head?_cons] at hc
  obtain rfl := Option.some.inj hc
  exact h.blank_gap d (by simp [heq])

end Heading

/-- A stage as it is written: white space, the name of a command if there is one, groups of flags, a
pattern, and white space. -/
structure WrittenStage where
  /-- The white space before the stage. -/
  left : Text
  /-- The name of a command, if there is one. -/
  command? : Option Heading
  /-- The groups of flags. -/
  groups : List Heading
  /-- What is searched for. -/
  pattern : Item
  /-- The white space behind the stage. -/
  right : Text
  blank_left : left.Blank
  blank_right : right.Blank
  kind_command : ∀ h ∈ command?, h.item.kind = .command
  kind_groups : ∀ h ∈ groups, h.item.kind = .flags
  isPlainPattern : pattern.IsPlainPattern

namespace WrittenStage

/-- All that is written before the pattern. -/
def headings (s : WrittenStage) : List Heading :=
  s.command?.toList ++ s.groups

/-- The text of the stage, without the white space around it. -/
def text (s : WrittenStage) : Text :=
  s.headings.flatMap Heading.spelled ++ s.pattern.text

/-- The text of the stage and the white space around it. -/
def spelled (s : WrittenStage) : Text :=
  s.left ++ s.text ++ s.right

/-- The items of the stage. -/
def items (s : WrittenStage) : List Item :=
  s.headings.map Heading.item ++ [s.pattern]

end WrittenStage

/-! ### Reading a written stage -/

namespace Text.ReadsAs

variable {t : Text} {items : List Item}

theorem append_blank {w : Text} (hw : w.Blank) (h : t.ReadsAs items) : (w ++ t).ReadsAs items := by
  induction w with
  | nil => exact h
  | cons c w ih =>
    obtain ⟨hc, hw⟩ := blank_cons.mp hw
    exact .blank hc (ih hw)

/-- What is written before a text is read before it. -/
theorem append_headings (headings : List Heading) (h : t.ReadsAs items) :
    ReadsAs (headings.flatMap Heading.spelled ++ t) (headings.map Heading.item ++ items) := by
  induction headings with
  | nil => exact h
  | cons heading headings ih =>
    rw [List.flatMap_cons, Heading.spelled, List.append_assoc, List.append_assoc]
    exact .item (heading.leadsUp.fits (heading.isBlank_of_head?_gap_append _))
      (ih.append_blank heading.blank_gap)

end Text.ReadsAs

namespace WrittenStage

variable (s : WrittenStage)

/-- A stage is read as the items that were written. -/
theorem readsAs : s.text.ReadsAs s.items := by
  have hpattern : s.pattern.text.ReadsAs [s.pattern] := by
    rw [← List.append_nil s.pattern.text]
    exact .item s.isPlainPattern.fits .nil
  exact hpattern.append_headings s.headings

theorem text_ne_nil : s.text ≠ [] := by
  obtain ⟨c, t, htext, -⟩ := s.isPlainPattern.fits.exists_first_eq
  rw [List.append_nil] at htext
  simp [text, htext]

theorem trimmed_text : s.text.Trimmed where
  head c hc := by
    rw [text] at hc
    cases hheadings : s.headings with
    | nil =>
      rw [hheadings, List.flatMap_nil, List.nil_append, ← List.append_nil s.pattern.text] at hc
      exact s.isPlainPattern.fits.isBlank_of_head? hc
    | cons heading headings =>
      rw [hheadings, List.flatMap_cons, Heading.spelled, List.append_assoc, List.append_assoc] at hc
      exact (heading.leadsUp.fits (heading.isBlank_of_head?_gap_append _)).isBlank_of_head? hc
  last c hc := by
    obtain ⟨d, t, htext, -⟩ := s.isPlainPattern.fits.exists_first_eq
    rw [List.append_nil] at htext
    have hne : s.pattern.text ≠ [] := by simp [htext]
    rw [text, List.getLast?_append_of_ne_nil _ hne] at hc
    exact s.isPlainPattern.fits.isBlank_of_getLast? hc

theorem isPlain_of_mem_headings :
    ∀ c ∈ s.headings.flatMap Heading.spelled, isPlain c = true ∧ c ≠ '|' := by
  intro c hc
  obtain ⟨heading, -, hc⟩ := List.mem_flatMap.mp hc
  exact heading.isPlain_of_mem_spelled c hc

theorem scan_headings : neutral.scan (s.headings.flatMap Heading.spelled) = neutral :=
  scan_neutral_of_isPlain fun c hc => (s.isPlain_of_mem_headings c hc).1

theorem scan_text : neutral.scan s.text = neutral := by
  rw [text, scan_append, s.scan_headings, s.isPlainPattern.scan_text]

theorem unsplit_text : s.text.Unsplit :=
  (Text.unsplit_of_notMem fun hmem => (s.isPlain_of_mem_headings _ hmem).2 rfl).append
    s.scan_headings s.isPlainPattern.unsplit_text

/-- A written stage is a text with white space around it. -/
def toPadded : PaddedStage where
  left := s.left
  text := s.text
  right := s.right
  blank_left := s.blank_left
  blank_right := s.blank_right
  trimmed := s.trimmed_text
  unsplit := s.unsplit_text

end WrittenStage

end PipeLint
