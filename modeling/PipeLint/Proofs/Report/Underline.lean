import PipeLint.Proofs.Report.Order
import PipeLint.Proofs.Text.Lines
import PipeLint.Proofs.Text.Occurrence
import PipeLint.Report.Render

/-!
# What is underlined

A report for people shows each of its entries in three lines: what is wrong, the expression, and a
row of carets. Spans are counted in bytes and rows in characters, so the one has to be turned into
the other. This is possible for every entry of a report on an expression, since its span covers a
part of the expression: the characters before the part are the spaces of the row, and the characters
of the part are its carets. An entry on the pipeline as a whole covers nothing; it has one caret,
under the first character.

## Main definitions

* `PipeLint.Text.Underlines`: a row with carets in given columns.
* `PipeLint.Entry.Marks`: the columns of the characters that an entry is about.
* `PipeLint.Entry.ShownAs`: the lines that show an entry.

## Main results

* `PipeLint.Text.byteLength_le_iff_of_append_eq`: places of a text in bytes and in characters.
* `PipeLint.Text.slice?_of_cut`: the span of a part is counted in characters.
* `PipeLint.Entry.exists_shownAs`: an entry that covers a part is shown with carets under the part.
* `PipeLint.Rules.exists_cut_of_mem_entries_report`: the entries of a report cover parts.
* `PipeLint.Rules.render_report`: the report on an expression for people to read.
-/

namespace PipeLint

/-! ### Columns -/

namespace Text

/-- Of two beginnings of one text, the one with more bytes has more characters. -/
theorem byteLength_le_iff_of_append_eq {a b a' b' : Text} (h : a ++ b = a' ++ b') :
    a.byteLength ≤ a'.byteLength ↔ a.length ≤ a'.length := by
  rcases List.append_eq_append_iff.mp h with ⟨c, rfl, -⟩ | ⟨c, rfl, -⟩
  · simp
  · have hnil : byteLength c = 0 ↔ c.length = 0 := by
      rw [byteLength_eq_zero_iff, List.length_eq_zero_iff]
    simp only [byteLength_append, List.length_append]
    omega

/-- The characters in the span of a part are those in the columns of the part. -/
theorem within_iff_of_mem_occurrences {front part back : Text} {o : Occurrence}
    (ho : o ∈ occurrences (front ++ part ++ back)) :
    o.span.Within ⟨front.byteLength, part.byteLength⟩ ↔
      front.length ≤ o.front.length ∧ o.front.length < front.length + part.length := by
  have hcut : front ++ part ++ back = o.front ++ o.char :: o.back := mem_occurrences_iff.mp ho
  have hbefore : front ++ (part ++ back) = o.front ++ o.char :: o.back := by
    rw [← hcut, List.append_assoc]
  have hstart := byteLength_le_iff_of_append_eq hbefore
  have hbehind : (o.front ++ [o.char]) ++ o.back = (front ++ part) ++ back := by
    simpa using hcut.symm
  have hstop := byteLength_le_iff_of_append_eq hbehind
  simp only [byteLength_append, byteLength_cons, byteLength_nil, List.length_append,
    List.length_singleton, Nat.add_zero] at hstop
  constructor
  · rintro ⟨hle, hle'⟩
    exact ⟨hstart.mp hle, hstop.mp hle'⟩
  · rintro ⟨hle, hlt⟩
    exact ⟨hstart.mpr hle, hstop.mpr hlt⟩

theorem exists_mem_occurrences_of_lt {t : Text} {column : Nat} (h : column < t.length) :
    ∃ o ∈ t.occurrences, o.front.length = column := by
  refine ⟨⟨t.take column, t[column], t.drop (column + 1)⟩, mem_occurrences_iff.mpr ?_, ?_⟩
  · simp
  · exact List.length_take_of_le h.le

/-- The two ends of a part are places in the text, so the span of the part and what stands before it
are counted in characters. -/
theorem slice?_of_cut (front part back : Text) :
    (front ++ part ++ back).slice? 0 front.byteLength = some front ∧
      (front ++ part ++ back).slice? front.byteLength (front.byteLength + part.byteLength) =
        some part :=
  ⟨slice?_eq_some_iff.mpr ⟨[], part ++ back, by simp, rfl, rfl⟩,
    slice?_eq_some_iff.mpr ⟨front, back, rfl, rfl, byteLength_append front part⟩⟩

/-- A row has carets in just the columns that are marked: spaces come first, then carets, and
nothing behind them. -/
structure Underlines (row : Text) (marks : Nat → Prop) : Prop where
  /-- The columns with carets are the marked ones. -/
  caret_iff : ∀ column, row[column]? = some '^' ↔ marks column
  /-- Before the carets there are spaces, and the last of the carets ends the row. -/
  exists_eq : ∃ spaces carets, 0 < carets ∧
    row = List.replicate spaces ' ' ++ List.replicate carets '^'

/-- A row of spaces and carets underlines the columns behind the spaces. -/
theorem underlines_replicate {spaces carets : Nat} {marks : Nat → Prop} (hpos : 0 < carets)
    (h : ∀ column, marks column ↔ spaces ≤ column ∧ column < spaces + carets) :
    Underlines (List.replicate spaces ' ' ++ List.replicate carets '^') marks where
  caret_iff column := by
    rw [h, List.getElem?_append, List.length_replicate]
    split
    · rename_i hlt
      simp [hlt, Nat.not_le.mpr hlt]
    · rename_i hge
      simp only [List.getElem?_replicate, Option.ite_none_right_eq_some, and_true]
      omega
  exists_eq := ⟨spaces, carets, hpos, rfl⟩

end Text

/-! ### Lines -/

/-- The columns of the characters that an entry is about: of those in its span, or of the first one
if the entry is about the pipeline as a whole. -/
def Entry.Marks (input : Text) (e : Entry) (column : Nat) : Prop :=
  if e.isPipelineWide then column = 0
  else ∃ o ∈ input.occurrences, o.front.length = column ∧ o.span.Within e.span

/-- The lines that show an entry: its severity and wording, the expression, and a row of carets
under the characters that it is about. -/
def Entry.ShownAs (input : Text) (e : Entry) (lines : List Text) : Prop :=
  ∃ row, lines = [e.severity.name ++ ": ".toList ++ e.message, "  ".toList ++ input,
      "  ".toList ++ row] ∧
    row.Underlines (e.Marks input)

theorem Issue.lineFeed_notMem_message {i : Issue} (h : i ≠ .unsupportedFlag '\n') :
    '\n' ∉ i.message := by
  cases i with
  | unsupportedFlag c =>
    have hwords : '\n' ∉ "unsupported flag: -".toList := by decide +kernel
    have hc : '\n' ≠ c := by
      rintro rfl
      exact h rfl
    exact List.not_mem_append hwords (List.mem_singleton.not.mpr hc)
  | openQuote quote =>
    rw [message_openQuote]
    split <;> decide +kernel
  | _ => decide +kernel

theorem Entry.ShownAs.lineFeed_notMem {input : Text} {e : Entry} {lines : List Text}
    (h : e.ShownAs input lines) (hinput : '\n' ∉ input) (hmessage : '\n' ∉ e.message) :
    ∀ line ∈ lines, '\n' ∉ line := by
  obtain ⟨row, rfl, hrow⟩ := h
  obtain ⟨spaces, carets, -, rfl⟩ := hrow.exists_eq
  have hname : '\n' ∉ e.severity.name := by cases e.severity <;> decide
  simp [hname, hmessage, hinput]

theorem Entry.render_eq_ofLines (input : Text) (e : Entry) :
    e.render input = Text.ofLines [e.severity.name ++ ": ".toList ++ e.message,
      "  ".toList ++ input,
      "  ".toList ++ (List.replicate (input.width 0 e.span.start) ' ' ++
        List.replicate (max (input.width e.span.start e.span.stop) 1) '^')] := by
  simp [render, Text.ofLines]

/-- An entry that covers a part of the expression, or is about the pipeline as a whole and covers
nothing, is shown with carets under the characters that it is about. -/
theorem Entry.exists_shownAs {front part back : Text} {e : Entry}
    (hspan : e.span = ⟨front.byteLength, part.byteLength⟩)
    (hwide : e.isPipelineWide = true → front = [] ∧ part = [])
    (hplaced : e.isPipelineWide = false → part ≠ []) :
    ∃ lines, e.ShownAs (front ++ part ++ back) lines ∧
      e.render (front ++ part ++ back) = Text.ofLines lines := by
  refine ⟨_, ⟨_, rfl, ?_⟩, e.render_eq_ofLines _⟩
  obtain ⟨hindent, hwidth⟩ := Text.slice?_of_cut front part back
  have hstop : e.span.stop = front.byteLength + part.byteLength := by rw [hspan]; rfl
  rw [hstop, hspan, Text.width, Text.width, hindent, hwidth]
  refine Text.underlines_replicate (Nat.lt_of_lt_of_le Nat.one_pos (Nat.le_max_right _ _))
    fun column => ?_
  cases hkind : e.isPipelineWide with
  | true =>
    obtain ⟨rfl, rfl⟩ := hwide hkind
    simp [Marks, hkind]
  | false =>
    have hpos : max part.length 1 = part.length :=
      Nat.max_eq_left (List.length_pos_iff.mpr (hplaced hkind))
    simp only [Marks, hkind, Bool.false_eq_true, if_false, hspan, hpos]
    constructor
    · rintro ⟨o, ho, rfl, hwithin⟩
      exact (Text.within_iff_of_mem_occurrences ho).mp hwithin
    · intro hcolumn
      have hlt : column < (front ++ part ++ back).length := by
        simp only [List.length_append]
        omega
      obtain ⟨o, ho, rfl⟩ := Text.exists_mem_occurrences_of_lt hlt
      exact ⟨o, ho, rfl, (Text.within_iff_of_mem_occurrences ho).mpr hcolumn⟩

namespace Report

variable {input : Text} {r : Report}

theorem render_eq_flatMap (h : r.entries ≠ []) :
    r.render input = r.entries.flatMap (·.render input) := by
  rw [render]
  split
  · contradiction
  · rfl

theorem render_eq_ok_iff : r.render input = "ok\n".toList ↔ r.entries = [] := by
  constructor
  · intro h
    by_contra hne
    obtain ⟨e, entries, heq⟩ := List.exists_cons_of_ne_nil hne
    rw [render_eq_flatMap hne, heq, List.flatMap_cons, Entry.render_eq_ofLines] at h
    -- the severity comes first, and neither of them starts with the letter `o`
    have hname : ∃ c, e.severity.name.head? = some c ∧ c ≠ 'o' := by
      cases e.severity
      · exact ⟨'e', by decide +kernel, by decide⟩
      · exact ⟨'w', by decide +kernel, by decide⟩
    obtain ⟨c, hc, hne⟩ := hname
    have hhead := congrArg List.head? h
    simp only [Text.ofLines, List.flatMap_cons, List.head?_append, hc, Option.some_or] at hhead
    exact hne (Option.some.inj (hhead.trans (by decide +kernel)))
  · intro h
    rw [render, h]

/-- If each of some entries is shown in lines of a kind, then all of them together are shown in the
lines of the one after those of the other. -/
theorem exists_blocks {kind : Entry → List Text → Prop} {entries : List Entry}
    (h : ∀ e ∈ entries, ∃ lines, kind e lines ∧ e.render input = Text.ofLines lines) :
    ∃ blocks, List.Forall₂ kind entries blocks ∧
      entries.flatMap (·.render input) = Text.ofLines blocks.flatten := by
  induction entries with
  | nil => exact ⟨[], .nil, rfl⟩
  | cons e entries ih =>
    obtain ⟨lines, hlines, hrender⟩ := h e List.mem_cons_self
    obtain ⟨blocks, hblocks, hrest⟩ := ih fun e he => h e (List.mem_cons_of_mem _ he)
    refine ⟨lines :: blocks, .cons hlines hblocks, ?_⟩
    rw [List.flatMap_cons, hrender, hrest, List.flatten_cons, Text.ofLines, Text.ofLines,
      Text.ofLines, List.flatMap_append]

end Report

namespace Rules

variable {r : Rules} {t : Text} {e : Entry}

/-! ### Reports on expressions -/

/-- An entry of a report covers a part of the expression that is not empty, or it is about the
pipeline as a whole and covers nothing. -/
theorem exists_cut_of_mem_entries_report (he : e ∈ (r.report t).entries) :
    ∃ front part back, t = front ++ part ++ back ∧
      e.span = ⟨front.byteLength, part.byteLength⟩ ∧
      (e.isPipelineWide = true → front = [] ∧ part = []) ∧
      (e.isPipelineWide = false → part ≠ []) := by
  obtain ⟨f, hf, rfl⟩ := r.exists_of_mem_entries_report he
  obtain ⟨part, ⟨front, back, rfl, hfront⟩, hlength, hnames⟩ := points_of_mem_findings hf
  rw [Finding.isPipelineWide_entry]
  refine ⟨front, part, back, rfl, Span.ext hfront.symm hlength.symm, fun hwide => ?_,
    hnames.part_ne_nil r⟩
  have hspan : f.span = ⟨0, 0⟩ := by
    cases hissue : f.issue <;> simp only [hissue, Issue.isPipelineWide, Bool.false_eq_true] at hwide
    all_goals simpa only [hissue, Names] using hnames
  rw [hspan] at hfront hlength
  exact ⟨Text.byteLength_eq_zero_iff.mp hfront, Text.byteLength_eq_zero_iff.mp hlength⟩

theorem lineFeed_notMem_of_mem_entries_report (he : e ∈ (r.report t).entries) :
    '\n' ∉ e.message := by
  obtain ⟨f, hf, rfl⟩ := r.exists_of_mem_entries_report he
  obtain ⟨part, -, -, hnames⟩ := points_of_mem_findings hf
  refine Issue.lineFeed_notMem_message fun hissue => ?_
  rw [hissue] at hnames
  exact absurd hnames.2.1 (by decide)

/-- **Reports underline what they are about.** Let there be no line feed in an expression. The
report on it is shown as `ok` exactly if it has no entries; and otherwise in the lines that show its
entries, one after the other, which are all the lines there are. The spans of all entries are
counted in characters. -/
theorem render_report (r : Rules) {t : Text} (h : '\n' ∉ t) :
    ((r.report t).render t = "ok\n".toList ↔ (r.report t).entries = []) ∧
      ((r.report t).entries ≠ [] → ∃ blocks,
        List.Forall₂ (Entry.ShownAs t) ((r.report t).errors ++ (r.report t).warnings) blocks ∧
          (r.report t).render t = Text.ofLines blocks.flatten ∧
          ∀ line ∈ blocks.flatten, '\n' ∉ line) ∧
      ∀ e ∈ (r.report t).entries, (t.slice? 0 e.span.start).isSome = true ∧
        (t.slice? e.span.start e.span.stop).isSome = true := by
  refine ⟨Report.render_eq_ok_iff, fun hne => ?_, fun e he => ?_⟩
  · have hshown : ∀ e ∈ (r.report t).entries, ∃ lines,
        ((∀ line ∈ lines, '\n' ∉ line) ∧ e.ShownAs t lines) ∧
          e.render t = Text.ofLines lines := fun e he => by
      have hmessage : '\n' ∉ e.message := lineFeed_notMem_of_mem_entries_report he
      obtain ⟨front, part, back, rfl, hspan, hwide, hplaced⟩ := exists_cut_of_mem_entries_report he
      obtain ⟨lines, hlines, hrender⟩ := Entry.exists_shownAs hspan hwide hplaced
      exact ⟨lines, ⟨hlines.lineFeed_notMem h hmessage, hlines⟩, hrender⟩
    obtain ⟨blocks, hblocks, hrender⟩ := Report.exists_blocks hshown
    obtain ⟨hlines, hshown⟩ := (List.forall₂_and_left _ _).mp hblocks.flip
    refine ⟨blocks, hshown.flip, ?_, fun line hline => ?_⟩
    · rw [Report.render_eq_flatMap hne, hrender]
    · obtain ⟨lines, hmem, hline⟩ := List.mem_flatten.mp hline
      exact hlines lines hmem line hline
  · obtain ⟨front, part, back, rfl, hspan, -⟩ := exists_cut_of_mem_entries_report he
    obtain ⟨hindent, hwidth⟩ := Text.slice?_of_cut front part back
    have hstop : e.span.stop = front.byteLength + part.byteLength := by rw [hspan]; rfl
    rw [hstop, hspan, hindent, hwidth]
    exact ⟨rfl, rfl⟩

/-- In an expression with a character of two bytes, a quote that is not closed is underlined where
it stands among the characters, and a remark on the pipeline at the first of them. -/
theorem render_report_open_string :
    '\n' ∉ "é | -v 'b".toList ∧ ∃ blocks,
      List.Forall₂ (Entry.ShownAs "é | -v 'b".toList)
        [⟨"unterminated single quote".toList, ⟨8, 2⟩, .error⟩,
          ⟨"final stage negates output; results will not be highlighted".toList, ⟨0, 0⟩,
            .warning⟩] blocks ∧
        ("error: unterminated single quote\n  é | -v 'b\n         ^^\n" ++
          "warning: final stage negates output; results will not be highlighted\n" ++
          "  é | -v 'b\n  ^\n").toList = Text.ofLines blocks.flatten := by
  have hlines : '\n' ∉ "é | -v 'b".toList := by decide +kernel
  obtain ⟨blocks, hblocks, hrender, -⟩ := (render_report {} hlines).2.1 (by decide +kernel)
  have hentries : (Report.errors (({} : Rules).report "é | -v 'b".toList) ++
      Report.warnings (({} : Rules).report "é | -v 'b".toList)) =
      [⟨"unterminated single quote".toList, ⟨8, 2⟩, .error⟩,
        ⟨"final stage negates output; results will not be highlighted".toList, ⟨0, 0⟩,
          .warning⟩] := by decide +kernel
  rw [hentries] at hblocks
  exact ⟨hlines, blocks, hblocks, hrender ▸ by decide +kernel⟩

end Rules

end PipeLint
