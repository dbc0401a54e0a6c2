import PipeLint.Proofs.Finding.Place
import PipeLint.Proofs.Json.Fields
import PipeLint.Proofs.Json.Spelling
import PipeLint.Report.Json

/-!
# Reports are read back from their JSON

A report can be written as several JSON values, since the members of an object may stand in any
order and others among them. All of these values are read as the report if its places fit 64-bit
words; a value with an entry that is no record of the right members is not read at all. The JSON
text of a report is one line. The places in the report on an expression lie in the expression, so
they fit if the number of its bytes does.

## Main definitions

* `PipeLint.Span.FitsWords`: spans whose numbers fit 64-bit words.
* `PipeLint.Severity.Form`, `PipeLint.Entry.Form`, `PipeLint.Report.Form`: the JSON values that a
  severity, an entry and a report can be written as.
* `PipeLint.Report.Faulty`: values that are no report because of missing or repeated members.

## Main results

* `PipeLint.Report.ofJson?_of_form`: a report is read from whatever it is written as.
* `PipeLint.Report.ofJson?_eq_none_of_faulty`: nothing is read from a faulty report.
* `PipeLint.Report.parse?_json`: a report is read back from its JSON text.
* `PipeLint.Report.lineFeed_notMem_json`: the JSON text of a report is one line.
* `PipeLint.Rules.fitsWords_of_mem_entries_report`: the places in the report on an expression.
-/

namespace PipeLint

/-! ### Severities and entries -/

/-- The numbers of a span fit 64-bit words. -/
def Span.FitsWords (s : Span) : Prop :=
  s.start < Json.wordLimit ∧ s.length < Json.wordLimit

/-- The values that a severity can be written as: its name, or an object with the name as its only
member. -/
inductive Severity.Form (s : Severity) : Json → Prop
  | string : Severity.Form s (.string (some s.name))
  | object : Severity.Form s (.object [(some s.name, .null)])

theorem Severity.ofJson?_of_form {s : Severity} {v : Json} (h : s.Form v) : ofJson? v = some s := by
  have hname : ofName? s.name = some s := by cases s <;> decide
  cases h with
  | string => exact hname
  | object => exact hname

namespace Entry

/-- The values that an entry can be written as. -/
def Form (e : Entry) (v : Json) : Prop :=
  ∃ severity, e.severity.Form severity ∧
    Json.RecordForm fieldNames [.string (some e.message), .number (Text.decimal e.span.start),
      .number (Text.decimal e.span.length), severity] v

theorem form_toJson (e : Entry) : e.Form e.toJson :=
  ⟨e.severity.toJson, .string, .zip⟩

/-- An entry is read from whatever it is written as. -/
theorem ofJson?_of_form {e : Entry} (h : e.span.FitsWords) {v : Json} (hv : e.Form v) :
    Entry.ofJson? v = some e := by
  obtain ⟨severity, hseverity, hv⟩ := hv
  rw [ofJson?, Json.fields?_of_recordForm rfl (by decide) hv]
  simp [Json.toText?, Json.toNat?_decimal h.1, Json.toNat?_decimal h.2,
    Severity.ofJson?_of_form hseverity]

theorem ofJson?_eq_none_of_misfit {v : Json} (h : Json.Misfit fieldNames v) :
    Entry.ofJson? v = none := by
  rw [ofJson?, Json.fields?_eq_none_of_misfit h]

theorem wellFormed_toJson (e : Entry) : e.toJson.WellFormed := by
  simp [toJson, fieldNames, Json.isNumber_decimal, Severity.toJson]

end Entry

/-! ### Reports -/

namespace Report

/-- The values that a report can be written as. -/
def Form (r : Report) (v : Json) : Prop :=
  ∃ errors warnings, List.Forall₂ Entry.Form r.errors errors ∧
    List.Forall₂ Entry.Form r.warnings warnings ∧
      Json.RecordForm fieldNames [.bool r.isValid, .array errors, .array warnings] v

/-- The values that are no report because they, or one of their entries, are no record of the right
fields. -/
inductive Faulty : Json → Prop
  | report {v : Json} (h : Json.Misfit fieldNames v) : Faulty v
  | member {members : List (Option Text × Json)} {name : Text} {entries : List Json} {entry : Json}
      (hname : name = "errors".toList ∨ name = "warnings".toList)
      (hmember : (some name, .array entries) ∈ members) (hentry : entry ∈ entries)
      (h : Json.Misfit Entry.fieldNames entry) : Faulty (.object members)
  | item {isValid errors warnings : Json} {entries : List Json} {entry : Json}
      (hitem : errors = .array entries ∨ warnings = .array entries) (hentry : entry ∈ entries)
      (h : Json.Misfit Entry.fieldNames entry) : Faulty (.array [isValid, errors, warnings])

theorem form_toJson (r : Report) : r.Form r.toJson := by
  have hentries (l : List Entry) : List.Forall₂ Entry.Form l (l.map Entry.toJson) :=
    List.forall₂_map_right_iff.mpr (List.forall₂_same.mpr fun e _ => e.form_toJson)
  exact ⟨_, _, hentries r.errors, hentries r.warnings, .zip⟩

/-- A report is read from whatever it is written as. -/
theorem ofJson?_of_form {r : Report} (h : ∀ e ∈ r.entries, e.span.FitsWords) {v : Json}
    (hv : r.Form v) : Report.ofJson? v = some r := by
  have hentries {l : List Entry} {values : List Json} (hl : ∀ e ∈ l, e.span.FitsWords)
      (hvalues : List.Forall₂ Entry.Form l values) : values.mapM Entry.ofJson? = some l := by
    refine mapM_eq_some_iff.mpr ?_
    induction hvalues with
    | nil => exact .nil
    | cons hv _ ih =>
      obtain ⟨he, hl⟩ := List.forall_mem_cons.mp hl
      exact .cons (Entry.ofJson?_of_form he hv) (ih hl)
  obtain ⟨errors, warnings, herrors, hwarnings, hv⟩ := hv
  obtain ⟨hfit, hfit'⟩ := List.forall_mem_append.mp h
  rw [ofJson?, Json.fields?_of_recordForm rfl (by decide) hv]
  simp [Json.toBool?, Json.toList?, hentries hfit herrors, hentries hfit' hwarnings]

/-- No report is read if an entry in one of its lists is no record of its fields. -/
theorem ofJson?_eq_none_of_entry {v isValid errors warnings : Json} {entries : List Json}
    {entry : Json} (hv : v.fields? fieldNames = some [isValid, errors, warnings])
    (hlist : errors = .array entries ∨ warnings = .array entries) (hentry : entry ∈ entries)
    (h : Json.Misfit Entry.fieldNames entry) : Report.ofJson? v = none := by
  have hnone : entries.mapM Entry.ofJson? = none :=
    mapM_eq_none_of_mem hentry (Entry.ofJson?_eq_none_of_misfit h)
  rw [ofJson?, hv]
  rcases hlist with rfl | rfl
  · cases isValid.toBool? <;> simp [Json.toList?, hnone]
  · cases isValid.toBool? <;> cases errors.toList? <;> simp [Json.toList?, hnone]

/-- Nothing is read from a faulty report. -/
theorem ofJson?_eq_none_of_faulty {v : Json} (h : Faulty v) : Report.ofJson? v = none := by
  cases h with
  | report h => rw [ofJson?, Json.fields?_eq_none_of_misfit h]
  | @member members name entries entry hname hmember hentry h =>
    cases hfields : (Json.object members).fields? fieldNames with
    | none => rw [ofJson?, hfields]
    | some values =>
      obtain - | ⟨-, - | ⟨herrors, - | ⟨hwarnings, ⟨⟩⟩⟩⟩ := Json.forall₂_of_fields?_eq_some hfields
      -- the lists are read from the only members with their names
      refine ofJson?_eq_none_of_entry hfields ?_ hentry h
      rcases hname with rfl | rfl
      · exact Or.inl (Json.eq_of_member?_eq_some herrors hmember).symm
      · exact Or.inr (Json.eq_of_member?_eq_some hwarnings hmember).symm
  | item hitem hentry h => exact ofJson?_eq_none_of_entry rfl hitem hentry h

theorem wellFormed_toJson (r : Report) : r.toJson.WellFormed := by
  simp [toJson, fieldNames, Entry.wellFormed_toJson]

theorem parse?_compact_toJson (r : Report) : Json.parse? r.json = some r.toJson :=
  Json.parse?_compact r.wellFormed_toJson

/-- **Reports are read back from their JSON.** -/
theorem parse?_json {r : Report} (h : ∀ e ∈ r.entries, e.span.FitsWords) :
    Report.parse? r.json = some r := by
  rw [parse?, r.parse?_compact_toJson]
  exact ofJson?_of_form h r.form_toJson

/-- The JSON text of a report is one line. -/
theorem lineFeed_notMem_json (r : Report) : '\n' ∉ r.json :=
  Json.lineFeed_notMem_compact r.wellFormed_toJson

end Report

/-! ### Reports on expressions -/

/-- The places in the report on an expression fit 64-bit words if the number of its bytes does. -/
theorem Rules.fitsWords_of_mem_entries_report (r : Rules) {t : Text}
    (h : t.byteLength < Json.wordLimit) {e : Entry} (he : e ∈ (r.report t).entries) :
    e.span.FitsWords := by
  obtain ⟨f, hf, rfl⟩ := r.exists_of_mem_entries_report he
  obtain ⟨part, hpart, hlength, -⟩ := points_of_mem_findings hf
  have hstop : f.span.start + f.span.length ≤ t.byteLength := hlength ▸ hpart.add_byteLength_le
  exact ⟨Nat.lt_of_le_of_lt ((Nat.le_add_right _ _).trans hstop) h,
    Nat.lt_of_le_of_lt ((Nat.le_add_left _ _).trans hstop) h⟩

end PipeLint
