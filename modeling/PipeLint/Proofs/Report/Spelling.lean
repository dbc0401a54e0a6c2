import Mathlib.Data.Set.Function
import PipeLint.Proofs.Report.Json

/-!
# The spellings of a report

What is written for a report, an entry or a severity is read back, with white space around it or
without, so no two of them are written in the same way. A report can be spelled in other ways than
the written one: its JSON value has several forms, and each of these values several spellings. All
of them are read as this report; a value in which a member of the report or of one of its entries is
missing or stands twice is never read as a report, however it is spelled.

## Main results

* `PipeLint.readsBack_json`: reports, entries and severities are read back from their JSON.
* `PipeLint.Report.parse?_spelledAs`: every spelling of every form of a report is read as the
  report, and no spelling of a faulty one.
-/

namespace PipeLint

open Json (Spaces)

/-- What is written is read back, also with white space around it. -/
def ReadsBack {α : Type} (write : α → Text) (read? : Text → Option α) (a : α) : Prop :=
  ∀ front back : Text, Spaces front → Spaces back → read? (front ++ (write a ++ back)) = some a

/-- Nothing else is written like something that is read back. -/
theorem ReadsBack.injOn {α : Type} {write : α → Text} {read? : Text → Option α} {s : Set α}
    (h : ∀ a ∈ s, ReadsBack write read? a) : Set.InjOn write s := by
  have hread : ∀ a ∈ s, read? (write a) = some a := fun a ha => by
    simpa using h a ha [] [] Spaces.nil Spaces.nil
  intro a ha b hb heq
  exact Option.some.inj ((hread a ha).symm.trans (heq ▸ hread b hb))

/-! ### Written texts -/

theorem Severity.readsBack (s : Severity) : ReadsBack json parse? s := by
  intro front back hfront hback
  have hwell : s.toJson.WellFormed := by simp [toJson]
  have hspelled := Json.spelledAs_compact hwell hfront hback
  rw [parse?, json, Json.parse?_of_spelledAs hspelled]
  exact ofJson?_of_form .string

theorem Entry.readsBack {e : Entry} (h : e.span.FitsWords) : ReadsBack json parse? e := by
  intro front back hfront hback
  have hspelled := Json.spelledAs_compact e.wellFormed_toJson hfront hback
  rw [parse?, json, Json.parse?_of_spelledAs hspelled]
  exact ofJson?_of_form h e.form_toJson

theorem Report.readsBack {r : Report} (h : ∀ e ∈ r.entries, e.span.FitsWords) :
    ReadsBack json parse? r := by
  intro front back hfront hback
  have hspelled := Json.spelledAs_compact r.wellFormed_toJson hfront hback
  rw [parse?, json, Json.parse?_of_spelledAs hspelled]
  exact ofJson?_of_form h r.form_toJson

/-- **Reports, entries and severities are read back from their JSON**, also with white space around
it, so different ones are written differently. -/
theorem readsBack_json :
    (∀ r : Report, (∀ e ∈ r.entries, e.span.FitsWords) → ReadsBack Report.json Report.parse? r) ∧
      (∀ e : Entry, e.span.FitsWords → ReadsBack Entry.json Entry.parse? e) ∧
      (∀ s : Severity, ReadsBack Severity.json Severity.parse? s) ∧
      Set.InjOn Report.json {r | ∀ e ∈ r.entries, e.span.FitsWords} ∧
      Set.InjOn Entry.json {e | e.span.FitsWords} ∧
      Function.Injective Severity.json :=
  ⟨fun _ => Report.readsBack, fun _ => Entry.readsBack, Severity.readsBack,
    ReadsBack.injOn fun _ => Report.readsBack, ReadsBack.injOn fun _ => Entry.readsBack,
    Set.injOn_univ.mp (ReadsBack.injOn fun s _ => s.readsBack)⟩

/-- A wording with characters that are escaped, and the last place that fits a word. -/
theorem readsBack_json_escapes :
    Report.parse? ("\t\r\n".toList ++ (Report.json ⟨false, [⟨"\"\\\x01é".toList,
      ⟨18446744073709551615, 0⟩, .warning⟩], []⟩ ++ " ".toList)) =
        some ⟨false, [⟨"\"\\\x01é".toList, ⟨18446744073709551615, 0⟩, .warning⟩], []⟩ := by
  refine readsBack_json.1 _ ?_ _ _ (by decide) (by decide)
  simp [Report.entries, Span.FitsWords, Json.wordLimit]

/-! ### Other spellings -/

/-- **Every spelling of every form of a report is read as the report**, and no spelling of a value
that is faulty as a report. -/
theorem Report.parse?_spelledAs {t : Text} {v : Json} (ht : v.SpelledAs t) :
    (∀ r : Report, (∀ e ∈ r.entries, e.span.FitsWords) → r.Form v → parse? t = some r) ∧
      (Faulty v → parse? t = none) := by
  rw [parse?, Json.parse?_of_spelledAs ht]
  exact ⟨fun r hfits hform => ofJson?_of_form hfits hform, ofJson?_eq_none_of_faulty⟩

/-- A report whose members stand in another order among unknown ones, with its error as an array,
an escape and white space; and a text in which a member stands twice. -/
theorem Report.parse?_spelledAs_members :
    parse? ("\x7b\"errors\":[[ \"\\u00E9\",0,1,\x7b\"error\":null\x7d]],".toList ++
      "\"x\":[1e5],\"isValid\":false,\"x\":\"\\ud800\",\"warnings\":[]\x7d".toList) =
        some ⟨false, [⟨"é".toList, ⟨0, 1⟩, .error⟩], []⟩ ∧
    parse? "\x7b\"isValid\":true,\"errors\":[],\"errors\":[],\"warnings\":[]\x7d".toList =
      none := by
  constructor
  · let error : Json := .array [.string (some ['é']), .number ['0'], .number ['1'],
      .object [(some "error".toList, .null)]]
    let errors : Option Text × Json := (some "errors".toList, .array [error])
    let isValid : Option Text × Json := (some "isValid".toList, .bool false)
    let warnings : Option Text × Json := (some "warnings".toList, .array [])
    let x : Option Text × Json := (some "x".toList, .array [.number "1e5".toList])
    let y : Option Text × Json := (some "x".toList, .string none)
    let v : Json := .object [errors, x, isValid, y, warnings]
    have hform : Form ⟨false, [⟨"é".toList, ⟨0, 1⟩, .error⟩], []⟩ v := by
      have horder : [errors, x, isValid, y, warnings].Perm [isValid, errors, warnings, x, y] :=
        (@List.perm_middle _ isValid [errors, x] [y, warnings]).trans
          (.cons _ (.cons _ (@List.perm_middle _ warnings [x, y] [])))
      refine ⟨_, [], .cons ⟨_, .object, .array⟩ .nil, .nil, .object horder ?_⟩
      simp [x, y, fieldNames]
    have hwell : v.WellFormed := by
      simp [v, error, errors, isValid, warnings, x, y, Json.isNumber, Json.isUnsigned,
        Json.isFraction, Json.isExponent, Json.isDigits, Json.dropSign, Char.isDigit]
    -- the row up to the string with the escape, the string, and the rest of the row
    have hescape : Json.Token.Spelling (.string (some ['é']))
        ['"', '\\', 'u', '0', '0', 'E', '9', '"'] :=
      ⟨[_], .cons (.code (.code (.mk (i := 0) (j := 0) (k := 14) (l := 9) (by decide) (by decide)
        (by decide) (by decide)))) .nil, rfl⟩
    have hback : Json.RowSpelling (v.tokens.drop 6 ++ []) _ :=
      .text_append (fun token h => hwell token (List.mem_of_mem_drop h)) (.nil .nil)
    have hrow : Json.RowSpelling (v.tokens.take 5 ++ _) _ :=
      .text_append (fun token h => hwell token (List.mem_of_mem_take h))
        (.cons (w := [' ']) (by decide) hescape hback)
    have hspelled : v.SpelledAs _ := hrow
    exact (parse?_spelledAs hspelled).1 _ (by simp [entries, Span.FitsWords, Json.wordLimit]) hform
  · let v : Json := .object [(some "isValid".toList, .bool true), (some "errors".toList, .array []),
      (some "errors".toList, .array []), (some "warnings".toList, .array [])]
    have hwell : v.WellFormed := by simp [v]
    have hspelled : v.SpelledAs ([] ++ (v.compact ++ [])) :=
      Json.spelledAs_compact hwell .nil .nil
    exact (parse?_spelledAs hspelled).2
      (.report (@Json.Misfit.repeated _ [_] [] _ _ _ _ (by decide)))

end PipeLint
