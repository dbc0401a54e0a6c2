import PipeLint.Json.Parser
import PipeLint.Json.Printer
import PipeLint.Report.Basic

/-!
# Reports as JSON

A report is an object with the verdict and the two lists of entries, an entry an object with its
wording, position, length and severity. The writer puts the members in this order and no white
space. The reader takes the members in any order among others that it ignores, and also takes the
bare values of the members, in this order, as an array; a severity may also be an object with the
name of the severity as its only member and `null` as its value.

## Main definitions

* `PipeLint.Report.toJson`, `PipeLint.Report.ofJson?`: a report as a JSON value and back.
* `PipeLint.Report.json`, `PipeLint.Report.parse?`: a report as a JSON text and back.
-/

namespace PipeLint

/-! ### Severities -/

namespace Severity

/-- The severity as a JSON value. -/
def toJson (s : Severity) : Json :=
  .string (some s.name)

/-- The severity with a name. -/
def ofName? (t : Text) : Option Severity :=
  if t = error.name then some error else if t = warning.name then some warning else none

/-- The severity that a JSON value stands for. -/
def ofJson? : Json → Option Severity
  | .string (some name) => ofName? name
  | .object [(some name, .null)] => ofName? name
  | _ => none

/-- The text of a severity, as JSON. -/
def json (s : Severity) : Text :=
  s.toJson.compact

/-- The severity that a JSON text stands for. -/
def parse? (t : Text) : Option Severity :=
  (Json.parse? t).bind ofJson?

end Severity

/-! ### Entries -/

namespace Entry

/-- The names of the members of an entry. -/
def fieldNames : List Text :=
  ["message".toList, "position".toList, "length".toList, "severity".toList]

/-- The entry as a JSON value. -/
def toJson (e : Entry) : Json :=
  .object (List.zip (fieldNames.map some)
    [.string (some e.message), .number (Text.decimal e.span.start),
      .number (Text.decimal e.span.length), e.severity.toJson])

/-- The entry that a JSON value stands for. -/
def ofJson? (v : Json) : Option Entry :=
  match v.fields? fieldNames with
  | some [message, start, length, severity] => do
    return ⟨← message.toText?, ⟨← start.toNat?, ← length.toNat?⟩, ← Severity.ofJson? severity⟩
  | _ => none

/-- The text of an entry, as JSON. -/
def json (e : Entry) : Text :=
  e.toJson.compact

/-- The entry that a JSON text stands for. -/
def parse? (t : Text) : Option Entry :=
  (Json.parse? t).bind ofJson?

end Entry

/-! ### Reports -/

namespace Report

/-- The names of the members of a report. -/
def fieldNames : List Text :=
  ["isValid".toList, "errors".toList, "warnings".toList]

/-- The report as a JSON value. -/
def toJson (r : Report) : Json :=
  .object (List.zip (fieldNames.map some)
    [.bool r.isValid, .array (r.errors.map Entry.toJson), .array (r.warnings.map Entry.toJson)])

/-- The report that a JSON value stands for. -/
def ofJson? (v : Json) : Option Report :=
  match v.fields? fieldNames with
  | some [isValid, errors, warnings] => do
    return ⟨← isValid.toBool?, ← (← errors.toList?).mapM Entry.ofJson?,
      ← (← warnings.toList?).mapM Entry.ofJson?⟩
  | _ => none

/-- The text of a report, as JSON. -/
def json (r : Report) : Text :=
  r.toJson.compact

/-- The report that a JSON text stands for. -/
def parse? (t : Text) : Option Report :=
  (Json.parse? t).bind ofJson?

end Report

end PipeLint
