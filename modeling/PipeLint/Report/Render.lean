import PipeLint.Report.Basic

/-!
# Reports for people

Each entry of a report is shown in three lines: its severity and wording, the expression, and a
row of carets under the part it is about. Carets are placed by characters, so spans are counted in
characters first; a span that is no slice of the expression counts as many characters as it has
bytes.

## Main definitions

* `PipeLint.Text.width`: the number of characters between two byte offsets.
* `PipeLint.Report.render`: the report for people.
-/

namespace PipeLint

/-- The number of characters between two byte offsets of a text, or of bytes if the offsets are not
both places in it. -/
def Text.width (t : Text) (start stop : Nat) : Nat :=
  match t.slice? start stop with
  | some slice => slice.length
  | none => stop - start

/-- The entry with the part of the expression it is about underlined. -/
def Entry.render (input : Text) (e : Entry) : Text :=
  let indent := input.width 0 e.span.start
  let carets := max (input.width e.span.start e.span.stop) 1
  e.severity.name ++ ": ".toList ++ e.message ++ ['\n'] ++
    "  ".toList ++ input ++ ['\n'] ++
    "  ".toList ++ List.replicate indent ' ' ++ List.replicate carets '^' ++ ['\n']

/-- The report on an expression for people to read. -/
def Report.render (input : Text) (r : Report) : Text :=
  match r.entries with
  | [] => "ok\n".toList
  | entries => entries.flatMap (·.render input)

end PipeLint
