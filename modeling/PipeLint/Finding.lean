import PipeLint.Text.Basic
import PipeLint.Span

/-!
# Findings

A finding is a fault of an expression: what is wrong, and where. What is wrong is an `Issue`; its
severity and its wording are functions of the issue.

## Main definitions

* `PipeLint.Severity`: errors make an expression invalid, warnings do not.
* `PipeLint.Issue`: the faults that are looked for, with `Issue.severity` and `Issue.message`.
* `PipeLint.Finding`: an issue at a span.
-/

namespace PipeLint

/-- How grave a fault is. -/
inductive Severity where
  /-- The expression is invalid. -/
  | error
  /-- The expression is valid, but probably not what was meant. -/
  | warning
deriving DecidableEq, Repr

/-- The word that names a severity. -/
def Severity.name : Severity → Text
  | .error => "error".toList
  | .warning => "warning".toList

/-- A fault of an expression. -/
inductive Issue where
  /-- A flag group does not start with a dash. -/
  | missingDash
  /-- A flag group has no letters. -/
  | emptyFlags
  /-- A flag group has a letter that is not supported. -/
  | unsupportedFlag (letter : Char)
  /-- A quoted string is too short to have two quotes. -/
  | malformedString
  /-- A quoted string is not closed. -/
  | openQuote (quote : Char)
  /-- A backslash inside quotes makes no escape. -/
  | invalidEscape
  /-- A control character stands outside quotes. -/
  | strayCharacter
  /-- A stage has nothing to search for. -/
  | missingPattern
  /-- A `LIKE` pattern has no `%`. -/
  | likeWithoutWildcard
  /-- A backslash stands at the end of the expression. -/
  | trailingEscape
  /-- The last stage inverts its match. -/
  | negatedFinalStage
  /-- More than one stage ignores case. -/
  | repeatedIgnoreCase
deriving DecidableEq, Repr

namespace Issue

/-- The severity of a fault. -/
def severity : Issue → Severity
  | missingDash | emptyFlags | malformedString | openQuote _ | strayCharacter | missingPattern =>
    .error
  | unsupportedFlag _ | invalidEscape | likeWithoutWildcard | trailingEscape | negatedFinalStage
  | repeatedIgnoreCase => .warning

/-- The wording of a fault. -/
def message : Issue → Text
  | missingDash => "argument must start with '-'".toList
  | emptyFlags => "flag name must not be empty".toList
  | unsupportedFlag letter => "unsupported flag: -".toList ++ [letter]
  | malformedString => "malformed string".toList
  | openQuote quote =>
    if quote = '\'' then "unterminated single quote".toList
    else "unterminated double quote".toList
  | invalidEscape => "invalid escape character".toList
  | strayCharacter => "unrecognized token".toList
  | missingPattern => "missing search pattern".toList
  | likeWithoutWildcard => "LIKE pattern has no '%' wildcard".toList
  | trailingEscape => "trailing escape character".toList
  | negatedFinalStage => "final stage negates output; results will not be highlighted".toList
  | repeatedIgnoreCase => "duplicate -i flag across stages".toList

end Issue

/-- A fault together with the bytes it is about. -/
@[ext]
structure Finding where
  /-- What is wrong. -/
  issue : Issue
  /-- Where it is wrong. -/
  span : Span
deriving DecidableEq, Repr

namespace Finding

/-- The finding moved to the right by a number of bytes. -/
def shift (f : Finding) (distance : Nat) : Finding :=
  { f with span := f.span.shift distance }

@[simp]
theorem issue_shift (f : Finding) (n : Nat) : (f.shift n).issue = f.issue := rfl

@[simp]
theorem span_shift (f : Finding) (n : Nat) : (f.shift n).span = f.span.shift n := rfl

@[simp]
theorem shift_zero (f : Finding) : f.shift 0 = f := rfl

@[simp]
theorem shift_shift (f : Finding) (m n : Nat) : (f.shift m).shift n = f.shift (m + n) := by
  ext <;> simp

end Finding

end PipeLint
