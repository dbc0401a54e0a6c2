import Mathlib.Data.List.Basic
import PipeLint.Proofs.Check.Order
import PipeLint.Proofs.Text.Occurrence
import PipeLint.Proofs.Token.Append

/-!
# Which escapes are reported

The check on a closed string goes through its interior from left to right and takes the character
behind every backslash along. Which backslashes it reports can be told without reading from left to
right: those that are not escaped themselves, since the backslashes right before them pair up, and
that stand before a character that makes no escape. So the check never loses step with the pairs,
whatever an escape takes along.

## Main definitions

* `PipeLint.Text.Occurrence.startsInvalidEscape`: the backslashes that are reported, by what stands
  before and behind them.
* `PipeLint.Token.interior` and `PipeLint.Token.escapeFindings`: a quoted string without its quotes,
  and the reports that its interior deserves.

## Main results

* `PipeLint.Text.invalidEscapes_eq_map`: the check finds these backslashes and no others.
* `PipeLint.Text.filter_invalidEscape_stageFindings`: the reports on the escapes of a stage.
-/

namespace PipeLint

namespace Text

/-! ### Runs of backslashes -/

theorem endsEscaped_concat_iff {t : Text} {c : Char} :
    EndsEscaped (t ++ [c]) ↔ c = '\\' ∧ ¬ EndsEscaped t := by
  rw [EndsEscaped, Quoting.trailingBackslashes_concat]
  by_cases hc : c = '\\'
  · simp only [hc, if_true, true_and, EndsEscaped]
    omega
  · simp [hc]

/-! ### Backslashes that start no escape -/

namespace Occurrence

/-- Whether a character is a backslash that ought to start an escape and starts none: the
backslashes right before it pair up, and behind it stands a character that makes no escape, be it
alone or, as an `x`, with a hexadecimal digit behind it. -/
def startsInvalidEscape (o : Occurrence) : Bool :=
  o.char = '\\' && o.front.trailingBackslashes % 2 = 0 &&
    match o.back with
    | [] => false
    | c :: rest =>
      c ∉ ['"', '\'', '\\', 'n', 't', 'r'] && !(c = 'x' && rest.head?.any isHexDigit)

/-- The bytes of a backslash and of the character behind it. -/
def escapeSpan (o : Occurrence) : Span :=
  ⟨o.front.byteLength, 1 + (o.back.head?.map Char.utf8Size).getD 0⟩

variable {front t : Text} {c : Char}

theorem startsInvalidEscape_of_ne (hc : c ≠ '\\') :
    startsInvalidEscape ⟨front, c, t⟩ = false := by
  simp [startsInvalidEscape, hc]

theorem startsInvalidEscape_of_endsEscaped (hfront : EndsEscaped front) :
    startsInvalidEscape ⟨front, c, t⟩ = false := by
  have hodd : front.trailingBackslashes % 2 = 1 := hfront
  simp [startsInvalidEscape, hodd]

theorem startsInvalidEscape_backslash (hfront : ¬ EndsEscaped front) :
    startsInvalidEscape ⟨front, '\\', c :: t⟩ = !isEscape c t := by
  have heven : front.trailingBackslashes % 2 = 0 := by
    rw [EndsEscaped] at hfront
    omega
  simp [startsInvalidEscape, heven, isEscape, isEscapeLetter]

end Occurrence

section Escape

variable {front : Text} (hfront : ¬ EndsEscaped front)

include hfront

theorem not_endsEscaped_append_escape (c : Char) : ¬ EndsEscaped (front ++ ['\\'] ++ [c]) :=
  fun h => (endsEscaped_concat_iff.mp h).2 (endsEscaped_concat_iff.mpr ⟨rfl, hfront⟩)

/-- A backslash that is not escaped takes the next character along, which starts nothing. -/
theorem filter_occurrencesFrom_backslash (c : Char) (t : Text) :
    (occurrencesFrom front ('\\' :: c :: t)).filter (·.startsInvalidEscape) =
      (if isEscape c t then [] else [⟨front, '\\', c :: t⟩]) ++
        (occurrencesFrom (front ++ ['\\'] ++ [c]) t).filter (·.startsInvalidEscape) := by
  have hescaped : EndsEscaped (front ++ ['\\']) := endsEscaped_concat_iff.mpr ⟨rfl, hfront⟩
  rw [occurrencesFrom, occurrencesFrom, List.filter_cons, List.filter_cons,
    Occurrence.startsInvalidEscape_backslash hfront,
    Occurrence.startsInvalidEscape_of_endsEscaped hescaped]
  cases isEscape c t <;> rfl

end Escape

/-- The check on the interior of a string finds the backslashes that start an invalid escape, from
left to right, each together with the character behind it. -/
theorem invalidEscapes_eq_map (front t : Text) (hfront : ¬ EndsEscaped front) (place offset : Nat)
    (hplace : place = offset + front.byteLength) :
    invalidEscapes place t =
      ((occurrencesFrom front t).filter (·.startsInvalidEscape)).map
        fun o => ⟨.invalidEscape, o.escapeSpan.shift offset⟩ := by
  have hlength (front : Text) (c : Char) : (front ++ ['\\'] ++ [c]).byteLength =
      front.byteLength + (1 + c.utf8Size) := by
    simp [show '\\'.utf8Size = 1 from rfl]
  fun_induction invalidEscapes place t generalizing front with
  | case1 => rfl
  | case2 place c t later hescape ih =>
    rw [filter_occurrencesFrom_backslash hfront, if_pos hescape, List.nil_append]
    exact ih _ (not_endsEscaped_append_escape hfront c) (by rw [hlength]; omega)
  | case3 place c t later hescape ih =>
    have hlater := ih _ (not_endsEscaped_append_escape hfront c) (by rw [hlength]; omega)
    rw [filter_occurrencesFrom_backslash hfront, if_neg hescape, List.map_append, ← hlater]
    simp [later, Occurrence.escapeSpan, Span.shift, hplace, Nat.add_comm]
  | case4 place c t hnot ih =>
    by_cases hback : c = '\\'
    · obtain rfl := eq_nil_of_backslash hnot hback
      simp [occurrencesFrom, invalidEscapes, Occurrence.startsInvalidEscape]
    · have hpassed : ¬ EndsEscaped (front ++ [c]) :=
        fun h => hback (endsEscaped_concat_iff.mp h).1
      rw [occurrencesFrom, List.filter_cons, Occurrence.startsInvalidEscape_of_ne hback]
      exact ih _ hpassed (by simp [hplace, Nat.add_assoc])

end Text

/-! ### Quoted strings -/

namespace Token

/-- The text of a quoted string without the two quotes. -/
def interior (k : Token) : Text :=
  k.text.tail.dropLast

/-- The reports that the interior of a closed string deserves, one for each backslash that starts an
invalid escape, from left to right. The interior starts behind a quote of one byte. -/
def escapeFindings (k : Token) : List Finding :=
  (k.interior.occurrences.filter (·.startsInvalidEscape)).map
    fun o => ⟨.invalidEscape, o.escapeSpan.shift (k.offset + 1)⟩

theorem escapeFindings_eq_invalidEscapes (k : Token) :
    k.escapeFindings = k.interior.invalidEscapes (k.offset + 1) :=
  (Text.invalidEscapes_eq_map [] k.interior (by decide) _ _ rfl).symm

end Token

namespace Text

variable {t : Text} {k : Token}

/-- A closed string is its interior between two quotes, and all that is found in it are invalid
escapes. -/
theorem findings_of_closed (hk : k ∈ t.tokens) (hkind : k.kind = .quoted) (hclosed : ¬ k.IsOpen) :
    (∃ quote, isQuote quote = true ∧ k.text = quote :: (k.interior ++ [quote])) ∧
      ∀ flags next?, k.findings flags next? = k.escapeFindings := by
  obtain ⟨_, quote, hquote, -, ⟨inner, -, -, htext, -, hinner⟩ | ⟨_, -, -, hends, -⟩⟩ :=
    cases_of_kind_eq_quoted hk hkind
  · have hinterior : k.interior = inner := by
      rw [Token.interior, htext, List.tail_cons, List.dropLast_concat]
    refine ⟨⟨quote, hquote, by rw [hinterior, htext]⟩, fun flags next? => ?_⟩
    rw [Token.findings, hkind, Token.escapeFindings_eq_invalidEscapes, hinterior]
    exact Token.quotedFindings_of_closed htext hinner
  · exact absurd ⟨hkind, hends⟩ hclosed

/-- The findings of some kinds on a stage are those on its tokens, one token after the other, since
a blank stage has no tokens. -/
theorem filter_stageFindings_tokens {p : Issue → Bool} (hlike : p .likeWithoutWildcard = false)
    (hpattern : p .missingPattern = false) {flags : FlagSet} {g : Token → List Finding}
    (h : ∀ k ∈ t.tokens, (k.findings flags none).filter (p ·.issue) = g k) :
    (stageFindings flags t t.tokens).filter (p ·.issue) = t.tokens.flatMap g := by
  rw [filter_stageFindings hlike hpattern]
  split
  · rename_i hblank
    rw [hblank.tokens_eq_nil, List.flatMap_nil]
  · exact List.flatMap_congr h

theorem filter_invalidEscape_findings (hk : k ∈ t.tokens) (flags : FlagSet) :
    (k.findings flags none).filter (·.issue = .invalidEscape) =
      if k.kind = .quoted ∧ ¬ k.IsOpen then k.escapeFindings else [] := by
  split
  · rename_i hclosed
    rw [(findings_of_closed hk hclosed.1 hclosed.2).2]
    refine List.filter_eq_self.mpr fun f hf => ?_
    obtain ⟨o, -, rfl⟩ := List.mem_map.mp hf
    rfl
  · rename_i hnot
    refine List.filter_eq_nil_iff.mpr fun f hf hissue => hnot ?_
    have hescape : f.issue = .invalidEscape := of_decide_eq_true hissue
    have hkind : some .quoted = some k.kind := by
      rw [← Token.tokenKind?_of_mem_findings hf, hescape]
      rfl
    refine ⟨(Option.some.inj hkind).symm, fun hopen => ?_⟩
    obtain ⟨i, hi, hfindings⟩ := exists_findings_eq_of_isOpen hk hopen flags none
    rw [hfindings, List.mem_singleton] at hf
    obtain rfl : i = .invalidEscape := by rw [← hescape, hf]
    contradiction

/-- **Invalid escapes are reported where they are.** The reports of invalid escapes on a stage are
those of its closed strings, one string after the other. A closed string is its interior between two
quotes. It has one report for each backslash of the interior that an even number of backslashes
stands right before and no escape behind; the report covers the backslash and the character behind
it. So the reports on a string stay inside the quotes and do not overlap. -/
theorem filter_invalidEscape_stageFindings (flags : FlagSet) (t : Text) :
    (stageFindings flags t t.tokens).filter (·.issue = .invalidEscape) =
        t.tokens.flatMap (fun k => if k.kind = .quoted ∧ ¬ k.IsOpen then k.escapeFindings else []) ∧
      ∀ k ∈ t.tokens, k.kind = .quoted → ¬ k.IsOpen →
        (∃ quote, isQuote quote = true ∧ k.text = quote :: (k.interior ++ [quote])) ∧
        (∀ next?, k.findings flags next? = k.escapeFindings) ∧
        k.escapeFindings.Pairwise (·.span.stop ≤ ·.span.start) ∧
        ∀ f ∈ k.escapeFindings, f.span.Within ⟨k.offset + 1, k.interior.byteLength⟩ := by
  constructor
  · exact filter_stageFindings_tokens (p := (· = .invalidEscape)) rfl rfl
      fun k hk => filter_invalidEscape_findings hk flags
  · intro k hk hkind hclosed
    obtain ⟨htext, hfindings⟩ := findings_of_closed hk hkind hclosed
    rw [Token.escapeFindings_eq_invalidEscapes] at hfindings ⊢
    exact ⟨htext, hfindings flags, pairwise_invalidEscapes _ _,
      fun f hf => within_of_mem_invalidEscapes hf⟩

/-- Three backslashes before a letter of two bytes, an escape by number, and one that lacks its
number. -/
theorem filter_invalidEscape_stageFindings_pairs :
    (⟨.quoted, "\"é\\\\\\ü\\x4\\xg\"".toList, 0⟩ ∈ tokens "\"é\\\\\\ü\\x4\\xg\"".toList ∧
        ¬ Token.IsOpen ⟨.quoted, "\"é\\\\\\ü\\x4\\xg\"".toList, 0⟩) ∧
      Token.findings .standard ⟨.quoted, "\"é\\\\\\ü\\x4\\xg\"".toList, 0⟩ none =
        [⟨.invalidEscape, ⟨5, 3⟩⟩, ⟨.invalidEscape, ⟨11, 2⟩⟩] := by
  have hmem : ⟨.quoted, "\"é\\\\\\ü\\x4\\xg\"".toList, 0⟩ ∈
      tokens "\"é\\\\\\ü\\x4\\xg\"".toList := by decide +kernel
  have hclosed : ¬ Token.IsOpen ⟨.quoted, "\"é\\\\\\ü\\x4\\xg\"".toList, 0⟩ := by
    decide +kernel
  obtain ⟨-, hstrings⟩ :=
    filter_invalidEscape_stageFindings .standard "\"é\\\\\\ü\\x4\\xg\"".toList
  obtain ⟨-, hfindings, -, -⟩ := hstrings _ hmem rfl hclosed
  exact ⟨⟨hmem, hclosed⟩, (hfindings none).trans (by decide +kernel)⟩

end Text

end PipeLint
