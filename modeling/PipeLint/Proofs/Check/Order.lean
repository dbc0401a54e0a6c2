import PipeLint.Proofs.Check.Error
import PipeLint.Proofs.Token.Gaps

/-!
# The order of the findings on a stage

Tokens are checked from left to right, and what is found in a token is found from left to right, so
the findings on tokens that follow one another are in the order of their places. The check on the
word `LIKE` looks ahead: what it finds may stand at the next token, but no further, and the next
token is checked right after it. Errors on the tokens of a text are about whole tokens, one error
for each, so their places even differ. The error about a stage that has nothing to search for covers
the stage as a whole and still comes last.

## Main definitions

* `PipeLint.Span.Within`: one span lies in another.
* `PipeLint.Token.IsFaulty`: the tokens that are errors.

## Main results

* `PipeLint.exists_within_of_mem_tokenFindings`: findings on tokens lie in tokens.
* `PipeLint.pairwise_tokenFindings`: findings on tokens are in the order of their places.
* `PipeLint.Text.map_span_filter_error_tokenFindings`: errors on tokens stand at the faulty ones.
* `PipeLint.Text.pairwise_filter_warning_stageFindings`: the order of the warnings on a stage.
-/

namespace PipeLint

/-- A span lies in another one when all its bytes do. -/
structure Span.Within (s u : Span) : Prop where
  /-- It does not start before the other. -/
  start_le : u.start ≤ s.start
  /-- It does not stop behind the other. -/
  stop_le : s.stop ≤ u.stop

namespace Span

instance (s u : Span) : Decidable (s.Within u) :=
  decidable_of_iff (u.start ≤ s.start ∧ s.stop ≤ u.stop)
    ⟨fun h => ⟨h.1, h.2⟩, fun h => ⟨h.start_le, h.stop_le⟩⟩

theorem start_le_stop (s : Span) : s.start ≤ s.stop :=
  Nat.le_add_right _ _

@[simp]
theorem stop_shift (s : Span) (n : Nat) : (s.shift n).stop = s.stop + n := by
  simp only [stop, start_shift, length_shift]
  omega

theorem Within.refl (s : Span) : s.Within s :=
  ⟨Nat.le_refl _, Nat.le_refl _⟩

theorem Within.trans {s u v : Span} (hs : s.Within u) (hu : u.Within v) : s.Within v :=
  ⟨hu.start_le.trans hs.start_le, hs.stop_le.trans hu.stop_le⟩

theorem Within.shift {s u : Span} (h : s.Within u) (n : Nat) : (s.shift n).Within (u.shift n) :=
  ⟨by simpa using h.start_le, by simpa using h.stop_le⟩

theorem not_within_of_stop_le {s u : Span} (hpos : s.start < s.stop) (h : u.stop ≤ s.start) :
    ¬ s.Within u := fun hwithin => by
  have := hwithin.stop_le
  omega

end Span

variable {flags : FlagSet} {f : Finding} {k : Token}

/-! ### Letters and escapes -/

namespace Token

theorem within_of_mem_letterFindings {offset : Nat} {letters : Text}
    (hf : f ∈ letterFindings flags offset letters) :
    f.span.Within ⟨offset, letters.byteLength⟩ := by
  obtain ⟨front, c, back, rfl, -, rfl⟩ := mem_letterFindings_iff.mp hf
  constructor <;> simp only [Span.stop, Text.byteLength_append, Text.byteLength_cons] <;> omega

theorem pairwise_letterFindings (offset : Nat) (letters : Text) :
    (letterFindings flags offset letters).Pairwise (·.span.stop ≤ ·.span.start) := by
  induction letters generalizing offset with
  | nil => exact .nil
  | cons c letters ih =>
    rw [letterFindings]
    split
    · exact ih _
    · exact List.pairwise_cons.mpr
        ⟨fun g hg => (within_of_mem_letterFindings hg).start_le, ih _⟩

end Token

namespace Text

theorem within_of_mem_invalidEscapes {offset : Nat} {t : Text}
    (hf : f ∈ invalidEscapes offset t) : f.span.Within ⟨offset, t.byteLength⟩ := by
  obtain ⟨front, c, back, rfl, -, rfl⟩ := exists_of_mem_invalidEscapes hf
  have hback : '\\'.utf8Size = 1 := rfl
  constructor <;> simp only [Span.stop, byteLength_append, byteLength_cons, hback] <;> omega

theorem pairwise_invalidEscapes (offset : Nat) (t : Text) :
    (invalidEscapes offset t).Pairwise (·.span.stop ≤ ·.span.start) := by
  fun_induction invalidEscapes offset t with
  | case1 => exact .nil
  | case2 offset c t later hesc ih => exact ih
  | case3 offset c t later hesc ih =>
    exact List.pairwise_cons.mpr ⟨fun g hg => (within_of_mem_invalidEscapes hg).start_le, ih⟩
  | case4 offset c t _ ih => exact ih

end Text

/-! ### Tokens -/

namespace Token

theorem within_of_mem_flagFindings (hf : f ∈ k.flagFindings flags) : f.span.Within k.span := by
  rcases cases_of_mem_flagFindings hf with ⟨hspan, -⟩ | ⟨front, c, back, htext, -, rfl⟩
  · rw [hspan]
    exact .refl _
  · have hdash : '-'.utf8Size = 1 := rfl
    constructor <;> simp only [Span.stop, span, htext, Text.byteLength_append,
      Text.byteLength_cons, hdash] <;> omega

theorem within_of_mem_quotedFindings (hf : f ∈ k.quotedFindings) : f.span.Within k.span := by
  rcases cases_of_mem_quotedFindings hf with ⟨hspan, -⟩ | ⟨quote, front, c, back, htext, -, rfl⟩
  · rw [hspan]
    exact .refl _
  · -- the two quotes have a byte at least
    have hpos := quote.utf8Size_pos
    have hback : '\\'.utf8Size = 1 := rfl
    constructor <;> simp only [Span.stop, span, htext, Text.byteLength_append,
      Text.byteLength_cons, hback] <;> omega

/-- A finding on a token lies in the token, or it is the warning about the pattern behind the word
`LIKE`. -/
theorem cases_of_mem_findings {next? : Option Token} (hf : f ∈ k.findings flags next?) :
    f.span.Within k.span ∨ ∃ n, next? = some n ∧ f = ⟨.likeWithoutWildcard, n.span⟩ := by
  rw [findings] at hf
  split at hf
  · simp at hf
  · exact Or.inl (within_of_mem_flagFindings hf)
  · exact Or.inl (within_of_mem_quotedFindings hf)
  · rcases cases_of_mem_wordFindings hf with rfl | hnext
    · exact Or.inl (.refl _)
    · exact Or.inr hnext
  · obtain rfl := List.mem_singleton.mp hf
    exact Or.inl (.refl _)

theorem pairwise_findings (k : Token) (next? : Option Token) :
    (k.findings flags next?).Pairwise (·.span.stop ≤ ·.span.start) := by
  cases hkind : k.kind with
  | command => simp [findings, hkind]
  | flags =>
    simp only [findings, hkind, flagFindings]
    split
    · exact List.pairwise_singleton _ _
    · exact pairwise_letterFindings _ _
    · exact List.pairwise_singleton _ _
  | quoted =>
    simp only [findings, hkind, quotedFindings]
    split
    · exact .nil
    split
    · exact List.pairwise_singleton _ _
    split
    · exact List.pairwise_singleton _ _
    · exact Text.pairwise_invalidEscapes _ _
  | word =>
    simp only [findings, hkind, wordFindings]
    split
    · split
      · exact List.pairwise_singleton _ _
      · split
        · exact .nil
        · exact List.pairwise_singleton _ _
    · exact .nil
  | stray => simp [findings, hkind]

end Token

/-! ### Lists of tokens -/

/-- A finding on tokens lies in one of them. -/
theorem exists_within_of_mem_tokenFindings {tokens : List Token}
    (hf : f ∈ tokenFindings flags tokens) : ∃ k ∈ tokens, f.span.Within k.span := by
  obtain ⟨front, k, back, rfl, hfound⟩ := mem_tokenFindings_iff.mp hf
  rcases Token.cases_of_mem_findings hfound with hwithin | ⟨n, hn, rfl⟩
  · exact ⟨k, by simp, hwithin⟩
  · obtain ⟨back, rfl⟩ := List.head?_eq_some_iff.mp hn
    exact ⟨n, by simp, .refl _⟩

/-- The findings on tokens that follow one another are in the order of their places. -/
theorem pairwise_tokenFindings {tokens : List Token}
    (h : tokens.Pairwise (·.span.stop ≤ ·.span.start)) :
    (tokenFindings flags tokens).Pairwise (·.span.start ≤ ·.span.start) := by
  induction tokens with
  | nil => exact .nil
  | cons k tokens ih =>
    obtain ⟨hk, htokens⟩ := List.pairwise_cons.mp h
    have hone : (k.findings flags tokens.head?).Pairwise (·.span.start ≤ ·.span.start) :=
      (k.pairwise_findings _).imp fun {f g} hle => f.span.start_le_stop.trans hle
    refine List.pairwise_append.mpr ⟨hone, ih htokens, fun f hf g hg => ?_⟩
    obtain ⟨m, hm, hwithin⟩ := exists_within_of_mem_tokenFindings hg
    refine Nat.le_trans ?_ hwithin.start_le
    rcases Token.cases_of_mem_findings hf with hfirst | ⟨n, hn, rfl⟩
    · exact f.span.start_le_stop.trans (hfirst.stop_le.trans (hk m hm))
    · -- what is found at the next token is found no later than at any other
      obtain ⟨others, rfl⟩ := List.head?_eq_some_iff.mp hn
      rcases List.mem_cons.mp hm with rfl | hm
      · exact Nat.le_refl _
      · exact n.span.start_le_stop.trans ((List.pairwise_cons.mp htokens).1 m hm)

/-! ### Errors and warnings on a stage -/

/-- A token that is an error: a stray character, or a string that is not closed. -/
def Token.IsFaulty (k : Token) : Prop :=
  k.kind = .stray ∨ k.IsOpen

instance (k : Token) : Decidable k.IsFaulty :=
  inferInstanceAs (Decidable (_ ∨ _))

namespace Text

variable {t : Text}

theorem pairwise_tokens (t : Text) : t.tokens.Pairwise (·.span.stop ≤ ·.span.start) := by
  obtain ⟨_, _, hgaps, -⟩ := exists_gaps?_tokensFrom (t := t) [] rfl
  exact List.pairwise_map.mp (pairwise_of_gaps? hgaps).2

theorem span_within_of_mem_tokens (hk : k ∈ t.tokens) : k.span.Within ⟨0, t.byteLength⟩ := by
  have hstop : k.span.stop ≤ t.byteLength := (hasPartAt_of_mem_tokens hk).add_byteLength_le
  exact ⟨Nat.zero_le _, hstop.trans_eq (Nat.zero_add _).symm⟩

theorem start_lt_stop_of_mem_tokens (hk : k ∈ t.tokens) : k.span.start < k.span.stop :=
  Nat.lt_add_of_pos_right
    (Nat.pos_of_ne_zero (mt byteLength_eq_zero_iff.mp (text_ne_nil_of_mem_tokens hk)))

theorem pairwise_start_tokens (t : Text) : t.tokens.Pairwise (·.span.start < ·.span.start) :=
  (pairwise_tokens t).imp_of_mem fun hk _ hle => (start_lt_stop_of_mem_tokens hk).trans_le hle

/-- A faulty token is one error at its place, and any other token is none. -/
theorem map_span_filter_error_findings (hk : k ∈ t.tokens) (flags : FlagSet)
    (next? : Option Token) :
    ((k.findings flags next?).filter (·.issue.severity = .error)).map Finding.span =
      if k.IsFaulty then [k.span] else [] := by
  rcases cases_findings_of_mem_tokens hk flags next? with
    ⟨hopen, i, hi, heq⟩ | ⟨hkind, -, heq⟩ | ⟨hkind, hopen, hall⟩
  · simp [heq, Issue.severity_of_isQuoteFault hi, Token.IsFaulty, hopen]
  · simp [heq, Issue.severity, Token.IsFaulty, hkind]
  · have hfaulty : ¬ k.IsFaulty := not_or.mpr ⟨hkind, hopen⟩
    rw [if_neg hfaulty, List.map_eq_nil_iff, List.filter_eq_nil_iff]
    intro f hf
    simp [hall f hf]

/-- The errors on the tokens of a text stand at the faulty tokens, one at each. -/
theorem map_span_filter_error_tokenFindings {tokens : List Token} (h : tokens ⊆ t.tokens)
    (flags : FlagSet) :
    ((tokenFindings flags tokens).filter (·.issue.severity = .error)).map Finding.span =
      (tokens.filter Token.IsFaulty).map Token.span := by
  induction tokens with
  | nil => rfl
  | cons k tokens ih =>
    obtain ⟨hk, htokens⟩ := List.cons_subset.mp h
    rw [tokenFindings, List.filter_append, List.map_append,
      map_span_filter_error_findings hk, ih htokens, List.filter_cons]
    split <;> simp [*]

/-- The warnings on a stage are in the order of their places. -/
theorem pairwise_filter_warning_stageFindings (flags : FlagSet) (t : Text) :
    ((stageFindings flags t t.tokens).filter (·.issue.severity = .warning)).Pairwise
      (·.span.start ≤ ·.span.start) := by
  have htokens : ((tokenFindings flags t.tokens).filter (·.issue.severity = .warning)).Pairwise
      (·.span.start ≤ ·.span.start) := (pairwise_tokenFindings (pairwise_tokens t)).filter _
  rw [stageFindings]
  split
  · exact .nil
  split
  · exact htokens
  · -- that a stage has nothing to search for is no warning
    simpa [Issue.severity] using htokens

end Text

end PipeLint
