import PipeLint.Proofs.Check.Order
import PipeLint.Proofs.Finding.Place
import PipeLint.Proofs.List.Twice
import PipeLint.Proofs.Token.Append

/-!
# Findings that are made twice

A token is checked once, and what is found in it is found once. But the check on the word `LIKE`
looks at the next token as well, and that token may be `LIKE` again. If no pattern is behind the
second of the two words, then both checks find the second word at fault: the first check because it
is a pattern without a `%`, the second one because there is no pattern. This is the only way in
which a stage has a finding twice.

## Main definitions

* `PipeLint.IsSecondLike`: the second of two words `LIKE`, without a pattern behind it.

## Main results

* `PipeLint.atMostTwice_tokenFindings`: findings on tokens that are made twice.
* `PipeLint.Text.atMostTwice_stageFindings`: findings on a stage that are made twice.
-/

namespace PipeLint

variable {flags : FlagSet} {f : Finding} {k n : Token} {tokens : List Token}

/-! ### The word LIKE -/

/-- A token is the word `LIKE`. -/
def Token.IsLikeWord (k : Token) : Prop :=
  k.kind = .word ∧ k.isLike = true

/-- A token of a list is the word `LIKE`, it directly follows another one, and no pattern directly
follows it. -/
def IsSecondLike (tokens : List Token) (n : Token) : Prop :=
  ∃ front k back, tokens = front ++ k :: n :: back ∧ k.IsLikeWord ∧ n.IsLikeWord ∧
    back.head?.filter Token.isPattern = none

/-- The second of two words `LIKE` is behind the first token, or it is so among the later tokens. -/
theorem isSecondLike_cons_iff : IsSecondLike (k :: tokens) n ↔
    (k.IsLikeWord ∧ n.IsLikeWord ∧
      ∃ back, tokens = n :: back ∧ back.head?.filter Token.isPattern = none) ∨
      IsSecondLike tokens n := by
  constructor
  · rintro ⟨front, k', back, heq, hk, hn, hback⟩
    cases front with
    | nil =>
      obtain ⟨rfl, rfl⟩ := List.cons.inj heq
      exact Or.inl ⟨hk, hn, back, rfl, hback⟩
    | cons _ front =>
      obtain ⟨-, rfl⟩ := List.cons.inj heq
      exact Or.inr ⟨front, k', back, rfl, hk, hn, hback⟩
  · rintro (⟨hk, hn, back, rfl, hback⟩ | ⟨front, k', back, rfl, h⟩)
    · exact ⟨[], k, back, rfl, hk, hn, hback⟩
    · exact ⟨k :: front, k', back, rfl, h⟩

theorem IsSecondLike.mem (h : IsSecondLike tokens n) : n ∈ tokens := by
  obtain ⟨front, k, back, rfl, -⟩ := h
  simp

theorem IsSecondLike.mem_tail (h : IsSecondLike (k :: tokens) n) : n ∈ tokens := by
  rcases isSecondLike_cons_iff.mp h with ⟨-, -, back, rfl, -⟩ | h
  · exact List.mem_cons_self
  · exact h.mem

namespace Token

theorem IsLikeWord.isPattern (h : k.IsLikeWord) : k.isPattern = true := by
  simp [Token.isPattern, h.1]

/-- The check on the word `LIKE` warns about the pattern behind it, or about the word itself if
there is none. -/
theorem mem_findings_like_iff {next? : Option Token} {span : Span} :
    ⟨.likeWithoutWildcard, span⟩ ∈ k.findings flags next? ↔ k.IsLikeWord ∧
      (next?.filter isPattern = none ∧ span = k.span ∨
        ∃ n, next?.filter isPattern = some n ∧ '%' ∉ n.text ∧ span = n.span) := by
  by_cases hkind : k.kind = .word
  · simp only [findings, hkind, wordFindings, IsLikeWord, true_and]
    by_cases hlike : k.isLike = true
    · cases hnext : next?.filter isPattern with
      | none => simp [hlike]
      | some n => by_cases hwild : '%' ∈ n.text <;> simp [hlike, hwild]
    · simp [hlike]
  · refine iff_of_false (fun hf => hkind ?_) fun h => hkind h.1.1
    exact (Option.some.inj (tokenKind?_of_mem_findings hf)).symm

theorem IsLikeWord.mem_findings (hk : k.IsLikeWord) (hn : n.IsLikeWord) :
    ⟨.likeWithoutWildcard, n.span⟩ ∈ k.findings flags (some n) := by
  refine mem_findings_like_iff.mpr ⟨hk, Or.inr ⟨n, ?_, notMem_text_of_isLike hn.2, rfl⟩⟩
  simp [hn.isPattern]

end Token

/-! ### Tokens in a row -/

section Row

variable (hpos : f.span.start < f.span.stop)

include hpos

theorem Token.count_findings_le (k : Token) (next? : Option Token) :
    (k.findings flags next?).count f ≤ 1 :=
  count_le_one_of_pairwise (k.pairwise_findings next?) (Nat.not_le.mpr hpos)

theorem notMem_tokenFindings_of_within (hk : ∀ n ∈ tokens, k.span.stop ≤ n.span.start)
    (hwithin : f.span.Within k.span) : f ∉ tokenFindings flags tokens := by
  intro hf
  obtain ⟨n, hn, hwithin'⟩ := exists_within_of_mem_tokenFindings hf
  exact Span.not_within_of_stop_le hpos ((hk n hn).trans hwithin'.start_le) hwithin

/-- The warning about the token behind a word `LIKE` is made again when that token is checked, if
that is `LIKE` with no pattern behind it. -/
theorem atMostTwice_tokenFindings_of_ahead
    (htokens : (k :: n :: tokens).Pairwise (·.span.stop ≤ ·.span.start))
    (hf : f ∈ k.findings flags (some n)) (hahead : f = ⟨.likeWithoutWildcard, n.span⟩) :
    AtMostTwice (tokenFindings flags (k :: n :: tokens)) f
      (∃ m, IsSecondLike (k :: n :: tokens) m ∧ f = ⟨.likeWithoutWildcard, m.span⟩) := by
  obtain ⟨-, htail⟩ := List.pairwise_cons.mp htokens
  obtain ⟨hn, -⟩ := List.pairwise_cons.mp htail
  have hne : ∀ m ∈ tokens, f ≠ ⟨.likeWithoutWildcard, m.span⟩ := by
    intro m hm heq
    have hbehind : n.span.stop ≤ f.span.start := by
      rw [heq]
      exact hn m hm
    exact Span.not_within_of_stop_le hpos hbehind (by rw [hahead]; exact .refl _)
  have hk : k.IsLikeWord := (Token.mem_findings_like_iff.mp (hahead ▸ hf)).1
  have hagain : f ∈ n.findings flags tokens.head? ↔
      ∃ m, IsSecondLike (k :: n :: tokens) m ∧ f = ⟨.likeWithoutWildcard, m.span⟩ := by
    constructor
    · intro hf
      rw [hahead, Token.mem_findings_like_iff] at hf
      obtain ⟨hlike, ⟨hnone, -⟩ | ⟨m, hm, -, hspan⟩⟩ := hf
      · exact ⟨n, isSecondLike_cons_iff.mpr (Or.inl ⟨hk, hlike, tokens, rfl, hnone⟩), hahead⟩
      · have hmem : m ∈ tokens := List.mem_of_head? (Option.filter_eq_some_iff.mp hm).1
        exact absurd (hahead.trans (by rw [hspan])) (hne m hmem)
    · rintro ⟨m, hm, heq⟩
      rcases isSecondLike_cons_iff.mp hm with ⟨-, hlike, back, hback, hnone⟩ | hm
      · obtain ⟨rfl, rfl⟩ := List.cons.inj hback
        rw [hahead, Token.mem_findings_like_iff]
        exact ⟨hlike, Or.inl ⟨hnone, rfl⟩⟩
      · exact absurd heq (hne m hm.mem_tail)
  have hone : (k.findings flags (some n)).count f = 1 :=
    Nat.le_antisymm (k.count_findings_le hpos _) (List.count_pos_iff.mpr hf)
  have hle : (n.findings flags tokens.head?).count f ≤ 1 := n.count_findings_le hpos _
  have hzero : (tokenFindings flags tokens).count f = 0 :=
    List.count_eq_zero.mpr (notMem_tokenFindings_of_within hpos hn (by rw [hahead]; exact .refl _))
  rw [AtMostTwice, tokenFindings, tokenFindings, List.count_append, List.count_append,
    List.head?_cons, hone, hzero, ← hagain, ← List.count_pos_iff]
  omega

/-- The warning about the second of two words `LIKE` in a row is made twice if no pattern is behind
it, and any other finding on tokens that follow one another is made once at most. -/
theorem atMostTwice_tokenFindings (htokens : tokens.Pairwise (·.span.stop ≤ ·.span.start)) :
    AtMostTwice (tokenFindings flags tokens) f
      (∃ n, IsSecondLike tokens n ∧ f = ⟨.likeWithoutWildcard, n.span⟩) := by
  induction tokens with
  | nil => simp [tokenFindings, AtMostTwice, IsSecondLike]
  | cons k tokens ih =>
    obtain ⟨hk, htail⟩ := List.pairwise_cons.mp htokens
    by_cases hahead : f ∈ k.findings flags tokens.head? ∧ ¬ f.span.Within k.span
    · obtain ⟨hf, hwithin⟩ := hahead
      obtain ⟨n, hn, heq⟩ := (Token.cases_of_mem_findings hf).resolve_left hwithin
      obtain ⟨rest, rfl⟩ := List.head?_eq_some_iff.mp hn
      exact atMostTwice_tokenFindings_of_ahead hpos htokens hf heq
    · have hdisjoint : f ∈ k.findings flags tokens.head? → f ∉ tokenFindings flags tokens :=
        fun hf => notMem_tokenFindings_of_within hpos hk (not_not.mp fun h => hahead ⟨hf, h⟩)
      have hlater : (∃ n, IsSecondLike tokens n ∧ f = ⟨.likeWithoutWildcard, n.span⟩) ↔
          ∃ n, IsSecondLike (k :: tokens) n ∧ f = ⟨.likeWithoutWildcard, n.span⟩ := by
        refine exists_congr fun n => and_congr_left fun heq => ?_
        rw [isSecondLike_cons_iff, or_iff_right]
        rintro ⟨hlike, hn, back, rfl, -⟩
        -- the first token would look ahead
        have hbehind : k.span.stop ≤ f.span.start := by
          rw [heq]
          exact hk n List.mem_cons_self
        exact hahead ⟨heq ▸ hlike.mem_findings hn, Span.not_within_of_stop_le hpos hbehind⟩
      have happend := (AtMostTwice.of_count_le_one
        (k.count_findings_le hpos tokens.head?)).append (ih htail) hdisjoint
      rwa [false_or, hlater] at happend

/-- The warning about the second of two words `LIKE` in a row is made twice if no pattern is behind
it, and any other finding on a stage is made once at most. -/
theorem Text.atMostTwice_stageFindings (flags : FlagSet) (t : Text) :
    AtMostTwice (stageFindings flags t t.tokens) f
      (∃ n, IsSecondLike t.tokens n ∧ f = ⟨.likeWithoutWildcard, n.span⟩) := by
  have htokens : AtMostTwice (tokenFindings flags t.tokens) f _ :=
    atMostTwice_tokenFindings hpos (pairwise_tokens t)
  rw [stageFindings]
  split
  · rename_i hblank
    rwa [hblank.tokens_eq_nil] at htokens ⊢
  split
  · exact htokens
  · -- that a stage has nothing to search for is not found in a token
    have hdisjoint : f ∈ tokenFindings flags t.tokens →
        f ∉ [(⟨.missingPattern, ⟨0, t.byteLength⟩⟩ : Finding)] := fun hf hwhole => by
      have htoken := isOfToken_of_mem_tokenFindings hf
      simp [List.mem_singleton.mp hwhole, Issue.isOfToken] at htoken
    simpa only [or_false] using
      htokens.append (AtMostTwice.of_count_le_one List.count_le_length) hdisjoint

end Row

end PipeLint
