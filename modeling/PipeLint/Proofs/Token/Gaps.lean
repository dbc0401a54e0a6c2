import PipeLint.Proofs.Text.Gaps
import PipeLint.Proofs.Text.Trim
import PipeLint.Proofs.Token.Shape

/-!
# The gaps between tokens

Cutting a text into tokens loses nothing but white space: the tokens follow one another without
overlap, the gaps that they leave are blank, and tokens and gaps in turn are the whole text.

## Main results

* `PipeLint.Text.exists_gaps?_tokensFrom`: the gaps of a text behind some other text.
* `PipeLint.Text.tokens_lossless`: the tokens of a text and the gaps between them.
-/

namespace PipeLint.Text

theorem text_ne_nil_of_mem_tokens {t : Text} {k : Token} (h : k ∈ t.tokens) : k.text ≠ [] := by
  obtain ⟨front, c, u, -, -, rfl⟩ := exists_of_mem_tokens h
  exact Lexeme.text_first_ne_nil c u

/-- The tokens of a text that stands behind other text leave blank gaps, which make up the text
together with the tokens. -/
theorem exists_gaps?_tokensFrom {offset : Nat} {t : Text} (front : Text)
    (hfront : front.byteLength = offset) :
    ∃ gap gaps, (front ++ t).gaps? offset ((tokensFrom offset t).map Token.span) =
        some (gap :: gaps) ∧ (∀ g ∈ gap :: gaps, g.Blank) ∧
      weave (gap :: gaps) ((tokensFrom offset t).map Token.text) = t := by
  fun_induction tokensFrom offset t generalizing front with
  | case1 offset =>
    subst hfront
    exact ⟨[], [], gaps?_nil front [], by simp, rfl⟩
  | case2 offset c t hc ih =>
    subst hfront
    obtain ⟨gap, gaps, hgaps, hblank, hweave⟩ := ih (front ++ [c]) (by simp)
    obtain ⟨hgap, hothers⟩ := List.forall_mem_cons.mp hblank
    refine ⟨c :: gap, gaps, ?_, List.forall_mem_cons.mpr ⟨blank_cons.mpr ⟨hc, hgap⟩, hothers⟩, ?_⟩
    · have happend : (front ++ [c] ++ t).gaps? front.byteLength _ = some (([c] ++ gap) :: gaps) :=
        gaps?_append hgaps
      rwa [List.append_assoc] at happend
    · exact (weave_append [c] gap gaps _).trans (congrArg (c :: ·) hweave)
  | case3 offset c t hc lexeme ih =>
    subst hfront
    have happend : lexeme.text ++ lexeme.rest = c :: t := Lexeme.text_append_rest_first c t
    obtain ⟨gap, gaps, hgaps, hblank, hweave⟩ := ih (front ++ lexeme.text) (by simp)
    refine ⟨[], gap :: gaps, ?_, List.forall_mem_cons.mpr ⟨blank_nil, hblank⟩, ?_⟩
    · have hcons := gaps?_cons hgaps
      rwa [List.append_assoc, happend] at hcons
    · rw [List.map_cons, weave_cons, hweave, happend]

/-- **Cutting into tokens loses nothing.** The tokens of a text are parts of it at their offsets;
they are not empty and follow one another without overlap. What stands before, between and behind
them is white space, and together with the tokens it is the text. -/
theorem tokens_lossless (t : Text) :
    (∀ k ∈ t.tokens, k.text ≠ [] ∧ t.slice? k.span.start k.span.stop = some k.text) ∧
      t.tokens.Pairwise (fun k m => k.span.start < m.span.start ∧ k.span.stop ≤ m.span.start) ∧
      ∃ gaps, t.gaps? 0 (t.tokens.map Token.span) = some gaps ∧ (∀ g ∈ gaps, g.Blank) ∧
        weave gaps (t.tokens.map Token.text) = t := by
  obtain ⟨gap, gaps, hgaps, hblank, hweave⟩ := exists_gaps?_tokensFrom (t := t) [] rfl
  refine ⟨fun k hk => ⟨text_ne_nil_of_mem_tokens hk, ?_⟩, ?_, gap :: gaps, hgaps, hblank, hweave⟩
  · exact hasPartAt_iff_slice?.mp (hasPartAt_of_mem_tokens hk)
  · have hapart := List.pairwise_map.mp (pairwise_of_gaps? hgaps).2
    refine hapart.imp_of_mem fun {k m} hk _ hle => ⟨?_, hle⟩
    -- a token that is not empty ends behind its start
    have hpos : k.text.byteLength ≠ 0 :=
      fun hzero => text_ne_nil_of_mem_tokens hk (byteLength_eq_zero_iff.mp hzero)
    have hstop : k.span.stop = k.span.start + k.text.byteLength := rfl
    omega

example : gaps? " é\u00A0'b\\".toList 0 ((tokens " é\u00A0'b\\".toList).map Token.span) =
    some [[' '], ['\u00A0'], []] := by decide +kernel

end PipeLint.Text
