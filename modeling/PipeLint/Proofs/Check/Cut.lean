import PipeLint.Proofs.Check.Order
import PipeLint.Proofs.Text.Place

/-!
# Tokens that are cut from a stage

A stage can be checked with any tokens, not only with its own. If each of them is cut from the
stage, so that its text is a part of the stage at its offset, then what is found stands where it
should: it covers a part of the stage, namely the letter that is not supported, or a part that
starts with the backslash of an invalid escape. There is one exception. Any character can be the
quote of such a token, but offsets in a quoted string are counted as if its quote had one byte. So
behind a quote of more bytes the place of an invalid escape is too far to the left, by the number of
the further bytes, and there it may be no place between two characters.

## Main definitions

* `PipeLint.Finding.Located`: a finding stands where it should.
* `PipeLint.Finding.Displaced`: a finding stands too far to the left.

## Main results

* `PipeLint.Token.located_of_mem_flagFindings`, `PipeLint.Token.located_of_mem_quotedFindings`: the
  findings on one token.
* `PipeLint.located_of_mem_stageFindings`: the findings on a stage.
-/

namespace PipeLint

variable {flags : FlagSet} {f : Finding} {k : Token} {stage : Text} {tokens : List Token}

/-- A finding is located in a text when its span covers a part of the text. What covers a letter
that is not supported has to be this letter, and what covers an invalid escape has to start with a
backslash. -/
def Finding.Located (t : Text) (f : Finding) : Prop :=
  ∃ part, t.HasPartAt part f.span.start ∧ part.byteLength = f.span.length ∧
    (∀ c, f.issue = .unsupportedFlag c → part = [c]) ∧
    (f.issue = .invalidEscape → part.head? = some '\\')

/-- A finding is displaced when it is about an invalid escape in one of some quoted strings, the
quote of this string has more than one byte, and the finding is located once it is moved to the
right by the number of the further bytes. -/
def Finding.Displaced (t : Text) (tokens : List Token) (f : Finding) : Prop :=
  f.issue = .invalidEscape ∧ ∃ k ∈ tokens, k.kind = .quoted ∧ f ∈ k.quotedFindings ∧
    ∃ quote, k.text.head? = some quote ∧ 1 < quote.utf8Size ∧
      (f.shift (quote.utf8Size - 1)).Located t

namespace Finding

theorem Located.stop_le (h : f.Located stage) : f.span.stop ≤ stage.byteLength := by
  obtain ⟨part, hpart, hlength, -⟩ := h
  rw [Span.stop, ← hlength]
  exact hpart.add_byteLength_le

theorem Displaced.stop_le (h : f.Displaced stage tokens) : f.span.stop ≤ stage.byteLength := by
  obtain ⟨-, k, -, -, -, quote, -, -, hlocated⟩ := h
  have hle := hlocated.stop_le
  rw [span_shift, Span.stop_shift] at hle
  exact (Nat.le_add_right _ _).trans hle

theorem located_of_span_eq (hk : stage.HasPartAt k.text k.offset) (hspan : f.span = k.span)
    (hletter : ∀ c, f.issue ≠ .unsupportedFlag c) (hescape : f.issue ≠ .invalidEscape) :
    f.Located stage := by
  refine ⟨k.text, ?_, ?_, fun c hc => absurd hc (hletter c), fun h => absurd h hescape⟩
  · rw [hspan]
    exact hk
  · rw [hspan]
    rfl

end Finding

namespace Token

section Cut

variable (hk : stage.HasPartAt k.text k.offset)

include hk

/-- The findings on a group of flags are located. -/
theorem located_of_mem_flagFindings (hf : f ∈ k.flagFindings flags) : f.Located stage := by
  rcases cases_of_mem_flagFindings hf with ⟨hspan, hissue⟩ | ⟨front, c, back, htext, -, rfl⟩
  · refine Finding.located_of_span_eq hk hspan (fun c hc => ?_) fun hc => ?_ <;>
      simp [hc] at hissue
  · have hpart : k.text.HasPartAt [c] (1 + Text.byteLength front) :=
      ⟨'-' :: front, back, by simp [htext], rfl⟩
    refine ⟨[c], ?_, by simp, fun d hd => ?_, fun h => by simp at h⟩
    · simpa [Nat.add_assoc] using hk.trans hpart
    · simpa using hd

/-- The findings on a quoted string are located if its quote has one byte. Otherwise those on
escapes are too far to the left. -/
theorem located_of_mem_quotedFindings (hf : f ∈ k.quotedFindings) :
    f.Located stage ∨ f.issue = .invalidEscape ∧ ∃ quote, k.text.head? = some quote ∧
      1 < quote.utf8Size ∧ (f.shift (quote.utf8Size - 1)).Located stage := by
  rcases cases_of_mem_quotedFindings hf with
    ⟨hspan, hissue⟩ | ⟨quote, front, c, back, htext, -, rfl⟩
  · refine Or.inl (Finding.located_of_span_eq hk hspan (fun c hc => ?_) fun hc => ?_) <;>
      simp [hc] at hissue
  have hpart : k.text.HasPartAt ['\\', c] (quote.utf8Size + Text.byteLength front) :=
    ⟨quote :: front, back ++ [quote], by simp [htext], rfl⟩
  have hplace : stage.HasPartAt ['\\', c]
      (k.offset + 1 + Text.byteLength front + (quote.utf8Size - 1)) := by
    have hstart : k.offset + 1 + Text.byteLength front + (quote.utf8Size - 1) =
        k.offset + (quote.utf8Size + Text.byteLength front) := by
      have hpos := quote.utf8Size_pos
      omega
    rw [hstart]
    exact hk.trans hpart
  have hlocated : (Finding.shift ⟨.invalidEscape,
      ⟨k.offset + 1 + Text.byteLength front, 1 + c.utf8Size⟩⟩ (quote.utf8Size - 1)).Located stage :=
    ⟨['\\', c], hplace, rfl, fun d hd => by simp at hd, fun _ => rfl⟩
  rcases Nat.lt_or_ge 1 quote.utf8Size with hlong | hshort
  · exact Or.inr ⟨rfl, quote, by simp [htext], hlong, hlocated⟩
  · rw [Nat.sub_eq_zero_of_le hshort, Finding.shift_zero] at hlocated
    exact Or.inl hlocated

/-- The findings on a word are located if the token after it is cut from the text as well. -/
theorem located_of_mem_wordFindings {next? : Option Token}
    (hnext : ∀ n, next? = some n → stage.HasPartAt n.text n.offset)
    (hf : f ∈ k.wordFindings next?) : f.Located stage := by
  rcases cases_of_mem_wordFindings hf with rfl | ⟨n, hn, rfl⟩
  · exact Finding.located_of_span_eq hk rfl (by simp) (by simp)
  · exact Finding.located_of_span_eq (hnext n hn) rfl (by simp) (by simp)

end Cut

end Token

section Cut

variable (h : ∀ k ∈ tokens, stage.HasPartAt k.text k.offset)

include h

/-- The findings on tokens that are cut from a stage are located, or displaced behind a quote of
more than one byte. -/
theorem located_or_displaced_of_mem_tokenFindings (hf : f ∈ tokenFindings flags tokens) :
    f.Located stage ∨ f.Displaced stage tokens := by
  obtain ⟨front, k, back, rfl, hfound⟩ := mem_tokenFindings_iff.mp hf
  have hmem : k ∈ front ++ k :: back := by simp
  have hk := h k hmem
  rw [Token.findings] at hfound
  split at hfound
  · simp at hfound
  · exact Or.inl (Token.located_of_mem_flagFindings hk hfound)
  · rename_i hkind
    refine (Token.located_of_mem_quotedFindings hk hfound).imp_right ?_
    rintro ⟨hissue, hlong⟩
    exact ⟨hissue, k, hmem, hkind, hfound, hlong⟩
  · refine Or.inl (Token.located_of_mem_wordFindings hk (fun n hn => h n ?_) hfound)
    exact List.mem_append_right _ (List.mem_cons_of_mem _ (List.mem_of_head? hn))
  · obtain rfl := List.mem_singleton.mp hfound
    exact Or.inl (Finding.located_of_span_eq hk rfl (by simp) (by simp))

theorem located_or_displaced_of_mem_stageFindings (hf : f ∈ stageFindings flags stage tokens) :
    f.Located stage ∨ f.Displaced stage tokens := by
  obtain ⟨-, hf | ⟨-, rfl⟩⟩ := mem_stageFindings_iff.mp hf
  · exact located_or_displaced_of_mem_tokenFindings h hf
  · exact Or.inl ⟨stage, ⟨[], [], by simp, rfl⟩, rfl, by simp, by simp⟩

end Cut

/-- **Findings stand where they should, but for escapes behind long quotes.** Let tokens of any
kinds be cut from a stage. Every finding ends no later than the stage. It is located, or it is about
an invalid escape in a quoted string whose quote has more than one byte, and then it would be
located if it stood farther to the right by the number of the further bytes. So all findings are
located if the quotes have one byte each, as the quotes have that make a quoted string of a stage's
own tokens. -/
theorem located_of_mem_stageFindings (h : ∀ k ∈ tokens, stage.HasPartAt k.text k.offset)
    (hf : f ∈ stageFindings flags stage tokens) :
    f.span.stop ≤ stage.byteLength ∧ (f.Located stage ∨ f.Displaced stage tokens) ∧
      ((∀ k ∈ tokens, k.kind = .quoted → ∀ quote, k.text.head? = some quote →
        quote.utf8Size = 1) → f.Located stage) := by
  have hcases := located_or_displaced_of_mem_stageFindings h hf
  refine ⟨hcases.elim (·.stop_le) (·.stop_le), hcases, fun hquotes => ?_⟩
  refine hcases.resolve_right ?_
  rintro ⟨-, k, hk, hkind, -, quote, hquote, hlong, -⟩
  rw [hquotes k hk hkind quote hquote] at hlong
  exact absurd hlong (Nat.lt_irrefl 1)

/-- In a string whose quotes are characters of two bytes, the place of an invalid escape lies in the
first of them; the backslash is one byte behind it. -/
theorem located_of_mem_stageFindings_accent :
    let stage : Text := "é\\qé".toList
    let tokens : List Token := [⟨.quoted, stage, 0⟩]
    let f : Finding := ⟨.invalidEscape, ⟨1, 2⟩⟩
    (∀ k ∈ tokens, stage.HasPartAt k.text k.offset) ∧ f ∈ stageFindings .standard stage tokens ∧
      ¬ f.Located stage ∧ f.Displaced stage tokens ∧ (f.shift 1).Located stage := by
  intro stage tokens f
  have hcut : ∀ k ∈ tokens, stage.HasPartAt k.text k.offset :=
    List.forall_mem_singleton.mpr ⟨[], [], by simp, rfl⟩
  have hmem : f ∈ stageFindings .standard stage tokens := by decide +kernel
  have hnot : ¬ f.Located stage := by
    rintro ⟨part, hpart, hlength, -⟩
    rw [Text.hasPartAt_iff_slice?, hlength] at hpart
    have hnone : stage.slice? 1 3 = none := by decide +kernel
    exact Option.some_ne_none part (hpart.symm.trans hnone)
  have hdisplaced := (located_of_mem_stageFindings hcut hmem).2.1.resolve_left hnot
  refine ⟨hcut, hmem, hnot, hdisplaced, ?_⟩
  obtain ⟨-, k, hk, -, -, quote, hquote, -, hlocated⟩ := hdisplaced
  obtain rfl := List.mem_singleton.mp hk
  obtain rfl : quote = 'é' := by
    have hhead : stage.head? = some 'é' := by decide +kernel
    exact Option.some.inj (hquote.symm.trans hhead)
  exact hlocated

end PipeLint
