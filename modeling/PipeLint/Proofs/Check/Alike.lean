import Mathlib.Data.List.Forall2
import PipeLint.Proofs.Grammar.Interior
import PipeLint.Proofs.Check.Pipeline

/-!
# Texts that the checks do not tell apart

The checks on a token look at little of its text. A quoted string that is closed is searched for
backslashes, and for the `%` of a pattern behind `LIKE`; all else between its quotes is opaque. What
the checks do not tell apart in tokens they do not tell apart in stages.

## Main definitions

* `PipeLint.Token.Alike`: tokens that no check tells apart.
* `PipeLint.Text.Alike`: texts that no check tells apart as stages.
* `PipeLint.Text.Interchangeable`: texts that no check tells apart between quotes.

## Main results

* `PipeLint.Text.Interchangeable.alike`: closed strings around interchangeable texts.
* `PipeLint.Text.Alike.stageFindings_eq` and `PipeLint.Text.Alike.usesFlag_eq`: the checks on texts
  that are alike.
-/

namespace PipeLint

theorem map_eq_of_forall₂ {α β : Type*} {R : α → α → Prop} {f : α → β} {l m : List α}
    (h : List.Forall₂ R l m) (hf : ∀ a b, R a b → f a = f b) : l.map f = m.map f := by
  induction h with
  | nil => rfl
  | cons hab _ ih => rw [List.map_cons, List.map_cons, hf _ _ hab, ih]

/-! ### Tokens -/

namespace Token

/-- Tokens that no check tells apart, whatever stands before and behind them. -/
structure Alike (k m : Token) : Prop where
  span_eq : k.span = m.span
  isPattern_eq : k.isPattern = m.isPattern
  wildcard_iff : '%' ∈ k.text ↔ '%' ∈ m.text
  flagLetters_eq : k.flagLetters = m.flagLetters
  isSearchable_eq : ∀ flags, k.isSearchable flags = m.isSearchable flags
  findings_eq : ∀ flags next?, k.findings flags next? = m.findings flags next?

theorem Alike.refl (k : Token) : Alike k k :=
  ⟨rfl, rfl, Iff.rfl, rfl, fun _ => rfl, fun _ _ => rfl⟩

theorem Alike.findings_some_eq {k m : Token} (h : Alike k m) (flags : FlagSet) (t : Token) :
    t.findings flags (some k) = t.findings flags (some m) := by
  have hword : t.wordFindings (some k) = t.wordFindings (some m) := by
    have hpattern := h.isPattern_eq
    cases hm : m.isPattern <;>
      simp [wordFindings, Option.filter_some, hpattern, hm, h.wildcard_iff, h.span_eq]
  simp only [findings, hword]

end Token

/-! ### Lists of tokens -/

section Tokens

variable {tokens others : List Token} (h : List.Forall₂ Token.Alike tokens others)

include h

theorem tokenFindings_eq_of_alike (flags : FlagSet) :
    tokenFindings flags tokens = tokenFindings flags others := by
  induction h with
  | nil => rfl
  | @cons k m tokens others hkm hrest ih =>
    rw [tokenFindings, tokenFindings, hkm.findings_eq, ih]
    cases hrest with
    | nil => rfl
    | cons hnext _ => rw [List.head?_cons, List.head?_cons, hnext.findings_some_eq]

theorem any_eq_of_alike {p : Token → Bool} (hp : ∀ k m, k.Alike m → p k = p m) :
    tokens.any p = others.any p := by
  induction h with
  | nil => rfl
  | cons hkm _ ih => rw [List.any_cons, List.any_cons, hp _ _ hkm, ih]

end Tokens

/-! ### Stages -/

namespace Text

/-- Texts that no check tells apart as stages. -/
structure Alike (s t : Text) : Prop where
  blank_iff : s.Blank ↔ t.Blank
  byteLength_eq : s.byteLength = t.byteLength
  tokens : List.Forall₂ Token.Alike s.tokens t.tokens

namespace Alike

variable {s t : Text}

theorem refl (t : Text) : Alike t t :=
  ⟨Iff.rfl, rfl, List.forall₂_same.mpr fun k _ => Token.Alike.refl k⟩

theorem stageFindings_eq (h : s.Alike t) (flags : FlagSet) :
    stageFindings flags s s.tokens = stageFindings flags t t.tokens := by
  simp only [stageFindings, h.blank_iff, h.byteLength_eq, tokenFindings_eq_of_alike h.tokens,
    any_eq_of_alike h.tokens fun _ _ hkm => hkm.isSearchable_eq flags]

theorem usesFlag_eq (h : s.Alike t) (letter : Char) : usesFlag letter s = usesFlag letter t :=
  any_eq_of_alike h.tokens fun _ _ hkm => by rw [hkm.flagLetters_eq]

end Alike

theorem pipelineFindings_eq_of_alike {stages others : List Text}
    (h : List.Forall₂ Alike stages others) : pipelineFindings stages = pipelineFindings others := by
  refine pipelineFindings_congr fun letter => ?_
  exact map_eq_of_forall₂ h fun _ _ hst => hst.usesFlag_eq letter

/-! ### Quoted strings -/

theorem invalidEscapes_eq_nil {t : Text} (h : '\\' ∉ t) (offset : Nat) :
    t.invalidEscapes offset = [] := by
  refine List.eq_nil_iff_forall_not_mem.mpr fun f hf => ?_
  obtain ⟨front, c, back, rfl, -, -⟩ := exists_of_mem_invalidEscapes hf
  exact h (by simp)

/-- Texts that no check tells apart between quotes: neither holds the quote or a backslash, they are
of one length, and if one of them holds a `%`, so does the other. -/
structure Interchangeable (quote : Char) (x y : Text) : Prop where
  isQuote_quote : isQuote quote = true
  quote_notMem : quote ∉ x ∧ quote ∉ y
  backslash_notMem : '\\' ∉ x ∧ '\\' ∉ y
  byteLength_eq : x.byteLength = y.byteLength
  wildcard_iff : '%' ∈ x ↔ '%' ∈ y

theorem quotedFindings_eq_nil {quote : Char} (hquote : isQuote quote = true) {x : Text}
    (hx : quote ∉ x) (hback : '\\' ∉ x) (offset : Nat) :
    Token.quotedFindings ⟨.quoted, quote :: (x ++ [quote]), offset⟩ = [] := by
  have hscan := (isInterior_of_notMem hx hback).scan_within hquote
  rw [Token.quotedFindings_of_closed rfl (interior?_of_scan_eq hscan)]
  exact invalidEscapes_eq_nil hback _

namespace Interchangeable

variable {quote : Char} {x y : Text}

theorem symm (h : Interchangeable quote x y) : Interchangeable quote y x :=
  ⟨h.isQuote_quote, h.quote_notMem.symm, h.backslash_notMem.symm, h.byteLength_eq.symm,
    h.wildcard_iff.symm⟩

theorem isInterior (h : Interchangeable quote x y) : x.IsInterior quote :=
  isInterior_of_notMem h.quote_notMem.1 h.backslash_notMem.1

/-- Closed strings around interchangeable texts are alike. -/
theorem alike (h : Interchangeable quote x y) (offset : Nat) :
    Token.Alike ⟨.quoted, quote :: (x ++ [quote]), offset⟩
      ⟨.quoted, quote :: (y ++ [quote]), offset⟩ where
  span_eq := by
    simp [Token.span, h.byteLength_eq]
  isPattern_eq := rfl
  wildcard_iff := by
    simp only [List.mem_cons, List.mem_append, h.wildcard_iff]
  flagLetters_eq := rfl
  isSearchable_eq _ := rfl
  findings_eq flags next? := by
    obtain ⟨hx, hy⟩ := h.quote_notMem
    obtain ⟨hbackx, hbacky⟩ := h.backslash_notMem
    simp only [Token.findings, quotedFindings_eq_nil h.isQuote_quote hx hbackx,
      quotedFindings_eq_nil h.isQuote_quote hy hbacky]

end Interchangeable

end Text

end PipeLint
