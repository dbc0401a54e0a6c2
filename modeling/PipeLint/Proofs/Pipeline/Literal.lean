import PipeLint.Proofs.Check.Alike
import PipeLint.Proofs.Grammar.Reading
import PipeLint.Proofs.Pipeline.Pieces
import PipeLint.Proofs.Token.Append

/-!
# Strings in expressions

A closed string that starts where a token can start is one token of its stage, and no pipe in it
separates anything. So the stages of an expression with such a string in it are like those of the
expression with another text between the quotes, if the checks do not tell the two texts apart.

## Main definitions

* `PipeLint.Text.EndsBetweenTokens`: the texts behind which a token can start.
* `PipeLint.Stage.Alike`: stages at one place that no check tells apart.

## Main results

* `PipeLint.Text.tokens_append_quoted`: the tokens of a text with a string in it.
* `PipeLint.Text.unsplit_quoted` and `PipeLint.Text.scan_quoted`: a closed string leaves the quoting
  as it is.
* `PipeLint.Pipeline.forall₂_alike_stages`: the stages of an expression with a string in it.
-/

namespace PipeLint

open Quoting

namespace Text

/-! ### A string on its own -/

section Quoted

variable {quote : Char} (hquote : isQuote quote = true) {x : Text}

include hquote

theorem trimmed_quoted (x : Text) : Trimmed (quote :: (x ++ [quote])) := by
  have hnot := (isWordCharacter_iff.mp (isWordCharacter_of_isQuote hquote)).1
  refine ⟨fun c hc => ?_, fun c hc => ?_⟩
  · obtain rfl := Option.some.inj hc
    exact hnot
  · rw [← List.cons_append, List.getLast?_concat] at hc
    obtain rfl := Option.some.inj hc
    exact hnot

variable (hx : quote ∉ x) (hback : '\\' ∉ x)

include hx hback

/-- A closed string leaves nothing open. -/
theorem scan_quoted : neutral.scan (quote :: (x ++ [quote])) = neutral := by
  rw [scan_cons, neutral_step_of_isQuote hquote, scan_append,
    (isInterior_of_notMem hx hback).scan_within hquote, scan_cons, within_step_self hquote,
    scan_nil]

/-- A string has no separating pipe. -/
theorem unsplit_quoted : Unsplit (quote :: (x ++ [quote])) := by
  have hpipe : '|' ≠ quote := by
    rintro rfl
    exact absurd hquote (by decide)
  have hnot : '|' ∉ [quote] := by simpa using hpipe
  intro a b h
  cases a with
  | nil => exact absurd (List.cons.inj h).1.symm hpipe
  | cons c a =>
    obtain ⟨rfl, htail⟩ := List.cons.inj h
    obtain ⟨m, rfl, -⟩ := exists_of_append_eq_of_notMem_right hnot htail
    -- what stands before the pipe is inside the quotes
    simp only [List.mem_append, not_or] at hx hback
    rw [scan_cons, neutral_step_of_isQuote hquote,
      (isInterior_of_notMem hx.1 hback.1).scan_within hquote]
    simp

end Quoted

end Text

/-! ### A string in a stage -/

namespace Text

/-- A text behind which a token can start: all its strings are closed, and it ends with white space
unless it is empty. -/
structure EndsBetweenTokens (t : Text) : Prop where
  not_isOpen : ∀ k ∈ t.tokens, ¬ k.IsOpen
  isBlank_last : ∀ c, t.getLast? = some c → isBlank c = true

/-- White space at the start of a text moves its tokens. -/
theorem tokens_eq_tokensFrom_trimStart (t : Text) :
    t.tokens = tokensFrom (byteLength (t.takeWhile isBlank)) t.trimStart := by
  conv_lhs => rw [← List.takeWhile_append_dropWhile (p := isBlank) (l := t)]
  rw [tokens, tokensFrom_append_of_blank (blank_takeWhile t), Nat.zero_add, trimStart]

theorem EndsBetweenTokens.trimStart {t : Text} (h : t.EndsBetweenTokens) :
    t.trimStart.EndsBetweenTokens where
  not_isOpen k hk := by
    have hclosed := h.not_isOpen
    rw [tokens_eq_tokensFrom_trimStart, tokensFrom_eq_map_shift] at hclosed
    have hmoved := List.mem_map_of_mem (f := (·.shift (byteLength (t.takeWhile isBlank)))) hk
    exact fun hopen => hclosed _ hmoved hopen
  isBlank_last c hc := by
    refine h.isBlank_last c ?_
    rw [← List.takeWhile_append_dropWhile (p := isBlank) (l := t), List.getLast?_append,
      ← Text.trimStart, hc]
    rfl

variable {front : Text} {quote : Char} {x y : Text}

/-- The tokens before a string, the string, and the tokens behind it. -/
theorem tokens_append_quoted (hfront : front.EndsBetweenTokens) (hquote : isQuote quote = true)
    (hx : x.IsInterior quote) (back : Text) :
    (front ++ quote :: (x ++ [quote]) ++ back).tokens =
      front.tokens ++ ⟨.quoted, quote :: (x ++ [quote]), front.byteLength⟩ ::
        tokensFrom (front.byteLength + byteLength (quote :: (x ++ [quote]))) back := by
  have hfits : (Item.quoted quote x).Fits back := ⟨hquote, hx⟩
  rw [List.append_assoc, tokens, tokensFrom_append hfront.not_isOpen (Or.inl hfront.isBlank_last),
    Nat.zero_add]
  exact congrArg _ (hfits.tokensFrom_append _)

/-- A stage with a string in it is like the stage with another text between the quotes. -/
theorem Interchangeable.alike_append (h : Interchangeable quote x y)
    (hfront : front.EndsBetweenTokens) (back : Text) :
    (front ++ quote :: (x ++ [quote]) ++ back).Alike
      (front ++ quote :: (y ++ [quote]) ++ back) where
  blank_iff := by
    have hnot := (isWordCharacter_iff.mp (isWordCharacter_of_isQuote h.isQuote_quote)).1
    simp [hnot]
  byteLength_eq := by
    simp [h.byteLength_eq]
  tokens := by
    have hlength : byteLength (quote :: (x ++ [quote])) = byteLength (quote :: (y ++ [quote])) := by
      simp [h.byteLength_eq]
    have hself (l : List Token) : List.Forall₂ Token.Alike l l :=
      List.forall₂_same.mpr fun k _ => Token.Alike.refl k
    rw [tokens_append_quoted hfront h.isQuote_quote h.isInterior,
      tokens_append_quoted hfront h.isQuote_quote h.symm.isInterior, hlength]
    exact List.rel_append (hself _) (.cons (h.alike _) (hself _))

end Text

/-! ### A string in an expression -/

namespace Stage

/-- Stages at one place that no check tells apart. -/
structure Alike (s t : Stage) : Prop where
  text : s.text.Alike t.text
  offset_eq : s.offset = t.offset

theorem Alike.refl (s : Stage) : Alike s s :=
  ⟨Text.Alike.refl s.text, rfl⟩

theorem Alike.shift {s t : Stage} (h : Alike s t) (n : Nat) : Alike (s.shift n) (t.shift n) :=
  ⟨h.text, congrArg (· + n) h.offset_eq⟩

end Stage

/-- A piece with a string in it makes a stage like that of the piece with another text between the
quotes. -/
theorem Text.Interchangeable.alike_ofSegment {piece : Text} {quote : Char} {x y : Text}
    (h : Interchangeable quote x y) (hpiece : piece.EndsBetweenTokens) (behind : Text) :
    Stage.Alike (Stage.ofSegment 0 (piece ++ quote :: (x ++ [quote]) ++ behind))
      (Stage.ofSegment 0 (piece ++ quote :: (y ++ [quote]) ++ behind)) := by
  have htrim (z : Text) :=
    (trimmed_quoted h.isQuote_quote z).trim_append_append (List.cons_ne_nil _ _) piece behind
  constructor
  · simp only [Stage.ofSegment, (htrim x).1, (htrim y).1]
    exact h.alike_append hpiece.trimStart _
  · simp only [Stage.ofSegment, (htrim x).2, (htrim y).2]

namespace Pipeline

variable {front piece : Text} {quote : Char} {x y : Text}

/-- The stages of an expression with a string in it are like those of the expression with another
text between the quotes. -/
theorem forall₂_alike_stages (h : Text.Interchangeable quote x y)
    (hpiece : IsPiece front piece []) (hscan : neutral.scan (front ++ piece) = neutral)
    (hends : piece.EndsBetweenTokens) (back : Text) :
    List.Forall₂ Stage.Alike
      (ofText (front ++ (piece ++ quote :: (x ++ [quote]) ++ back))).stages
      (ofText (front ++ (piece ++ quote :: (y ++ [quote]) ++ back))).stages := by
  rw [scan_append, hpiece.scan_front] at hscan
  -- only the stage with the string in it depends on the text between the quotes
  obtain ⟨closed, hclosed⟩ := exists_stages_append hpiece.front_eq
  obtain ⟨behind, others, hbehind⟩ := exists_stages_append_append hpiece.unsplit hscan back
  have hstages {u v : Text} (h : Text.Interchangeable quote u v) :
      (ofText (front ++ (piece ++ quote :: (u ++ [quote]) ++ back))).stages =
        closed ++ (Stage.ofSegment 0 (piece ++ quote :: (u ++ [quote]) ++ behind) ::
          others.map (·.shift ((piece ++ quote :: (u ++ [quote]) ++ behind).byteLength + 1))).map
            (·.shift front.byteLength) := by
    have hblank : ¬ Text.Blank (quote :: (u ++ [quote])) :=
      (Text.trimmed_quoted h.isQuote_quote u).not_blank (List.cons_ne_nil _ _)
    rw [hclosed, hbehind _
      (Text.unsplit_quoted h.isQuote_quote h.quote_notMem.1 h.backslash_notMem.1)
      (Text.scan_quoted h.isQuote_quote h.quote_notMem.1 h.backslash_notMem.1) hblank]
  have hlength : (piece ++ quote :: (x ++ [quote]) ++ behind).byteLength =
      (piece ++ quote :: (y ++ [quote]) ++ behind).byteLength := by
    simp [h.byteLength_eq]
  have hself (l : List Stage) : List.Forall₂ Stage.Alike l l :=
    List.forall₂_same.mpr fun s _ => Stage.Alike.refl s
  rw [hstages h, hstages h.symm, hlength, List.map_cons, List.map_cons]
  exact List.rel_append (hself closed) (.cons ((h.alike_ofSegment hends behind).shift _) (hself _))

end Pipeline

end PipeLint
