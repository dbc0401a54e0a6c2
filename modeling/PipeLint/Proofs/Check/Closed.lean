import Mathlib.Logic.Relation
import PipeLint.Proofs.Check.Error

/-!
# Which strings are reported as open

The reader of tokens looks for the quote that closes a string from left to right, in rounds: each
round passes one character, or a backslash with the character after it. The check on a token looks
at the end of its text and at the backslashes there. They agree: a string is reported exactly if the
rounds reach the end of the text, and not if they stop at a quote. So at most one string of a text
is reported, which is its last token and ends where the text ends.

## Main definitions

* `PipeLint.QuoteRound`: one round of the search for a closing quote.
* `PipeLint.Token.IsReported`: a quoted token that is reported as malformed or as not closed.

## Main results

* `PipeLint.QuoteRound.quotedSpan_of_end`, `PipeLint.QuoteRound.quotedSpan_of_quote`: what is cut
  off when the rounds reach the end or stop at a quote.
* `PipeLint.Text.isReported_iff_reaches_end`: which tokens of a text are reported.
-/

namespace PipeLint

open Relation (ReflTransGen)

/-! ### Rounds of the search -/

/-- One round of the search for a closing quote, with what is left of the text before the round and
after it. In front of the closing quote there is no round. -/
inductive QuoteRound (quote : Char) : Text → Text → Prop
  /-- A backslash takes the next character with it. -/
  | escape (c : Char) (t : Text) : QuoteRound quote ('\\' :: c :: t) t
  /-- At the end of the text it takes nothing. -/
  | last : QuoteRound quote ['\\'] []
  /-- Any other character is passed alone. -/
  | other {c : Char} (hescape : c ≠ '\\') (hquote : c ≠ quote) (t : Text) :
      QuoteRound quote (c :: t) t

namespace QuoteRound

variable {quote : Char}

/-- The rounds go on to the end of the text or stop in front of a quote. -/
theorem reaches_end_or_quote (quote : Char) (t : Text) :
    ReflTransGen (QuoteRound quote) t [] ∨
      ∃ back, ReflTransGen (QuoteRound quote) t (quote :: back) := by
  fun_induction quotedSpan quote t with
  | case1 => exact Or.inl .refl
  | case2 c t body rest heq ih =>
    exact ih.imp (.head (.escape c t)) (Exists.imp fun _ => .head (.escape c t))
  | case3 t _ => exact Or.inr ⟨t, .refl⟩
  | case4 c t hnot hne body rest heq ih =>
    by_cases hback : c = '\\'
    · obtain rfl := eq_nil_of_backslash hnot hback
      exact Or.inl (.single (hback ▸ .last))
    · have hround := QuoteRound.other hback hne t
      exact ih.imp (.head hround) (Exists.imp fun _ => .head hround)

section Quote

variable (hquote : isQuote quote = true) {t u : Text}

include hquote

/-- What a round passes belongs to the string. -/
theorem quotedSpan_of_round (h : QuoteRound quote t u) :
    ∃ passed, t = passed ++ u ∧
      quotedSpan quote t = (passed ++ (quotedSpan quote u).1, (quotedSpan quote u).2) := by
  cases h with
  | escape c => exact ⟨['\\', c], rfl, rfl⟩
  | last =>
    have hne := ne_backslash_of_isQuote hquote
    exact ⟨['\\'], rfl, by simp [quotedSpan, hne.symm]⟩
  | @other c hescape hne =>
    refine ⟨[c], rfl, ?_⟩
    rw [quotedSpan, if_neg hne]
    · rfl
    · simp [hescape]

theorem quotedSpan_of_rounds (h : ReflTransGen (QuoteRound quote) t u) :
    ∃ passed, t = passed ++ u ∧
      quotedSpan quote t = (passed ++ (quotedSpan quote u).1, (quotedSpan quote u).2) := by
  induction h using ReflTransGen.head_induction_on with
  | refl => exact ⟨[], rfl, rfl⟩
  | head hround _ ih =>
    obtain ⟨passed, rfl, hspan⟩ := ih
    obtain ⟨first, rfl, hfirst⟩ := quotedSpan_of_round hquote hround
    refine ⟨first ++ passed, (List.append_assoc ..).symm, ?_⟩
    rw [hfirst, hspan, List.append_assoc]

omit hquote in
theorem openQuote_of_round (h : QuoteRound quote t u) :
    ((Quoting.within quote).scan t).openQuote = ((Quoting.within quote).scan u).openQuote := by
  cases h with
  | escape => rfl
  | last => rfl
  | other hescape hne => rw [Quoting.scan_cons, Quoting.within_step_of_ne hescape hne]

omit hquote in
theorem openQuote_of_rounds (h : ReflTransGen (QuoteRound quote) t u) :
    ((Quoting.within quote).scan t).openQuote = ((Quoting.within quote).scan u).openQuote := by
  induction h using ReflTransGen.head_induction_on with
  | refl => rfl
  | head hround _ ih => exact (openQuote_of_round hround).trans ih

/-- If the rounds reach the end, then the string is the whole text, and the check finds no interior
in it. -/
theorem quotedSpan_of_end (h : ReflTransGen (QuoteRound quote) t []) :
    quotedSpan quote t = (t, []) ∧ Text.interior? (quote :: t) = none := by
  obtain ⟨passed, ht, hspan⟩ := quotedSpan_of_rounds hquote h
  have hwhole : quotedSpan quote t = (t, []) := by
    rw [hspan, ht, quotedSpan]
  refine ⟨hwhole, ?_⟩
  rcases quotedSpan_cases quote t with ⟨inner, rest, hcut, hinner⟩ | ⟨-, -, hend⟩
  · -- a closed string does not end inside quotes
    obtain ⟨rfl, rfl⟩ := Prod.mk.inj (hwhole.symm.trans hcut)
    have hopen := openQuote_of_rounds h
    rw [Quoting.scan_append, hinner, Quoting.scan_cons, Quoting.within_step_self hquote] at hopen
    contradiction
  · exact Text.interior?_eq_none hend

/-- If the rounds stop at a quote, then this quote closes the string, and the check finds what was
passed as the interior. -/
theorem quotedSpan_of_quote {back : Text} (h : ReflTransGen (QuoteRound quote) t (quote :: back)) :
    ∃ inner, t = inner ++ quote :: back ∧ quotedSpan quote t = (inner ++ [quote], back) ∧
      Text.interior? (quote :: (inner ++ [quote])) = some inner := by
  obtain ⟨passed, ht, hspan⟩ := quotedSpan_of_rounds hquote h
  have hclose : quotedSpan quote (quote :: back) = ([quote], back) := by
    simp [quotedSpan, ne_backslash_of_isQuote hquote]
  rw [hclose] at hspan
  refine ⟨passed, ht, hspan, ?_⟩
  rcases quotedSpan_cases quote t with ⟨inner, rest, hcut, hinner⟩ | ⟨hwhole, hopen, -⟩
  · obtain ⟨heq, -⟩ := Prod.mk.inj (hspan.symm.trans hcut)
    rw [List.append_cancel_right heq]
    exact Text.interior?_of_scan_eq hinner
  · -- an open string ends inside quotes
    obtain ⟨-, rfl⟩ := Prod.mk.inj (hspan.symm.trans hwhole)
    rw [openQuote_of_rounds h, Quoting.scan_cons, Quoting.within_step_self hquote] at hopen
    contradiction

end Quote

end QuoteRound

/-! ### Reported tokens -/

/-- A quoted token that the check reports as malformed or as not closed. -/
def Token.IsReported (k : Token) : Prop :=
  k.kind = .quoted ∧ ∃ f ∈ k.quotedFindings, f.issue.isQuoteFault = true

instance (k : Token) : Decidable k.IsReported :=
  inferInstanceAs (Decidable (_ ∧ _))

namespace Text

variable {t : Text} {k : Token}

theorem isReported_iff_isOpen (hk : k ∈ t.tokens) : k.IsReported ↔ k.IsOpen := by
  constructor
  · rintro ⟨hkind, f, hf, hfault⟩
    by_contra hopen
    have hwarning := severity_of_mem_quotedFindings hk hkind hopen hf
    rw [Issue.severity_of_isQuoteFault hfault] at hwarning
    contradiction
  · intro hopen
    obtain ⟨i, hi, hfindings⟩ := exists_findings_eq_of_isOpen hk hopen {} none
    simp only [Token.findings, hopen.1] at hfindings
    exact ⟨hopen.1, ⟨i, k.span⟩, hfindings ▸ List.mem_singleton_self _, hi⟩

/-- A reported token is the last one, and no other token is reported. -/
theorem exists_tokens_eq_of_isReported (hk : k ∈ t.tokens) (h : k.IsReported) :
    ∃ others, t.tokens = others ++ [k] ∧ ∀ m ∈ others, ¬ m.IsReported := by
  obtain ⟨others, htokens, hothers⟩ :=
    exists_tokens_eq_of_isOpen hk ((isReported_iff_isOpen hk).mp h)
  refine ⟨others, htokens, fun m hm hreported => hothers m hm ?_⟩
  have hmem : m ∈ t.tokens := htokens ▸ List.mem_append_left _ hm
  exact (isReported_iff_isOpen hmem).mp hreported

section Quote

variable {quote : Char} {u : Text} (hquote : isQuote quote = true)
  (htext : k.text = quote :: (quotedSpan quote u).1)

include hquote htext

theorem isReported_of_end (hkind : k.kind = .quoted) (h : ReflTransGen (QuoteRound quote) u []) :
    k.text = quote :: u ∧ k.IsReported := by
  obtain ⟨hspan, hnone⟩ := QuoteRound.quotedSpan_of_end hquote h
  rw [hspan] at htext
  have hfindings := Token.quotedFindings_of_open hquote htext (htext ▸ hnone)
  refine ⟨htext, hkind, _, hfindings ▸ List.mem_singleton_self _, ?_⟩
  split <;> rfl

theorem not_isReported_of_quote {back : Text}
    (h : ReflTransGen (QuoteRound quote) u (quote :: back)) : ¬ k.IsReported := by
  obtain ⟨inner, -, hspan, hinner⟩ := QuoteRound.quotedSpan_of_quote hquote h
  rw [hspan] at htext
  rintro ⟨-, f, hf, hfault⟩
  rw [Token.quotedFindings_of_closed htext (htext ▸ hinner)] at hf
  obtain ⟨_, c, _, _, _, rfl⟩ := exists_of_mem_invalidEscapes hf
  contradiction

theorem rounds_of_isReported (h : k.IsReported) : ReflTransGen (QuoteRound quote) u [] := by
  rcases QuoteRound.reaches_end_or_quote quote u with hend | ⟨back, hstop⟩
  · exact hend
  · exact absurd h (not_isReported_of_quote hquote htext hstop)

end Quote

/-- **The check reports the strings that the reader did not find closed.** Behind the opening quote
of a token, the rounds of the search either reach the end of the text, and then the token is
reported, or stop in front of a quote, and then it is not. At most one token is reported; it is the
last one and ends where the text ends. -/
theorem isReported_iff_reaches_end (t : Text) :
    (∀ k ∈ t.tokens, k.kind = .quoted → ∃ front quote u,
      t = front ++ quote :: u ∧ byteLength front = k.offset ∧ isQuote quote = true ∧
        (k.IsReported ↔ ReflTransGen (QuoteRound quote) u []) ∧
        (¬ k.IsReported ↔ ∃ back, ReflTransGen (QuoteRound quote) u (quote :: back))) ∧
    ∀ k ∈ t.tokens, k.IsReported → k.span.stop = t.byteLength ∧
      ∃ others, t.tokens = others ++ [k] ∧ ∀ m ∈ others, ¬ m.IsReported := by
  constructor
  · intro k hk hkind
    obtain ⟨front, quote, u, ht, hoffset, hquote, htext⟩ := exists_of_kind_eq_quoted hk hkind
    have hend : k.IsReported ↔ ReflTransGen (QuoteRound quote) u [] :=
      ⟨rounds_of_isReported hquote htext, fun h => (isReported_of_end hquote htext hkind h).2⟩
    refine ⟨front, quote, u, ht, hoffset, hquote, hend, fun h => ?_, ?_⟩
    · exact (QuoteRound.reaches_end_or_quote quote u).resolve_left (mt hend.mpr h)
    · rintro ⟨back, hstop⟩
      exact not_isReported_of_quote hquote htext hstop
  · intro k hk h
    refine ⟨?_, exists_tokens_eq_of_isReported hk h⟩
    obtain ⟨front, quote, u, rfl, hoffset, hquote, htext⟩ := exists_of_kind_eq_quoted hk h.1
    have hwhole := isReported_of_end hquote htext h.1 (rounds_of_isReported hquote htext h)
    rw [Token.span, Span.stop, ← hoffset, hwhole.1, byteLength_append]

/-- A closed string, and one whose last quote is escaped. -/
theorem isReported_iff_reaches_end_escaped_quote :
    (∃ front quote u, "'a' \"b\\\"".toList = front ++ quote :: u ∧ byteLength front = 4 ∧
      ReflTransGen (QuoteRound quote) u []) ∧
    ∃ others, tokens "'a' \"b\\\"".toList = others ++ [⟨.quoted, "\"b\\\"".toList, 4⟩] ∧
      ∀ m ∈ others, ¬ m.IsReported := by
  have hmem : ⟨.quoted, "\"b\\\"".toList, 4⟩ ∈ tokens "'a' \"b\\\"".toList := by decide +kernel
  have hreported : Token.IsReported ⟨.quoted, "\"b\\\"".toList, 4⟩ := by decide +kernel
  obtain ⟨hkinds, hothers⟩ := isReported_iff_reaches_end "'a' \"b\\\"".toList
  obtain ⟨front, quote, u, ht, hoffset, -, hend, -⟩ := hkinds _ hmem rfl
  exact ⟨⟨front, quote, u, ht, hoffset, hend.mp hreported⟩, (hothers _ hmem hreported).2⟩

end Text

end PipeLint
