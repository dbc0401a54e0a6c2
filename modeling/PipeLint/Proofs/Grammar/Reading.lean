import PipeLint.Proofs.Check.Error
import PipeLint.Proofs.Grammar.Item

/-!
# Reading a stage by its grammar

A text is read from left to right: white space is skipped, and an item that fits is taken off the
front. The grammar of stages holds the texts that can be read to their ends with something to search
for among the items. Its texts are exactly the stages without errors, because the items of a text
are its tokens.

## Main definitions

* `PipeLint.Text.ReadsAs`: the items that a text is read as.
* `PipeLint.Text.InGrammar`: the grammar of stages.

## Main results

* `PipeLint.Text.ReadsAs.map_tokensFrom`: the items of a text are its tokens, in this order.
* `PipeLint.Text.exists_readsAs_tokensFrom`: a text can be read if all its tokens are items.
* `PipeLint.Text.inGrammar_iff`: the grammar in terms of tokens.
-/

namespace PipeLint

namespace Item

variable {i : Item} {rest : Text}

/-- The first token of a text is the item that fits there. -/
theorem Fits.tokensFrom_append (h : i.Fits rest) (offset : Nat) :
    Text.tokensFrom offset (i.text ++ rest) =
      ⟨i.kind, i.text, offset⟩ :: Text.tokensFrom (offset + i.text.byteLength) rest := by
  obtain ⟨c, t, happend, hblank, hfirst⟩ := h.exists_first_eq
  rw [happend, Text.tokensFrom_cons_of_not_isBlank hblank, hfirst]

theorem isSearchable_iff {k : Token} (hkind : i.kind = k.kind) (htext : i.text = k.text)
    (supported : FlagSet) : k.isSearchable supported = true ↔ i.IsSearchable supported := by
  cases i <;> simp only [kind, text] at hkind htext <;>
    simp [Token.isSearchable, Token.isPattern, Token.flagLetters, IsSearchable, ← hkind, ← htext]

end Item

namespace Text

/-- The items that a text is read as, from left to right. -/
inductive ReadsAs : Text → List Item → Prop
  | nil : ReadsAs [] []
  | blank {c : Char} {t : Text} {items : List Item} :
      isBlank c = true → ReadsAs t items → ReadsAs (c :: t) items
  | item {i : Item} {rest : Text} {items : List Item} :
      i.Fits rest → ReadsAs rest items → ReadsAs (i.text ++ rest) (i :: items)

/-- The grammar of stages: the texts that are read as items, one of them something to search
for. -/
def InGrammar (supported : FlagSet) (t : Text) : Prop :=
  ∃ items, t.ReadsAs items ∧ ∃ i ∈ items, i.IsSearchable supported

namespace ReadsAs

variable {t : Text} {items : List Item}

/-- The items of a text are its tokens, in this order. -/
theorem map_tokensFrom (h : t.ReadsAs items) (offset : Nat) :
    (tokensFrom offset t).map (fun k => (k.kind, k.text)) =
      items.map fun i => (i.kind, i.text) := by
  induction h generalizing offset with
  | nil => simp
  | blank hc _ ih => rw [tokensFrom_cons_of_isBlank hc, ih]
  | item hfits _ ih => rw [hfits.tokensFrom_append, List.map_cons, List.map_cons, ih]

theorem exists_item_of_mem_tokens (h : t.ReadsAs items) {k : Token} (hk : k ∈ t.tokens) :
    ∃ i ∈ items, i.kind = k.kind ∧ i.text = k.text := by
  have hmem := List.mem_map_of_mem (f := fun k : Token => (k.kind, k.text)) hk
  rw [tokens, h.map_tokensFrom] at hmem
  obtain ⟨i, hi, heq⟩ := List.mem_map.mp hmem
  exact ⟨i, hi, Prod.mk.inj heq⟩

theorem exists_token_of_mem (h : t.ReadsAs items) {i : Item} (hi : i ∈ items) :
    ∃ k ∈ t.tokens, i.kind = k.kind ∧ i.text = k.text := by
  have hmem := List.mem_map_of_mem (f := fun i : Item => (i.kind, i.text)) hi
  rw [← h.map_tokensFrom 0] at hmem
  obtain ⟨k, hk, heq⟩ := List.mem_map.mp hmem
  exact ⟨k, hk, Prod.mk.inj heq.symm⟩

theorem exists_fits (h : t.ReadsAs items) : ∀ i ∈ items, ∃ rest, i.Fits rest := by
  induction h with
  | nil => simp
  | blank _ _ ih => exact ih
  | item hfits _ ih => exact List.forall_mem_cons.mpr ⟨⟨_, hfits⟩, ih⟩

end ReadsAs

/-- A text can be read if no token of it is a stray character or an open string. -/
theorem exists_readsAs_tokensFrom {offset : Nat} {t : Text}
    (h : ∀ k ∈ tokensFrom offset t, k.kind ≠ .stray ∧ ¬ k.IsOpen) : ∃ items, t.ReadsAs items := by
  fun_induction tokensFrom offset t with
  | case1 => exact ⟨[], .nil⟩
  | case2 offset c t hc ih =>
    obtain ⟨items, hitems⟩ := ih h
    exact ⟨items, .blank hc hitems⟩
  | case3 offset c t hc lexeme ih =>
    obtain ⟨⟨hstray, hopen⟩, h⟩ := List.forall_mem_cons.mp h
    obtain ⟨items, hitems⟩ := ih h
    obtain ⟨i, hfits, -, htext⟩ := Item.exists_fits_of_first (by simpa using hc) hstray
      fun hkind hends => hopen ⟨hkind, hends⟩
    rw [← Lexeme.text_append_rest_first, ← htext]
    exact ⟨i :: items, .item hfits hitems⟩

/-- The grammar holds the texts without stray characters and open strings that have something to
search for. -/
theorem inGrammar_iff {supported : FlagSet} {t : Text} :
    t.InGrammar supported ↔
      (∀ k ∈ t.tokens, k.kind ≠ .stray ∧ ¬ k.IsOpen) ∧
        ∃ k ∈ t.tokens, k.isSearchable supported = true := by
  constructor
  · rintro ⟨items, hreads, i, hi, hsearch⟩
    constructor
    · intro k hk
      obtain ⟨j, hj, hkind, htext⟩ := hreads.exists_item_of_mem_tokens hk
      obtain ⟨rest, hfits⟩ := hreads.exists_fits j hj
      refine ⟨fun hstray => ?_, fun hopen => ?_⟩
      · exact j.kind_ne_stray (hkind.trans hstray)
      · exact hfits.not_endsQuoted (hkind.trans hopen.1) (htext ▸ hopen.2)
    · obtain ⟨k, hk, hkind, htext⟩ := hreads.exists_token_of_mem hi
      exact ⟨k, hk, (Item.isSearchable_iff hkind htext supported).mpr hsearch⟩
  · rintro ⟨hclosed, k, hk, hsearch⟩
    obtain ⟨items, hreads⟩ := exists_readsAs_tokensFrom hclosed
    obtain ⟨i, hi, hkind, htext⟩ := hreads.exists_item_of_mem_tokens hk
    exact ⟨items, hreads, i, hi, (Item.isSearchable_iff hkind htext supported).mp hsearch⟩

end Text

end PipeLint
