import PipeLint.Proofs.Text.Place
import PipeLint.Span

/-!
# The gaps between the parts of a text

Spans that follow one another in a text leave gaps: what stands before the first span, between
neighbours, and behind the last one. The gaps can be read off only if no span starts before the one
in front of it ends, and if all of them start and end between characters. The gaps and what the
spans cover, taken in turn, are the whole text.

## Main definitions

* `PipeLint.Text.gaps?`: the gaps that spans leave in a text.
* `PipeLint.Text.weave`: gaps and the parts between them, taken in turn.

## Main results

* `PipeLint.Text.gaps?_append`: a gap grows by the text that is put before it.
* `PipeLint.Text.pairwise_of_gaps?`: spans that leave gaps do not overlap.
-/

namespace PipeLint

/-- Whether a span covers the byte at an offset. -/
def Span.Covers (s : Span) (offset : Nat) : Prop :=
  s.start ≤ offset ∧ offset < s.stop

namespace Text

/-- What stands in a text before, between and behind spans, from a byte offset on. There is no
answer if spans overlap, are out of order or cut a character. -/
def gaps? (t : Text) (start : Nat) : List Span → Option (List Text)
  | [] => (t.slice? start t.byteLength).map ([·])
  | s :: spans =>
    (t.slice? start s.start).bind fun gap => (gaps? t s.stop spans).map (gap :: ·)

/-- Gaps and the parts between them, taken in turn; a gap comes first. -/
def weave : List Text → List Text → Text
  | gap :: gaps, part :: parts => gap ++ part ++ weave gaps parts
  | gaps, _ => gaps.flatten

theorem weave_append (front gap : Text) (gaps parts : List Text) :
    weave ((front ++ gap) :: gaps) parts = front ++ weave (gap :: gaps) parts := by
  cases parts <;> simp [weave]

theorem weave_cons (part : Text) (gaps parts : List Text) :
    weave ([] :: gaps) (part :: parts) = part ++ weave gaps parts := rfl

/-! ### Reading gaps off -/

variable {front part t : Text} {spans : List Span} {gaps : List Text}

theorem gaps?_nil (front t : Text) : (front ++ t).gaps? front.byteLength [] = some [t] := by
  have hslice : (front ++ t).slice? front.byteLength (front ++ t).byteLength = some t :=
    slice?_eq_some_iff.mpr ⟨front, [], by simp, rfl, rfl⟩
  simp only [gaps?, hslice, Option.map_some]

/-- A span right at the start leaves an empty gap. -/
theorem gaps?_cons
    (h : (front ++ part ++ t).gaps? (front.byteLength + part.byteLength) spans = some gaps) :
    (front ++ part ++ t).gaps? front.byteLength (⟨front.byteLength, part.byteLength⟩ :: spans) =
      some ([] :: gaps) := by
  have hslice : (front ++ part ++ t).slice? front.byteLength front.byteLength = some [] :=
    slice?_eq_some_iff.mpr ⟨front, part ++ t, by simp, rfl, by simp⟩
  simp only [gaps?, Span.stop, hslice, h, Option.bind_some, Option.map_some]

/-- The first gap grows by the text that is put before it. -/
theorem gaps?_append {gap : Text}
    (h : (front ++ part ++ t).gaps? (front.byteLength + part.byteLength) spans =
      some (gap :: gaps)) :
    (front ++ part ++ t).gaps? front.byteLength spans = some ((part ++ gap) :: gaps) := by
  have hslice {stop : Nat}
      (hgap : (front ++ part ++ t).slice? (front.byteLength + part.byteLength) stop = some gap) :
      (front ++ part ++ t).slice? front.byteLength stop = some (part ++ gap) := by
    obtain ⟨a, b, heq, hlength, hstop⟩ := slice?_eq_some_iff.mp hgap
    rw [← byteLength_append] at hlength
    obtain ⟨rfl, -⟩ := append_inj_of_byteLength_eq (heq.trans (List.append_assoc ..)) hlength.symm
    exact slice?_eq_some_iff.mpr ⟨front, b, by rw [heq]; simp, rfl, by rw [← hstop]; simp⟩
  cases spans with
  | nil =>
    obtain ⟨g, hgap, heq⟩ := Option.map_eq_some_iff.mp h
    obtain ⟨rfl, rfl⟩ := List.cons.inj heq
    simp only [gaps?, hslice hgap, Option.map_some]
  | cons s spans =>
    obtain ⟨g, hgap, hrest⟩ := Option.bind_eq_some_iff.mp h
    obtain ⟨others, hothers, heq⟩ := Option.map_eq_some_iff.mp hrest
    obtain ⟨rfl, rfl⟩ := List.cons.inj heq
    simp only [gaps?, hslice hgap, hothers, Option.bind_some, Option.map_some]

theorem gaps?_append_cons {gap : Text}
    (h : (front ++ gap ++ part ++ t).gaps? (front ++ gap ++ part).byteLength spans = some gaps) :
    (front ++ gap ++ part ++ t).gaps? front.byteLength
        (⟨(front ++ gap).byteLength, part.byteLength⟩ :: spans) = some (gap :: gaps) := by
  rw [byteLength_append _ part] at h
  have hcons := gaps?_cons h
  rw [List.append_assoc, byteLength_append front gap] at hcons ⊢
  simpa using gaps?_append hcons

/-- A span behind a gap, before text that the next gap starts with. -/
theorem gaps?_append_cons_append {left right gap : Text}
    (h : (front ++ left ++ part ++ right ++ t).gaps? (front ++ left ++ part ++ right).byteLength
      spans = some (gap :: gaps)) :
    (front ++ left ++ part ++ right ++ t).gaps? front.byteLength
        (⟨(front ++ left).byteLength, part.byteLength⟩ :: spans) =
      some (left :: (right ++ gap) :: gaps) := by
  rw [byteLength_append _ right] at h
  have happend := gaps?_append h
  rw [List.append_assoc _ right] at happend ⊢
  exact gaps?_append_cons happend

/-! ### Spans that leave gaps -/

theorem le_of_slice?_eq_some {start stop : Nat} (h : t.slice? start stop = some part) :
    start ≤ stop := by
  obtain ⟨a, b, -, rfl, rfl⟩ := slice?_eq_some_iff.mp h
  simp

/-- Spans that leave gaps are in order and do not overlap. -/
theorem pairwise_of_gaps? {start : Nat} (h : t.gaps? start spans = some gaps) :
    (∀ s ∈ spans, start ≤ s.start) ∧ spans.Pairwise (fun s u => s.stop ≤ u.start) := by
  induction spans generalizing start gaps with
  | nil => exact ⟨by simp, .nil⟩
  | cons s spans ih =>
    obtain ⟨gap, hgap, hrest⟩ := Option.bind_eq_some_iff.mp h
    obtain ⟨others, hothers, -⟩ := Option.map_eq_some_iff.mp hrest
    obtain ⟨hle, hpairwise⟩ := ih hothers
    have hstart : start ≤ s.start := le_of_slice?_eq_some hgap
    have hstop : s.start ≤ s.stop := Nat.le_add_right _ _
    refine ⟨List.forall_mem_cons.mpr ⟨hstart, fun u hu => ?_⟩,
      List.pairwise_cons.mpr ⟨hle, hpairwise⟩⟩
    exact Nat.le_trans (Nat.le_trans hstart hstop) (hle u hu)

end Text

end PipeLint
