import PipeLint.Token.Lexeme

/-!
# Sets of flag letters

The letters that a group of flags may use without a warning. A set is kept as a list in strictly
rising order, so that two sets with the same letters are equal. A set may hold any character,
although only ASCII letters and digits can stand in a group of flags; `FlagSet.ofLetters?` refuses
the others.

## Main definitions

* `PipeLint.FlagSet`: a set of letters, with membership, `insert` and `ofList`.
* `PipeLint.FlagSet.standard`: the letters supported by default.
* `PipeLint.FlagSet.ofLetters?`: the set of given letters, if all of them can stand in a group.

## Main results

* `PipeLint.FlagSet.mem_insert`, `PipeLint.FlagSet.mem_ofList`: what the operations put into a set.
* `PipeLint.FlagSet.ext`: sets with the same letters are equal.
-/

namespace PipeLint

/-- A set of letters. -/
structure FlagSet where
  /-- The letters, in rising order. -/
  letters : List Char
  /-- The order is strict, so no letter occurs twice. -/
  sorted_letters : letters.Pairwise (· < ·)
deriving DecidableEq

namespace FlagSet

instance : Membership Char FlagSet where
  mem s c := c ∈ s.letters

instance (c : Char) (s : FlagSet) : Decidable (c ∈ s) :=
  inferInstanceAs (Decidable (c ∈ s.letters))

instance : EmptyCollection FlagSet where
  emptyCollection := ⟨[], .nil⟩

@[simp]
theorem notMem_empty (c : Char) : c ∉ (∅ : FlagSet) :=
  List.not_mem_nil

/-! ### Insertion -/

/-- A list in rising order with one more letter, which is put into its place. -/
def insertLetter (c : Char) : List Char → List Char
  | [] => [c]
  | d :: l => if c < d then c :: d :: l else if c = d then d :: l else d :: insertLetter c l

theorem mem_insertLetter {c x : Char} {l : List Char} :
    x ∈ insertLetter c l ↔ x = c ∨ x ∈ l := by
  induction l with
  | nil => simp [insertLetter]
  | cons d l ih =>
    simp only [insertLetter]
    split
    · simp
    split
    · rename_i h
      simp [h]
    · simp only [List.mem_cons, ih]
      exact or_left_comm

theorem pairwise_insertLetter {c : Char} {l : List Char} (h : l.Pairwise (· < ·)) :
    (insertLetter c l).Pairwise (· < ·) := by
  induction l with
  | nil => simp [insertLetter]
  | cons d l ih =>
    obtain ⟨hd, hl⟩ := List.pairwise_cons.mp h
    simp only [insertLetter]
    split
    · rename_i hlt
      refine List.pairwise_cons.mpr ⟨fun x hx => ?_, h⟩
      rcases List.mem_cons.mp hx with rfl | hx
      · exact hlt
      · exact Char.lt_trans hlt (hd x hx)
    split
    · exact h
    · rename_i hlt hne
      refine List.pairwise_cons.mpr ⟨fun x hx => ?_, ih hl⟩
      rcases mem_insertLetter.mp hx with rfl | hx
      · exact Char.not_le.mp fun hle => hne (Char.le_antisymm hle (Char.not_lt.mp hlt))
      · exact hd x hx

/-- A set with one more letter. -/
def insert (s : FlagSet) (c : Char) : FlagSet :=
  ⟨insertLetter c s.letters, pairwise_insertLetter s.sorted_letters⟩

@[simp]
theorem mem_insert {s : FlagSet} {c x : Char} : x ∈ s.insert c ↔ x = c ∨ x ∈ s :=
  mem_insertLetter

/-- The set of the letters of a text. -/
def ofList (letters : Text) : FlagSet :=
  letters.foldl insert ∅

private theorem mem_foldl_insert {s : FlagSet} {letters : Text} {x : Char} :
    x ∈ letters.foldl insert s ↔ x ∈ s ∨ x ∈ letters := by
  induction letters generalizing s with
  | nil => simp
  | cons c letters ih => simp [ih, or_assoc, or_left_comm]

@[simp]
theorem mem_ofList {letters : Text} {x : Char} : x ∈ ofList letters ↔ x ∈ letters := by
  simp [ofList, mem_foldl_insert]

/-! ### Equality -/

private theorem eq_of_mem_iff {l m : List Char} (hl : l.Pairwise (· < ·))
    (hm : m.Pairwise (· < ·)) (h : ∀ c, c ∈ l ↔ c ∈ m) : l = m := by
  induction l generalizing m with
  | nil =>
    cases m with
    | nil => rfl
    | cons d m => exact absurd ((h d).mpr List.mem_cons_self) List.not_mem_nil
  | cons c l ih =>
    cases m with
    | nil => exact absurd ((h c).mp List.mem_cons_self) List.not_mem_nil
    | cons d m =>
      obtain ⟨hc, hl'⟩ := List.pairwise_cons.mp hl
      obtain ⟨hd, hm'⟩ := List.pairwise_cons.mp hm
      -- the first letters agree, since each is the least of the same set
      have hcd : c = d := by
        rcases List.mem_cons.mp ((h c).mp List.mem_cons_self) with rfl | hcm
        · rfl
        rcases List.mem_cons.mp ((h d).mpr List.mem_cons_self) with rfl | hdl
        · rfl
        · exact absurd (Char.lt_trans (hc d hdl) (hd c hcm)) (Char.lt_irrefl c)
      subst hcd
      have htail : ∀ x, x ∈ l ↔ x ∈ m := fun x => by
        constructor
        · intro hx
          rcases List.mem_cons.mp ((h x).mp (List.mem_cons_of_mem _ hx)) with rfl | hxm
          · exact absurd (hc x hx) (Char.lt_irrefl x)
          · exact hxm
        · intro hx
          rcases List.mem_cons.mp ((h x).mpr (List.mem_cons_of_mem _ hx)) with rfl | hxl
          · exact absurd (hd x hx) (Char.lt_irrefl x)
          · exact hxl
      rw [ih hl' hm' htail]

/-- Sets with the same letters are equal. -/
@[ext]
theorem ext {s t : FlagSet} (h : ∀ c, c ∈ s ↔ c ∈ t) : s = t := by
  obtain ⟨l, hl⟩ := s
  obtain ⟨m, hm⟩ := t
  obtain rfl := eq_of_mem_iff hl hm h
  rfl

/-! ### The sets in use -/

/-- The letters supported by default. -/
def standard : FlagSet :=
  ofList "ivEewxcnHh".toList

instance : Inhabited FlagSet where
  default := standard

/-- The set of the letters of a text, or the first of them that can never stand in a group of
flags. -/
def ofLetters? (letters : Text) : Except Char FlagSet :=
  match letters.find? (!isFlagLetter ·) with
  | some c => .error c
  | none => .ok (ofList letters)

end FlagSet

end PipeLint
