import PipeLint.Json.Parser
import PipeLint.Json.Printer
import PipeLint.Proofs.Json.Token

/-!
# The tokens of a value are read as this value

The tokens of a value take the reader from a place where a value starts to the place after this
value, in whatever containers it stands.

## Main definitions

* `PipeLint.Json.IsRead`: the tokens of a value are read as this value.
* `PipeLint.Json.WellFormed`: values whose numbers are written as numbers.

## Main results

* `PipeLint.Json.induction`: induction over the parts of a value.
* `PipeLint.Json.isRead`: the tokens of every value are read as this value.
* `PipeLint.Json.separated_tokens`: no two numbers stand side by side among the tokens of a value.
* `PipeLint.Json.forall_mem_tokens_array_iff`, `PipeLint.Json.forall_mem_tokens_object_iff`: what
  the tokens of a container are.
* `PipeLint.Json.lineFeed_notMem_compact`: no line feed stands in a written value.
-/

namespace PipeLint.Json

/-- Induction over the parts of a value: what holds of a container if it holds of all values in it
holds of every value. -/
@[elab_as_elim]
theorem induction {motive : Json → Prop} (null : motive .null) (bool : ∀ b, motive (.bool b))
    (number : ∀ literal, motive (.number literal)) (string : ∀ text?, motive (.string text?))
    (array : ∀ items, (∀ v ∈ items, motive v) → motive (.array items))
    (object : ∀ members, (∀ m ∈ members, motive m.2) → motive (.object members)) (v : Json) :
    motive v :=
  @Json.rec motive (fun items => ∀ v ∈ items, motive v)
    (fun members => ∀ m ∈ members, motive m.2) (fun m => motive m.2)
    null bool number string array object
    (fun _ h => absurd h List.not_mem_nil)
    (fun _ _ hv hitems => List.forall_mem_cons.mpr ⟨hv, hitems⟩)
    (fun _ h => absurd h List.not_mem_nil)
    (fun _ _ hm hmembers => List.forall_mem_cons.mpr ⟨hm, hmembers⟩)
    (fun _ _ hv => hv) v

/-! ### Reading tokens -/

open State

/-- The tokens of a value are read as this value, in all containers and whatever follows. -/
def IsRead (v : Json) : Prop :=
  ∀ frames later,
    (v.tokens ++ later).foldlM step (.value frames) = later.foldlM step (.after frames v)

/-- A value can be the first item of an array. -/
theorem foldlM_tokens_firstItem (v : Json) (frames : List Frame) (later : List Token) :
    (v.tokens ++ later).foldlM step (.firstItem frames) =
      (v.tokens ++ later).foldlM step (.value (.array [] :: frames)) := by
  cases v <;> rfl

variable (frames : List Frame) (later : List Token)

/-- After an item of an array, the items behind it are read, and the end of the array. -/
theorem foldlM_laterItemTokens {items : List Json} (hitems : ∀ v ∈ items, v.IsRead)
    (earlier : List Json) (v : Json) :
    (laterItemTokens items ++ .closeBracket :: later).foldlM step
        (.after (.array earlier :: frames) v) =
      later.foldlM step (.after frames (.array (earlier.reverse ++ v :: items))) := by
  induction items generalizing earlier v with
  | nil =>
    rw [← List.reverse_cons]
    rfl
  | cons w items ih =>
    obtain ⟨hw, hitems⟩ := List.forall_mem_cons.mp hitems
    have hcut : laterItemTokens (w :: items) ++ .closeBracket :: later =
        .comma :: (w.tokens ++ (laterItemTokens items ++ .closeBracket :: later)) := by
      simp [laterItemTokens]
    have hstep : step (.after (.array earlier :: frames) v) .comma =
        some (.value (.array (v :: earlier) :: frames)) := rfl
    rw [hcut, List.foldlM_cons, hstep, Option.bind_eq_bind, Option.bind_some, hw, ih hitems]
    simp

/-- After a member of an object, the members behind it are read, and the end of the object. -/
theorem foldlM_laterMemberTokens {members : List (Option Text × Json)}
    (hmembers : ∀ m ∈ members, m.2.IsRead) (earlier : List (Option Text × Json))
    (name? : Option Text) (v : Json) :
    (laterMemberTokens members ++ .closeBrace :: later).foldlM step
        (.after (.object earlier name? :: frames) v) =
      later.foldlM step (.after frames (.object (earlier.reverse ++ (name?, v) :: members))) := by
  induction members generalizing earlier name? v with
  | nil =>
    rw [← List.reverse_cons]
    rfl
  | cons m members ih =>
    obtain ⟨nextName?, w⟩ := m
    obtain ⟨hw, hmembers⟩ := List.forall_mem_cons.mp hmembers
    have hcut : laterMemberTokens ((nextName?, w) :: members) ++ .closeBrace :: later =
        .comma :: .string nextName? :: .colon ::
          (w.tokens ++ (laterMemberTokens members ++ .closeBrace :: later)) := by
      simp [laterMemberTokens]
    have hsteps : ∀ tokens, (.comma :: .string nextName? :: .colon :: tokens).foldlM step
        (.after (.object earlier name? :: frames) v) =
        tokens.foldlM step (.value (.object ((name?, v) :: earlier) nextName? :: frames)) :=
      fun tokens => rfl
    rw [hcut, hsteps, hw, ih hmembers]
    simp

/-- **The tokens of a value are read as this value.** -/
theorem isRead (v : Json) : v.IsRead := by
  induction v using Json.induction with
  | null | bool b | number literal | string text? => exact fun frames later => rfl
  | array items ih =>
    intro frames later
    cases items with
    | nil => rfl
    | cons v items =>
      obtain ⟨hv, hitems⟩ := List.forall_mem_cons.mp ih
      have hcut : (array (v :: items)).tokens ++ later =
          .openBracket :: (v.tokens ++ (laterItemTokens items ++ .closeBracket :: later)) := by
        simp [tokens, itemTokens]
      have hstep : step (.value frames) .openBracket = some (.firstItem frames) := rfl
      rw [hcut, List.foldlM_cons, hstep, Option.bind_eq_bind, Option.bind_some,
        foldlM_tokens_firstItem, hv, foldlM_laterItemTokens frames later hitems]
      rfl
  | object members ih =>
    intro frames later
    cases members with
    | nil => rfl
    | cons m members =>
      obtain ⟨name?, v⟩ := m
      obtain ⟨hv, hmembers⟩ := List.forall_mem_cons.mp ih
      have hcut : (object ((name?, v) :: members)).tokens ++ later =
          .openBrace :: .string name? :: .colon ::
            (v.tokens ++ (laterMemberTokens members ++ .closeBrace :: later)) := by
        simp [tokens, memberTokens]
      have hsteps : ∀ tokens, (.openBrace :: .string name? :: .colon :: tokens).foldlM step
          (.value frames) = tokens.foldlM step (.value (.object [] name? :: frames)) :=
        fun tokens => rfl
      rw [hcut, hsteps, hv, foldlM_laterMemberTokens frames later hmembers]
      rfl

theorem ofTokens?_tokens (v : Json) : ofTokens? v.tokens = some v := by
  have hread := v.isRead [] []
  rw [List.append_nil] at hread
  rw [ofTokens?, hread]
  rfl

/-! ### The tokens of a value -/

namespace Token

theorem separated_append_cons {front behind : List Token} {token : Token}
    (htoken : token.isNumber = false) (hfront : Separated front) (hbehind : Separated behind) :
    Separated (front ++ token :: behind) := by
  refine List.isChain_append.mpr ⟨hfront, List.isChain_cons.mpr ⟨fun next _ hnumber => ?_, hbehind⟩,
    fun last _ next hnext _ => ?_⟩
  · rw [htoken] at hnumber
    contradiction
  · obtain rfl := Option.mem_some_iff.mp hnext
    exact htoken

theorem separated_cons {behind : List Token} {token : Token} (htoken : token.isNumber = false)
    (hbehind : Separated behind) : Separated (token :: behind) :=
  separated_append_cons htoken List.IsChain.nil hbehind

end Token

open Token

theorem separated_append_laterItemTokens {items : List Json}
    (hitems : ∀ v ∈ items, Separated v.tokens) {front : List Token} (hfront : Separated front) :
    Separated (front ++ (laterItemTokens items ++ [.closeBracket])) := by
  induction items generalizing front with
  | nil => exact separated_append_cons rfl hfront List.IsChain.nil
  | cons v items ih =>
    obtain ⟨hv, hitems⟩ := List.forall_mem_cons.mp hitems
    rw [laterItemTokens, List.cons_append, List.cons_append, List.append_assoc]
    exact separated_append_cons rfl hfront (ih hitems hv)

theorem separated_append_laterMemberTokens {members : List (Option Text × Json)}
    (hmembers : ∀ m ∈ members, Separated m.2.tokens) {front : List Token}
    (hfront : Separated front) :
    Separated (front ++ (laterMemberTokens members ++ [.closeBrace])) := by
  induction members generalizing front with
  | nil => exact separated_append_cons rfl hfront List.IsChain.nil
  | cons m members ih =>
    obtain ⟨name?, v⟩ := m
    obtain ⟨hv, hmembers⟩ := List.forall_mem_cons.mp hmembers
    simp only [laterMemberTokens, List.cons_append, List.append_assoc]
    exact separated_append_cons rfl hfront
      (separated_cons rfl (separated_cons rfl (ih hmembers hv)))

/-- No two numbers stand side by side among the tokens of a value. -/
theorem separated_tokens (v : Json) : Separated v.tokens := by
  induction v using Json.induction with
  | null | bool b | number literal | string text? => exact List.IsChain.singleton _
  | array items ih =>
    cases items with
    | nil => exact separated_cons rfl (List.IsChain.singleton _)
    | cons v items =>
      obtain ⟨hv, hitems⟩ := List.forall_mem_cons.mp ih
      simp only [tokens, itemTokens, List.cons_append, List.append_assoc]
      exact separated_cons rfl (separated_append_laterItemTokens hitems hv)
  | object members ih =>
    cases members with
    | nil => exact separated_cons rfl (List.IsChain.singleton _)
    | cons m members =>
      obtain ⟨name?, v⟩ := m
      obtain ⟨hv, hmembers⟩ := List.forall_mem_cons.mp ih
      simp only [tokens, memberTokens, List.cons_append, List.append_assoc]
      exact separated_cons rfl (separated_cons rfl (separated_cons rfl
        (separated_append_laterMemberTokens hmembers hv)))

/-! ### Tokens of values -/

section

variable {p : Token → Prop}

theorem forall_mem_laterItemTokens_iff (hcomma : p .comma) (items : List Json) :
    (∀ token ∈ laterItemTokens items, p token) ↔ ∀ v ∈ items, ∀ token ∈ v.tokens, p token := by
  induction items with
  | nil => simp [laterItemTokens]
  | cons v items ih =>
    rw [laterItemTokens, List.cons_append, List.forall_mem_cons, List.forall_mem_append,
      List.forall_mem_cons, ih, and_iff_right hcomma]

theorem forall_mem_laterMemberTokens_iff (hcomma : p .comma) (hcolon : p .colon)
    (members : List (Option Text × Json)) :
    (∀ token ∈ laterMemberTokens members, p token) ↔
      ∀ m ∈ members, p (.string m.1) ∧ ∀ token ∈ m.2.tokens, p token := by
  induction members with
  | nil => simp [laterMemberTokens]
  | cons m members ih =>
    rw [laterMemberTokens, List.cons_append, List.forall_mem_cons, List.cons_append,
      List.forall_mem_cons, List.cons_append, List.forall_mem_cons, List.forall_mem_append,
      List.forall_mem_cons, ih, and_iff_right hcomma, and_iff_right hcolon, and_assoc]

/-- The tokens of an array are those of its items, between brackets and commas. -/
theorem forall_mem_tokens_array_iff (hopen : p .openBracket) (hclose : p .closeBracket)
    (hcomma : p .comma) (items : List Json) :
    (∀ token ∈ (array items).tokens, p token) ↔ ∀ v ∈ items, ∀ token ∈ v.tokens, p token := by
  rw [tokens, List.cons_append, List.forall_mem_cons, List.forall_mem_append,
    List.forall_mem_singleton, and_iff_right hopen, and_iff_left hclose]
  cases items with
  | nil => simp [itemTokens]
  | cons v items =>
    rw [itemTokens, List.forall_mem_append, List.forall_mem_cons,
      forall_mem_laterItemTokens_iff hcomma]

/-- The tokens of an object are the names and those of the values of its members, between braces,
colons and commas. -/
theorem forall_mem_tokens_object_iff (hopen : p .openBrace) (hclose : p .closeBrace)
    (hcomma : p .comma) (hcolon : p .colon) (members : List (Option Text × Json)) :
    (∀ token ∈ (object members).tokens, p token) ↔
      ∀ m ∈ members, p (.string m.1) ∧ ∀ token ∈ m.2.tokens, p token := by
  rw [tokens, List.cons_append, List.forall_mem_cons, List.forall_mem_append,
    List.forall_mem_singleton, and_iff_right hopen, and_iff_left hclose]
  cases members with
  | nil => simp [memberTokens]
  | cons m members =>
    rw [memberTokens, List.cons_append, List.forall_mem_cons, List.cons_append,
      List.forall_mem_cons, List.forall_mem_append, List.forall_mem_cons,
      forall_mem_laterMemberTokens_iff hcomma hcolon, and_iff_right hcolon, and_assoc]

end

/-! ### Well-formed values -/

/-- A value is well formed if the literals of its numbers are numbers. -/
def WellFormed (v : Json) : Prop :=
  ∀ token ∈ v.tokens, token.WellFormed

@[simp]
theorem wellFormed_null : null.WellFormed :=
  List.forall_mem_singleton.mpr trivial

@[simp]
theorem wellFormed_bool (b : Bool) : (bool b).WellFormed :=
  List.forall_mem_singleton.mpr trivial

@[simp]
theorem wellFormed_string (text? : Option Text) : (string text?).WellFormed :=
  List.forall_mem_singleton.mpr trivial

@[simp]
theorem wellFormed_number_iff (literal : Text) :
    (number literal).WellFormed ↔ isNumber literal = true :=
  List.forall_mem_singleton

@[simp]
theorem wellFormed_array_iff (items : List Json) :
    (array items).WellFormed ↔ ∀ v ∈ items, v.WellFormed :=
  forall_mem_tokens_array_iff trivial trivial trivial items

@[simp]
theorem wellFormed_object_iff (members : List (Option Text × Json)) :
    (object members).WellFormed ↔ ∀ m ∈ members, m.2.WellFormed :=
  (forall_mem_tokens_object_iff trivial trivial trivial trivial members).trans
    (forall₂_congr fun _ _ => and_iff_right trivial)

/-- No line feed stands in a written value. -/
theorem lineFeed_notMem_compact {v : Json} (h : v.WellFormed) : '\n' ∉ v.compact := by
  intro hmem
  obtain ⟨token, htoken, hmem⟩ := List.mem_flatMap.mp hmem
  exact lineFeed_notMem_text (h token htoken) hmem

end PipeLint.Json
