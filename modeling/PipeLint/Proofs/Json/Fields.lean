import Mathlib.Data.List.Nodup
import PipeLint.Proofs.Json.Token
import PipeLint.Proofs.List.MapM

/-!
# Fields of records

A record is written as an object with a member for each field, among others whose names are not
those of fields, or as an array. A field is found in an object by its name, which only one member
has; without such a member, or with two of them, the object is no record.

## Main definitions

* `PipeLint.Json.RecordForm`: what a record can be written as.
* `PipeLint.Json.Misfit`: the objects and arrays that are no record with the given names.

## Main results

* `PipeLint.Json.toNat?_decimal`: a number is read from its decimal numeral.
* `PipeLint.Json.fields?_of_recordForm`: the fields of a record, whatever it is written as.
* `PipeLint.Json.fields?_eq_none_of_misfit`: what is no record has no fields.
-/

namespace PipeLint

namespace Json

/-- A number that fits a 64-bit word is read from its decimal numeral. -/
theorem toNat?_decimal {n : Nat} (h : n < wordLimit) :
    toNat? (number (Text.decimal n)) = some n := by
  have hdigits : (Text.decimal n).all Char.isDigit = true :=
    List.all_eq_true.mpr fun _ => isDigit_of_mem_decimal
  have hvalue : Nat.ofDigitChars 10 (Text.decimal n) 0 = n := Nat.ofDigitChars_ten_toDigits
  rw [toNat?, hvalue, if_pos ⟨hdigits, h⟩]

/-! ### Records -/

/-- The values that a record can be written as, given the names and the values of its fields: an
array of the values in the order of the names, or an object that has a member for each field, in any
order, and any members with other names among them. -/
inductive RecordForm (names : List Text) (values : List Json) : Json → Prop
  | array : RecordForm names values (.array values)
  | object {members others : List (Option Text × Json)}
      (hmembers : members.Perm (List.zip (names.map some) values ++ others))
      (hothers : ∀ m ∈ others, ∃ name, m.1 = some name ∧ name ∉ names) :
      RecordForm names values (.object members)

theorem RecordForm.zip {names : List Text} {values : List Json} :
    RecordForm names values (.object (List.zip (names.map some) values)) :=
  @RecordForm.object names values _ [] (by rw [List.append_nil])
    fun _ h => absurd h List.not_mem_nil

/-- The objects and arrays that are no record with the given names: a member is missing or stands
twice, or the array has another length. -/
inductive Misfit (names : List Text) : Json → Prop
  | missing {members : List (Option Text × Json)} {name : Text} (hname : name ∈ names)
      (h : ∀ m ∈ members, m.1 ≠ some name) : Misfit names (.object members)
  | repeated {front middle back : List (Option Text × Json)} {name : Text} {v w : Json}
      (hname : name ∈ names) :
      Misfit names (.object (front ++ (some name, v) :: (middle ++ (some name, w) :: back)))
  | length {items : List Json} (h : items.length ≠ names.length) : Misfit names (.array items)

/-- If no two members have the same name, then the only member with the name of a member is this
member. -/
theorem filter_fst_eq_of_mem {members : List (Option Text × Json)}
    (hnodup : (members.map Prod.fst).Nodup) {name : Text} {v : Json}
    (h : (some name, v) ∈ members) : members.filter (·.1 = some name) = [(some name, v)] := by
  obtain ⟨front, behind, rfl⟩ := List.append_of_mem h
  rw [List.map_append, List.map_cons, List.nodup_middle, ← List.map_append] at hnodup
  have hother : ∀ m ∈ front ++ behind, ¬ decide (m.1 = some name) = true := fun m hm heq =>
    (List.nodup_cons.mp hnodup).1 (List.mem_map.mpr ⟨m, hm, of_decide_eq_true heq⟩)
  obtain ⟨hfront, hbehind⟩ := List.forall_mem_append.mp hother
  rw [List.filter_append, List.filter_cons_of_pos (by simp), List.filter_eq_nil_iff.mpr hfront,
    List.filter_eq_nil_iff.mpr hbehind, List.nil_append]

section Zip

variable {names : List Text} {values : List Json} (hlength : names.length = values.length)

include hlength

theorem map_fst_zip_names : (List.zip (names.map some) values).map Prod.fst = names.map some :=
  List.map_fst_zip (by simp [hlength])

/-- Among other members with unknown names, the member of a field is found by its name, whatever the
order of the members is. -/
theorem member?_of_perm (hnodup : names.Nodup) {members others : List (Option Text × Json)}
    (hmembers : members.Perm (List.zip (names.map some) values ++ others))
    (hothers : ∀ m ∈ others, ∃ name, m.1 = some name ∧ name ∉ names) {name : Text} {v : Json}
    (h : (name, v) ∈ List.zip names values) : member? name members = some v := by
  have hdistinct : ((List.zip (names.map some) values).map Prod.fst).Nodup := by
    rw [map_fst_zip_names hlength]
    exact hnodup.map fun _ _ => Option.some.inj
  have hmem : (some name, v) ∈ List.zip (names.map some) values := by
    rw [List.zip_map_left]
    exact List.mem_map.mpr ⟨(name, v), h, rfl⟩
  have hnone : ∀ m ∈ others, ¬ decide (m.1 = some name) = true := fun m hm heq => by
    obtain ⟨other, hother, hunknown⟩ := hothers m hm
    obtain rfl := Option.some.inj (hother.symm.trans (of_decide_eq_true heq))
    exact hunknown (List.of_mem_zip h).1
  have hfilter := hmembers.filter (·.1 = some name)
  rw [List.filter_append, filter_fst_eq_of_mem hdistinct hmem, List.filter_eq_nil_iff.mpr hnone,
    List.append_nil] at hfilter
  rw [member?, hfilter.eq_singleton]

/-- The fields of a record are found in whatever it is written as. -/
theorem fields?_of_recordForm (hnodup : names.Nodup) {v : Json} (h : RecordForm names values v) :
    v.fields? names = some values := by
  cases h with
  | array => exact if_pos hlength.symm
  | @object members others hmembers hothers =>
    have htext : members.all (·.1.isSome) = true := by
      refine List.all_eq_true.mpr fun m hm => ?_
      rcases List.mem_append.mp (hmembers.mem_iff.mp hm) with hm | hm
      · have hname : m.1 ∈ names.map some := map_fst_zip_names hlength ▸ List.mem_map_of_mem hm
        obtain ⟨name, -, hname⟩ := List.mem_map.mp hname
        rw [← hname]
        rfl
      · obtain ⟨name, hname, -⟩ := hothers m hm
        rw [hname]
        rfl
    have hfind : List.Forall₂ (fun name v => member? name members = some v) names values :=
      List.forall₂_iff_zip.mpr ⟨hlength, fun {name v} hmem =>
        member?_of_perm hlength hnodup hmembers hothers hmem⟩
    rw [fields?, if_pos htext, mapM_eq_some_iff.mpr hfind]

end Zip

theorem eq_of_member?_eq_some {members : List (Option Text × Json)} {name : Text} {v w : Json}
    (h : member? name members = some w) (hmem : (some name, v) ∈ members) : v = w := by
  rw [member?] at h
  split at h
  · rename_i hfilter
    obtain rfl := Option.some.inj h
    have hmem' : (some name, v) ∈ members.filter (·.1 = some name) :=
      List.mem_filter.mpr ⟨hmem, decide_eq_true rfl⟩
    rw [hfilter] at hmem'
    exact (Prod.mk.inj (List.mem_singleton.mp hmem')).2
  · contradiction

/-- The fields that are found in an object are its only members with their names. -/
theorem forall₂_of_fields?_eq_some {names : List Text} {members : List (Option Text × Json)}
    {values : List Json} (h : (object members).fields? names = some values) :
    List.Forall₂ (fun name v => member? name members = some v) names values := by
  rw [fields?] at h
  split at h
  · exact mapM_eq_some_iff.mp h
  · contradiction

/-- A record in which a member is missing or stands twice, or of another length, has no fields. -/
theorem fields?_eq_none_of_misfit {names : List Text} {v : Json} (h : Misfit names v) :
    v.fields? names = none := by
  cases h with
  | @missing members name hname h =>
    have hfilter : members.filter (·.1 = some name) = [] :=
      List.filter_eq_nil_iff.mpr fun m hm heq => h m hm (of_decide_eq_true heq)
    have hmember : member? name members = none := by rw [member?, hfilter]
    rw [fields?, mapM_eq_none_of_mem hname hmember, ite_self]
  | @repeated front middle back name v w hname =>
    have hmember : member? name (front ++ (some name, v) :: (middle ++ (some name, w) :: back)) =
        none := by
      rw [member?]
      split
      · rename_i hfilter
        have hlength := congrArg List.length hfilter
        simp at hlength
        omega
      · rfl
    rw [fields?, mapM_eq_none_of_mem hname hmember, ite_self]
  | length h => exact if_neg h

end Json

end PipeLint
