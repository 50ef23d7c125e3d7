import Mathlib.Data.List.Forall2
import SampleTypes.Model.Validation
import SampleTypes.Proofs.Assoc.Bindings

/-!
# Checking, one attribute at a time

Problems are collected from all attributes, so checks are put together by `both` and not by a bind.
A check of several things succeeds exactly if each of them does, and then it has the values of all
of them in order. With this an instance can be taken apart into its attributes and put together
again, and no later proof looks at how problems are collected.

An attribute that succeeds has its value from one member of the object, or it is missing.

## Main results

* `checkItems_eq_ok`, `checkAttributes_eq_ok`: lists and instances, item by item.
* `value_of_checkAttribute`: where the value of an attribute comes from.
* `checkAttribute_of_wire`, `checkAttribute_of_missing`: the two ways to a value that no other
  member can disturb.
* `checkValue_reference_eq_ok`: what is accepted as an instance.
-/

namespace SampleTypes

open Json (Value Members)

namespace Datum

variable {names : DumpNames}

theorem dumpItems_eq (items : List Datum) : dumpItems names items = items.map (dump names) := by
  induction items with
  | nil => rfl
  | cons item rest ih => rw [dumpItems, ih, List.map_cons]

theorem dumpAttributes_eq (attributes : List (String × String × Datum)) :
    dumpAttributes .wire attributes =
      attributes.map fun filled => (filled.1, filled.2.2.dump .wire) := by
  induction attributes with
  | nil => rfl
  | cons filled rest ih =>
    rcases filled with ⟨wireName, attributeName, datum⟩
    rw [dumpAttributes, ih, List.map_cons]

end Datum

namespace Validation

variable {models : Models} {members : Members} {checked : List (String × Checker)}
  {field : ModelField} {fields : List ModelField} {datum : Datum} {step : Step}

/-! ## Several checks -/

theorem both_eq_ok {α β γ : Type} {combine : α → β → γ} {x : Except (List Problem) α}
    {y : Except (List Problem) β} {c : γ} :
    both combine x y = .ok c ↔ ∃ a b, x = .ok a ∧ y = .ok b ∧ combine a b = c := by
  cases x <;> cases y <;> simp [both]

/-- Where a problem is seen from does not change what is accepted. -/
theorem under_eq_ok {outcome : Outcome} : under step outcome = .ok datum ↔ outcome = .ok datum := by
  cases outcome <;> simp [under]

theorem map_eq_ok {α : Type} {f : α → Datum} {outcome : Except (List Problem) α} :
    outcome.map f = .ok datum ↔ ∃ a, outcome = .ok a ∧ f a = datum := by
  cases outcome <;> simp [Except.map]

/-- **A list is accepted item by item.** -/
theorem checkItems_eq_ok {item : Value → Outcome} {values : List Value} {data : List Datum}
    (index : Nat) :
    checkItems item index values = .ok data ↔
      List.Forall₂ (fun value datum => item value = .ok datum) values data := by
  induction values generalizing index data with
  | nil => cases data <;> simp [checkItems]
  | cons value rest ih =>
    rw [checkItems, both_eq_ok]
    constructor
    · rintro ⟨first, others, hfirst, hrest, rfl⟩
      exact .cons (under_eq_ok.1 hfirst) ((ih _).1 hrest)
    · intro h
      cases h with
      | cons hfirst hrest => exact ⟨_, _, under_eq_ok.2 hfirst, (ih _).2 hrest, rfl⟩

/-- What an instance keeps for a field: its names and the value that was found for it. -/
structure Fills (checked : List (String × Checker)) (field : ModelField)
    (filled : String × String × Datum) : Prop where
  wireName : filled.1 = field.wireName
  attributeName : filled.2.1 = field.attributeName
  datum : checkAttribute checked field = .ok filled.2.2

/-- **An instance is accepted attribute by attribute.** -/
theorem checkAttributes_eq_ok {attributes : List (String × String × Datum)} :
    checkAttributes checked fields = .ok attributes ↔
      List.Forall₂ (Fills checked) fields attributes := by
  induction fields generalizing attributes with
  | nil => cases attributes <;> simp [checkAttributes]
  | cons field rest ih =>
    rw [checkAttributes, both_eq_ok]
    constructor
    · rintro ⟨datum, others, hdatum, hrest, rfl⟩
      exact .cons ⟨rfl, rfl, hdatum⟩ (ih.1 hrest)
    · intro h
      cases h with
      | cons hfirst hrest =>
        refine ⟨_, _, hfirst.datum, ih.2 hrest, ?_⟩
        rw [← hfirst.wireName, ← hfirst.attributeName]

/-- Attributes that have their values one by one have them as an instance, and the instance has the
members of its dump from them. -/
theorem exists_attributes {α : Type} {items : List α} {fieldOf : α → ModelField}
    {documentOf : α → Value}
    (h : ∀ item ∈ items, ∃ datum, checkAttribute checked (fieldOf item) = .ok datum ∧
      datum.dump .wire = documentOf item) :
    ∃ attributes, checkAttributes checked (items.map fieldOf) = .ok attributes ∧
      Datum.dumpAttributes .wire attributes =
        items.map fun item => ((fieldOf item).wireName, documentOf item) := by
  induction items with
  | nil => exact ⟨[], rfl, rfl⟩
  | cons item rest ih =>
    obtain ⟨datum, hdatum, hdump⟩ := h item List.mem_cons_self
    obtain ⟨attributes, hrest, hdumps⟩ :=
      ih fun other hother => h other (List.mem_cons_of_mem _ hother)
    refine ⟨((fieldOf item).wireName, (fieldOf item).attributeName, datum) :: attributes, ?_, ?_⟩
    · rw [List.map_cons, checkAttributes, hdatum, hrest]
      rfl
    · rw [Datum.dumpAttributes, hdump, hdumps, List.map_cons]

/-! ## One attribute -/

theorem checkers_eq (models : Models) (members : Members) :
    checkers models members = members.map fun member =>
      (member.1, checkValue models member.2) := by
  induction members with
  | nil => rfl
  | cons member rest ih => rw [checkers, ih, List.map_cons]

theorem get?_checkers (models : Models) (members : Members) (key : String) :
    Assoc.get? key (checkers models members) =
      (Assoc.get? key members).map (checkValue models) := by
  rw [checkers_eq]
  exact Assoc.get?_map (fun _ value => checkValue models value) key members

/-- **Where the value of an attribute comes from**: from a member of the object, unless it is
missing. -/
theorem value_of_checkAttribute
    (h : checkAttribute (checkers models members) field = .ok datum) :
    (∃ member ∈ members, checkValue models member.2 field.type = .ok datum) ∨
      datum = missing field.default := by
  have hmember : ∀ {key checker}, Assoc.get? key (checkers models members) = some checker →
      under (.name field.wireName) (checker field.type) = .ok datum →
      ∃ member ∈ members, checkValue models member.2 field.type = .ok datum := by
    intro key checker hget hchecked
    rw [get?_checkers] at hget
    obtain ⟨value, hvalue, rfl⟩ := Option.map_eq_some_iff.1 hget
    exact ⟨(key, value), Assoc.mem_of_get? hvalue, under_eq_ok.1 hchecked⟩
  unfold checkAttribute at h
  split at h
  case h_1 checker hwire => exact Or.inl (hmember hwire h)
  split at h
  case h_1 checker hown => exact Or.inl (hmember hown h)
  exact Or.inr (Except.ok.inj h).symm

/-- The member under the name on the wire comes before all others. -/
theorem checkAttribute_of_wire {value : Value} (hget : Assoc.get? field.wireName members = some value)
    (hvalue : checkValue models value field.type = .ok datum) :
    checkAttribute (checkers models members) field = .ok datum := by
  unfold checkAttribute
  rw [get?_checkers, hget, Option.map_some]
  exact under_eq_ok.2 hvalue

/-- Without a member under either name an attribute takes its default. -/
theorem checkAttribute_of_missing (hwire : field.wireName ∉ Assoc.keys members)
    (hown : field.attributeName ∉ Assoc.keys members) :
    checkAttribute (checkers models members) field = .ok (missing field.default) := by
  unfold checkAttribute
  rw [get?_checkers, get?_checkers, Assoc.get?_eq_none.2 hwire, Assoc.get?_eq_none.2 hown]
  rfl

/-! ## One value -/

/-- A type that names no class has a check of its own. -/
theorem checkValue_plain (models : Models) :
    (checkValue models · .text) = checkText ∧ (checkValue models · .number) = checkNumber ∧
      (checkValue models · .flag) = checkFlag ∧
      (checkValue models · .texts) = checkList checkText ∧
      (checkValue models · .numbers) = checkList checkNumber := by
  refine ⟨?_, ?_, ?_, ?_, ?_⟩ <;> funext value <;> cases value <;> rfl

/-- Only an object is accepted as an instance, and null in its place. -/
theorem checkValue_reference_eq_ok {value : Value} {type : FieldType} {className : String}
    (htype : type = .model className ∨ type = .forward className) :
    checkValue models value type = .ok datum ↔
      (value = .null ∧ datum = .nothing) ∨
        ∃ members, value = .object members ∧
          checkInstance models className (checkers models members) = .ok datum := by
  rcases htype with rfl | rfl <;> cases value <;> simp [checkValue, refuse, eq_comm]

end Validation

end SampleTypes
