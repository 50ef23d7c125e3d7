import SampleTypes.Proofs.Ownership.Definitions

/-!
# Where references lead

A definition stands at the address of its object, the root at the empty address. A definition
refers to exactly the hoisted objects that its object owns, and what an object owns lies strictly
inside it. So every reference leads to a definition, and to one that stands deeper.

## Main results

* `definitions_eq_placed`: the definitions of a plan with the addresses they stand at.
* `exists_deeper`: a reference leads to a definition that stands deeper.
-/

namespace SampleTypes

open Json (Value Members)

/-- The types of a plan with their addresses: the hoisted objects, and the root behind them. -/
def placedTypes (discriminator root : String) (document : Members) : List (Address × String) :=
  hoistedTypes discriminator document ++ [([], root)]

/-- The owner that the object at an address is: the root owns what nothing else does. -/
def ownerAt (a : Address) : Option Address :=
  if a = [] then none else some a

/-- The definition of a type that stands at an address. -/
def placedDefinition (discriminator : String) (document : Members) (placed : Address × String) :
    Definition :=
  { name := placed.2
    fields := ownedFields discriminator "$" document (ownerAt placed.1) }

section

variable {discriminator root : String} {document : Members} {field : Field}

theorem ne_nil_of_mem_hoistedTypes {o : Address} {name : String}
    (h : (o, name) ∈ hoistedTypes discriminator document) : o ≠ [] := by
  rintro rfl
  obtain ⟨place, hhoist⟩ := mem_hoistedTypes.1 h
  cases hhoist

/-- **The definitions of a plan** with the addresses they stand at. -/
theorem definitions_eq_placed (discriminator root : String) (document : Members) :
    (planOfMembers discriminator root document).definitions =
      (placedTypes discriminator root document).map (placedDefinition discriminator document) := by
  have hhoisted : (hoistedTypes discriminator document).map
      (ownedDefinition discriminator "$" document) =
        (hoistedTypes discriminator document).map (placedDefinition discriminator document) := by
    refine List.map_congr_left fun hoisted hmem => ?_
    rcases hoisted with ⟨o, name⟩
    simp only [ownedDefinition, placedDefinition, ownerAt, if_neg (ne_nil_of_mem_hoistedTypes hmem)]
  rw [definitions_eq_owned, hhoisted, placedTypes, List.map_append]
  rfl

/-- Only an object that becomes a type yields a reference. -/
theorem propertyField?_reference {path key : String} {value : Value}
    (h : propertyField? discriminator path key value = some field)
    (hkind : field.kind = .objectReference) :
    ∃ members place, value = .object members ∧
      hoistedAs? discriminator key members = some (place, field.reference) := by
  unfold propertyField? at h
  split at h
  case h_10 members =>
    obtain ⟨⟨place, name⟩, hhoisted, rfl⟩ := Option.map_eq_some_iff.1 h
    exact ⟨members, place, rfl, hhoisted⟩
  all_goals
    cases h
    try cases hkind

/-- The references among the fields that an object owns lead to hoisted objects that it owns. -/
theorem exists_hoisted_of_mem_ownedFields {start : String} {owner : Option Address}
    (h : field ∈ ownedFields discriminator start document owner)
    (hkind : field.kind = .objectReference) :
    ∃ o, (o, field.reference) ∈ hoistedTypes discriminator document ∧
      owner? discriminator document o = owner := by
  obtain ⟨a, -, hfield⟩ := List.mem_filterMap.1 h
  unfold fieldOwned? at hfield
  split at hfield
  case isFalse => cases hfield
  rename_i howner
  obtain ⟨⟨key, value⟩, hproperty, hvalue⟩ := Option.bind_eq_some_iff.1 hfield
  obtain ⟨members, place, hobject, hhoisted⟩ := propertyField?_reference hvalue hkind
  dsimp only at hobject hhoisted
  subst hobject
  refine ⟨a, mem_hoistedTypes.2 ⟨place, ?_⟩, howner⟩
  unfold hoist?
  rw [hproperty]
  exact hhoisted

/-- **A reference leads to a definition that stands deeper.** -/
theorem exists_deeper {placed : Address × String}
    (hfield : field ∈ (placedDefinition discriminator document placed).fields)
    (hkind : field.kind = .objectReference) (root : String) :
    ∃ deeper ∈ placedTypes discriminator root document, deeper.2 = field.reference ∧
      placed.1.length < deeper.1.length := by
  obtain ⟨o, hmem, howner⟩ := exists_hoisted_of_mem_ownedFields hfield hkind
  refine ⟨(o, field.reference), List.mem_append_left _ hmem, rfl, ?_⟩
  by_cases hroot : placed.1 = []
  · rw [hroot]
    exact List.length_pos_iff.2 (ne_nil_of_mem_hoistedTypes hmem)
  · rw [ownerAt, if_neg hroot] at howner
    exact (isPrefix_of_owner? howner).2.2.1

/-- Every reference of a plan names the type of one of its definitions. -/
theorem exists_definition_of_reference {d : Definition}
    (hd : d ∈ (planOfMembers discriminator root document).definitions) (hfield : field ∈ d.fields)
    (hkind : field.kind = .objectReference) :
    ∃ target ∈ (planOfMembers discriminator root document).definitions,
      target.name = field.reference := by
  rw [definitions_eq_placed] at hd ⊢
  obtain ⟨placed, -, rfl⟩ := List.mem_map.1 hd
  obtain ⟨deeper, hdeeper, hname, -⟩ := exists_deeper hfield hkind root
  exact ⟨_, List.mem_map_of_mem hdeeper, hname⟩

end

end SampleTypes
