import SampleTypes.Proofs.Identifier.Attributes
import SampleTypes.Proofs.Models.Nesting

/-!
# The models of documents

Nothing in the keys of a document can be in the way of a model, the refused name apart: the names of
attributes start with a capital letter and the other special names do not. So if the types of a
document have class names of their own, all of its models can be built, and nothing has to wait: each
model has the attributes of its definition, as if every other class were there.

## Main results

* `identifier_of_document`: the fields of a document keep their keys.
* `attributeNames_of_document`: no attribute of a document has a protected name.
* `get?_models_of_distinct`: the model under a class name has the attributes of its definition.
-/

namespace SampleTypes

open Json (Value Members)
open Models

/-- The model of a definition when every class in `names` has one. -/
def fullModel (names : List String) (d : Definition) : Model :=
  { name := Identifier.className d.name, fields := Model.attributesOf names names d }

section

variable {discriminator root path key : String} {value : Value} {document : Members} {d : Definition}
  {field : Field}

/-- The field of a property keeps the key and has the identifier made from it. -/
theorem identifier_of_propertyField? (h : propertyField? discriminator path key value = some field) :
    field.identifier = Identifier.ofKey field.wireName := by
  unfold propertyField? at h
  split at h
  case h_10 members =>
    obtain ⟨hoisted, -, rfl⟩ := Option.map_eq_some_iff.1 h
    rfl
  all_goals
    cases h
    try rfl

/-- **The fields of a document keep their keys.** Their identifiers are made from these. -/
theorem identifier_of_document
    (hd : d ∈ (planOfMembers discriminator root document).definitions) :
    ∀ field ∈ d.fields, field.identifier = Identifier.ofKey field.wireName := by
  intro field hfield
  rw [definitions_eq_placed] at hd
  obtain ⟨placed, -, rfl⟩ := List.mem_map.1 hd
  obtain ⟨a, -, howned⟩ := List.mem_filterMap.1 hfield
  unfold fieldOwned? at howned
  split at howned
  case isFalse => cases howned
  obtain ⟨member, -, hproperty⟩ := Option.bind_eq_some_iff.1 howned
  exact identifier_of_propertyField? hproperty

/-- **No attribute of a document has a name that is special**, the refused one apart: the special
names start with a small letter. -/
theorem attributeNames_of_document
    (hd : d ∈ (planOfMembers discriminator root document).definitions) (reserved : List String) :
    (∀ name ∈ Model.attributeNames reserved d, name ∉ Model.protectedNames) ∧
      Model.settingsName ∉ Model.attributeNames reserved d := by
  have hstarts : ∀ name ∈ Model.attributeNames reserved d,
      Identifier.startsCapital name = true := by
    refine Identifier.startsCapital_attributes fun identifier hidentifier c rest hchars => ?_
    obtain ⟨field, hfield, rfl⟩ := List.mem_map.1 hidentifier
    rw [identifier_of_document hd field (Model.mem_supported.1 hfield).1] at hchars
    exact Identifier.not_isSmall_ofKey hchars
  have hprotected : ∀ name ∈ Model.protectedNames, ¬ Identifier.startsCapital name = true := by
    decide
  have hsettings : ¬ Identifier.startsCapital Model.settingsName = true := by decide
  constructor
  · intro name hname hmem
    exact hprotected name hmem (hstarts name hname)
  · intro hmem
    exact hsettings (hstarts _ hmem)

/-- Which classes are made does not matter for a definition whose references are all among them. -/
theorem attributesOf_eq {made names reserved : List String} {d : Definition}
    (hmade : ∀ target ∈ references d, target ∈ made)
    (hnames : ∀ target ∈ references d, target ∈ names) :
    Model.attributesOf made reserved d = Model.attributesOf names reserved d := by
  refine List.map_congr_left fun pair hpair => ?_
  have hfield := (Model.mem_supported.1 (List.of_mem_zip hpair).2).1
  unfold Model.attributeOf Model.typeIn
  cases hkind : pair.2.kind <;> simp only
  have hreference := mem_references.2 ⟨pair.2, hfield, hkind, rfl⟩
  rw [if_pos (hmade _ hreference), if_pos (hnames _ hreference)]

/-- **The model under a class name has the attributes of its definition**, all classes being
made. -/
theorem get?_models_of_distinct
    (hdistinct : (classNames (planOfMembers discriminator root document)).Nodup)
    (hnames : WithoutRefusedName (planOfMembers discriminator root document)) :
    ∃ models, ofPlan (planOfMembers discriminator root document) = .ok models ∧
      ∀ d ∈ (planOfMembers discriminator root document).definitions,
        Assoc.get? (Identifier.className d.name) models =
          some (fullModel (Assoc.keys (winners (planOfMembers discriminator root document))) d) := by
  generalize hplan : planOfMembers discriminator root document = plan at *
  have hmake : ∀ made name rest d, scheduled plan = made ++ name :: rest →
      lastNamed? plan name = some d →
      Model.ofDefinition made (Assoc.keys (winners plan)) d =
        .ok (fullModel (Assoc.keys (winners plan)) d) := by
    intro made name rest d hsplit hlast
    subst hplan
    rw [scheduled_eq_order hdistinct] at hsplit
    have htargets : ∀ target ∈ references d, target ∈ made := fun target htarget =>
      targets_before hdistinct hsplit ⟨d, hlast, htarget⟩
    have hall : ∀ target ∈ references d,
        target ∈ Assoc.keys (winners (planOfMembers discriminator root document)) := by
      intro target htarget
      exact mem_keys_winners.2
        (exists_definition_of_mem_references (mem_of_lastNamed? hlast).1 htarget)
    obtain ⟨hprotected, hsettings⟩ := attributeNames_of_document (mem_of_lastNamed? hlast).1
      (Assoc.keys (winners (planOfMembers discriminator root document)))
    rw [Model.ofDefinition_of_awaited (fun target htarget => Or.inl (htargets target htarget))
      (hnames name d hlast) hprotected hsettings, attributesOf_eq htargets hall]
    rfl
  have hassume : RefusedForNameOnly plan := by
    intro made name rest before d fault hsplit hbefore hlast hfault
    rw [keys_of_run hbefore (nodup_of_scheduled hsplit), hmake made name rest d hsplit hlast] at hfault
    cases hfault
  have hundefined : ∀ target, ¬ Undefined plan target := by
    rw [← hplan]
    exact not_undefined_of_document
  obtain ⟨final, -, hmodels⟩ := exists_ofPlan hassume hnames hundefined
  obtain ⟨final', hdrafts, hbuilt⟩ := built_of_ofPlan hmodels
  refine ⟨_, hmodels, fun d hd => ?_⟩
  have hlast := lastNamed?_of_nodup hdistinct hd
  obtain ⟨made, rest, hsplit⟩ := List.append_of_mem (mem_scheduled.2 (Or.inl ⟨d, hd, rfl⟩))
  obtain ⟨before, d', draft, -, -, hlast', hdraft, -, -, hget⟩ := hbuilt.stage made _ rest hsplit
  obtain rfl := Option.some.inj (hlast.symm.trans hlast')
  rw [hmake made _ rest d hsplit hlast] at hdraft
  cases hdraft
  have hdeferred : final'.deferred = [] := by
    subst hplan
    rw [drafts_eq_run, scheduled_eq_order hdistinct] at hdrafts
    exact (deferred_eq_nil hdistinct (List.append_nil _).symm hdrafts).2
  rw [hget, hdeferred, if_neg List.not_mem_nil]

end

end SampleTypes
