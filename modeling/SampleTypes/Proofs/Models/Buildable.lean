import SampleTypes.Proofs.Identifier.RefusedName
import SampleTypes.Proofs.Models.FullModels

/-!
# Which documents have models

A document can stop the making of its models in three ways only. A property may want the name that no
attribute can have, as four keys do unless a class has that name itself. And where a class has to wait
for another one, because a shared class name has closed a circle, the name of the other one may stand
for optional types in general or be taken by something that is no type. All other ways to fail are
closed to documents: what they refer to is defined, and their attributes start with a capital letter
as no protected name does.

## Main results

* `mem_attributeNames_refusedName`: when a definition of a document has an attribute with the refused
  name.
* `fault_of_ofDefinition`, `exists_model_iff`: when the model of a definition of a document can be
  made, and why not.
* `exists_models_iff`: when all of them can.
* `document_has_models_iff`: the same in terms of the keys of the document.
-/

namespace SampleTypes

open Json (Value Members)
open Models

/-! ## One model -/

namespace Model

/-- Nothing is in the way of the model of a definition of a document, when the models in `made` exist
and the classes have the names in `names`. -/
structure Admitted (made names : List String) (d : Definition) : Prop where
  /-- A class has the refused name, or no property wants it. -/
  unrefused : refusedName ∈ names ∨ ∀ field ∈ d.supported, field.wireName ∉ Identifier.refusedKeys
  /-- The name of a class that is not made is not taken by what is no type. -/
  untaken : ∀ target ∈ references d, target ∉ made →
    Meaning.within (Identifier.className d.name) (attributeNames names d) target ≠ .bareOption ∧
      Meaning.within (Identifier.className d.name) (attributeNames names d) target ≠ .unchecked

/-- Why the model of a definition of a document is refused: an attribute has the refused name, or a
class that is not made has a name that is taken. -/
inductive Refusal (made names : List String) (d : Definition) : Fault → Prop where
  | name : refusedName ∈ attributeNames names d → Refusal made names d .refusedAttribute
  | option (target : String) : target ∈ references d → target ∉ made →
      Meaning.within (Identifier.className d.name) (attributeNames names d) target = .bareOption →
      Refusal made names d .bareOption
  | taken (target : String) : target ∈ references d → target ∉ made →
      Meaning.within (Identifier.className d.name) (attributeNames names d) target = .unchecked →
      Refusal made names d (.uncheckedClass target)

section

variable {discriminator root : String} {document : Members} {made names : List String}
  {d : Definition} {fault : Fault}

/-- **An attribute of a document has the refused name** if its key is one of four and no class has
the name. -/
theorem mem_attributeNames_refusedName
    (hd : d ∈ (planOfMembers discriminator root document).definitions) :
    refusedName ∈ attributeNames names d ↔
      refusedName ∉ names ∧ ∃ field ∈ d.supported, field.wireName ∈ Identifier.refusedKeys := by
  have hkey : ∀ field ∈ d.supported,
      (field.identifier = refusedName ↔ field.wireName ∈ Identifier.refusedKeys) := by
    intro field hfield
    rw [identifier_of_document hd field (mem_supported.1 hfield).1]
    exact Identifier.ofKey_eq_refusedName
  rw [attributeNames, Identifier.mem_attributes_refusedName, List.mem_map, and_comm]
  refine and_congr_right fun _ => exists_congr fun field => and_congr_right fun hfield => ?_
  exact hkey field hfield

theorem notMem_attributeNames_refusedName
    (hd : d ∈ (planOfMembers discriminator root document).definitions) :
    refusedName ∉ attributeNames names d ↔
      (refusedName ∈ names ∨
        ∀ field ∈ d.supported, field.wireName ∉ Identifier.refusedKeys) := by
  rw [mem_attributeNames_refusedName hd]
  by_cases hmem : refusedName ∈ names <;> simp [hmem]

/-- An attribute has a meaning of its own only if it refers to a class that is not made. -/
theorem forward_of_meaning_ne {field : ModelField} (hfield : field ∈ attributesOf made names d)
    (hmeaning : meaning (Identifier.className d.name) (attributeNames names d) field.type ≠
      .awaited) :
    ∃ target ∈ references d, target ∉ made ∧ field.type = .forward target := by
  obtain ⟨name, -, source, hsource, rfl⟩ := exists_of_mem_attributesOf hfield
  cases htype : typeIn made source with
  | forward target =>
    have htarget := target?_typeIn made source
    rw [htype] at htarget
    by_cases hkind : source.kind = .objectReference
    · rw [if_pos hkind] at htarget
      obtain rfl := Option.some.inj htarget
      refine ⟨_, mem_references.2 ⟨source, (mem_supported.1 hsource).1, hkind, rfl⟩, ?_, htype⟩
      intro hmade
      simp [typeIn, hkind, hmade] at htype
    · rw [if_neg hkind] at htarget
      cases htarget
  | _ =>
    rw [attributeOf, htype] at hmeaning
    exact absurd rfl hmeaning

/-- A reference to a class that is not made is an attribute that waits for it. -/
theorem exists_forward {target : String} (htarget : target ∈ references d) (hmade : target ∉ made) :
    ∃ field ∈ attributesOf made names d, field.type = .forward target := by
  obtain ⟨source, hsource, hkind, rfl⟩ := mem_references.1 htarget
  have hsupported : source ∈ d.supported := mem_supported.2 ⟨hsource, by simp [hkind]⟩
  obtain ⟨name, hpair⟩ := exists_name_of_mem_supported names hsupported
  refine ⟨attributeOf made name source, List.mem_map_of_mem hpair, ?_⟩
  simp [attributeOf, typeIn, hkind, hmade]

/-- Settling fails only at a class whose name is taken. -/
theorem settle_eq_error {own : String} {attributes : List String} {field : ModelField}
    (h : settle own attributes field = .error fault) :
    ∃ target, field.type = .forward target ∧
      Meaning.within own attributes target = .unchecked ∧ fault = .uncheckedClass target := by
  unfold settle at h
  split at h
  · cases h
  · rename_i target htype hmeaning
    cases h
    rw [htype] at hmeaning
    exact ⟨target, htype, hmeaning, rfl⟩
  · cases h

/-- **Why the model of a definition of a document is refused.** -/
theorem fault_of_ofDefinition
    (hd : d ∈ (planOfMembers discriminator root document).definitions)
    (h : ofDefinition made names d = .error fault) : Refusal made names d fault := by
  rw [ofDefinition_eq] at h
  split at h
  · rename_i hrefused
    cases h
    exact .name hrefused
  split at h
  · rename_i hoption
    cases h
    obtain ⟨field, hfield, hmeaning⟩ := List.any_eq_true.1 hoption
    have hmeaning := of_decide_eq_true hmeaning
    obtain ⟨target, htarget, hmade, htype⟩ := forward_of_meaning_ne hfield (by simp [hmeaning])
    rw [htype] at hmeaning
    exact .option target htarget hmade hmeaning
  split at h
  · rename_i hidden hfind
    have hprotected : hidden ∈ protectedNames := by simpa using List.find?_some hfind
    exact absurd hprotected
      ((attributeNames_of_document hd names).1 hidden (List.mem_of_find?_eq_some hfind))
  rcases Loops.bind_eq_error.1 h with hsettle | ⟨fields, -, h⟩
  · obtain ⟨field, hfield, hfails⟩ := Loops.exists_of_mapM_error hsettle
    obtain ⟨target, htype, hmeaning, rfl⟩ := settle_eq_error hfails
    have hne : meaning (Identifier.className d.name) (attributeNames names d) field.type ≠
        .awaited := by
      rw [htype, meaning, hmeaning]
      simp
    obtain ⟨target', htarget, hmade, htype'⟩ :=
      forward_of_meaning_ne (List.mem_of_mem_filter hfield) hne
    rw [htype] at htype'
    cases htype'
    exact .taken target htarget hmade hmeaning
  · cases h

/-- What is refused is not admitted. -/
theorem not_admitted_of_refusal (hd : d ∈ (planOfMembers discriminator root document).definitions)
    (h : Refusal made names d fault) : ¬ Admitted made names d := by
  intro hadmitted
  cases h with
  | name hrefused =>
    exact (notMem_attributeNames_refusedName hd).2 hadmitted.unrefused hrefused
  | option target htarget hmade hmeaning =>
    exact (hadmitted.untaken target htarget hmade).1 hmeaning
  | taken target htarget hmade hmeaning =>
    exact (hadmitted.untaken target htarget hmade).2 hmeaning

/-- **When the model of a definition of a document can be made.** -/
theorem exists_model_iff (hd : d ∈ (planOfMembers discriminator root document).definitions) :
    (∃ m, ofDefinition made names d = .ok m) ↔ Admitted made names d := by
  constructor
  · rintro ⟨m, h⟩
    obtain ⟨-, hrefused, hoption, hsettled⟩ := accepted_of_ofDefinition h
    refine ⟨(notMem_attributeNames_refusedName hd).1 hrefused, fun target htarget hmade => ?_⟩
    obtain ⟨field, hfield, htype⟩ := exists_forward htarget hmade
    refine ⟨?_, fun htaken => ?_⟩
    · have hmeaning := hoption field hfield
      rwa [htype] at hmeaning
    · have hkept : field.attributeName ≠ settingsName := by
        obtain ⟨name, hname, source, -, rfl⟩ := exists_of_mem_attributesOf hfield
        rintro heq
        exact (attributeNames_of_document hd names).2 (heq ▸ hname)
      obtain ⟨settled, -, hsettle⟩ := Loops.exists_step_of_mapM_ok hsettled field
        (List.mem_filter.2 ⟨hfield, decide_eq_true hkept⟩)
      unfold settle at hsettle
      simp only [htype, meaning, htaken] at hsettle
      cases hsettle
  · intro hadmitted
    cases h : ofDefinition made names d with
    | ok m => exact ⟨m, rfl⟩
    | error fault =>
      exact absurd hadmitted (not_admitted_of_refusal hd (fault_of_ofDefinition hd h))

end

end Model

/-! ## All models -/

namespace Models

section

variable {discriminator root : String} {document : Members}

/-- Building the models of a document fails where one of them is refused. -/
theorem refused_of_ofPlan_error {fault : Fault}
    (h : ofPlan (planOfMembers discriminator root document) = .error fault) :
    ∃ made name rest before d, scheduled (planOfMembers discriminator root document) =
        made ++ name :: rest ∧
      run (planOfMembers discriminator root document) made = .ok before ∧
      lastNamed? (planOfMembers discriminator root document) name = some d ∧
      Model.ofDefinition (Assoc.keys before.models)
        (Assoc.keys (winners (planOfMembers discriminator root document))) d = .error fault := by
  obtain ⟨made, name, rest, before, hsplit, hbefore, hfault⟩ :=
    stage_of_run_error (ofPlan_eq_error h)
  rcases hfault with ⟨hnone, -⟩ | ⟨d, hlast, hrefused⟩
  · exact absurd (undefined_iff.2 ⟨by simp [hsplit], hnone⟩) (not_undefined_of_document name)
  · exact ⟨made, name, rest, before, d, hsplit, hbefore, hlast, hrefused⟩

/-- Its refusal has one of the three reasons. -/
theorem refusal_of_ofPlan_error {fault : Fault}
    (h : ofPlan (planOfMembers discriminator root document) = .error fault) :
    ∃ made name rest d, scheduled (planOfMembers discriminator root document) =
        made ++ name :: rest ∧
      lastNamed? (planOfMembers discriminator root document) name = some d ∧
      Model.Refusal made (Assoc.keys (winners (planOfMembers discriminator root document))) d
        fault := by
  obtain ⟨made, name, rest, before, d, hsplit, hbefore, hlast, hrefused⟩ :=
    refused_of_ofPlan_error h
  rw [keys_of_run hbefore (nodup_of_scheduled hsplit)] at hrefused
  exact ⟨made, name, rest, d, hsplit, hlast,
    Model.fault_of_ofDefinition (mem_of_lastNamed? hlast).1 hrefused⟩

/-- **When all models of a document can be made**: each one, after those before it. -/
theorem exists_models_iff :
    (∃ models, ofPlan (planOfMembers discriminator root document) = .ok models) ↔
      ∀ made name rest d, scheduled (planOfMembers discriminator root document) =
          made ++ name :: rest →
        lastNamed? (planOfMembers discriminator root document) name = some d →
        Model.Admitted made
          (Assoc.keys (winners (planOfMembers discriminator root document))) d := by
  constructor
  · rintro ⟨models, h⟩ made name rest d hsplit hlast
    obtain ⟨d', draft, -, hlast', hdraft, -, -⟩ := model_of_stage h hsplit
    obtain rfl := Option.some.inj (hlast.symm.trans hlast')
    exact (Model.exists_model_iff (mem_of_lastNamed? hlast).1).1 ⟨draft, hdraft⟩
  · intro hadmitted
    cases h : ofPlan (planOfMembers discriminator root document) with
    | ok models => exact ⟨models, rfl⟩
    | error fault =>
      obtain ⟨made, name, rest, d, hsplit, hlast, hrefusal⟩ := refusal_of_ofPlan_error h
      exact absurd (hadmitted made name rest d hsplit hlast)
        (Model.not_admitted_of_refusal (mem_of_lastNamed? hlast).1 hrefusal)

/-- No property of a definition that counts wants the refused name, unless a class has it. -/
def WithoutRefusedKey (plan : Plan) : Prop :=
  Model.refusedName ∈ classNames plan ∨
    ∀ name d, lastNamed? plan name = some d → ∀ field ∈ d.supported,
      field.wireName ∉ Identifier.refusedKeys

/-- In terms of keys, no attribute of a document has the refused name. -/
theorem withoutRefusedName_iff :
    WithoutRefusedName (planOfMembers discriminator root document) ↔
      WithoutRefusedKey (planOfMembers discriminator root document) := by
  have hnames : Model.refusedName ∈
      Assoc.keys (winners (planOfMembers discriminator root document)) ↔
        Model.refusedName ∈ classNames (planOfMembers discriminator root document) := by
    rw [mem_keys_winners, classNames, List.mem_map]
  constructor
  · intro h
    by_cases hclass : Model.refusedName ∈
        classNames (planOfMembers discriminator root document)
    · exact Or.inl hclass
    · refine Or.inr fun name d hlast => ?_
      have hkeys := (Model.notMem_attributeNames_refusedName (mem_of_lastNamed? hlast).1).1
        (h name d hlast)
      exact hkeys.resolve_left (mt hnames.1 hclass)
  · intro h name d hlast
    refine (Model.notMem_attributeNames_refusedName (mem_of_lastNamed? hlast).1).2 ?_
    exact h.imp hnames.2 fun hkeys => hkeys name d hlast

/-- Where class names are distinct nothing has to wait, so no name can be taken. -/
theorem refusedForNameOnly_of_distinct
    (hdistinct : (classNames (planOfMembers discriminator root document)).Nodup) :
    RefusedForNameOnly (planOfMembers discriminator root document) := by
  intro made name rest before d fault hsplit hbefore hlast hfault
  rw [keys_of_run hbefore (nodup_of_scheduled hsplit)] at hfault
  rw [scheduled_eq_order hdistinct] at hsplit
  have hmade : ∀ target ∈ references d, target ∈ made := fun target htarget =>
    targets_before hdistinct hsplit ⟨d, hlast, htarget⟩
  cases Model.fault_of_ofDefinition (mem_of_lastNamed? hlast).1 hfault with
  | name => rfl
  | option target htarget hwaits => exact absurd (hmade target htarget) hwaits
  | taken target htarget hwaits => exact absurd (hmade target htarget) hwaits

/-- **Which documents have models.** All models of a document can be made exactly if each one can, when
those before it in the schedule exist; otherwise one of them is refused, and for no reason but the
three. If models are refused for the refused name only, as they are where class names are distinct,
the document has models exactly if no property of a definition that counts has one of the four keys or
a class has the refused name. -/
theorem document_has_models_iff (discriminator root : String) (document : Members) :
    ((∃ models, ofPlan (planOfMembers discriminator root document) = .ok models) ↔
        ∀ made name rest d, scheduled (planOfMembers discriminator root document) =
            made ++ name :: rest →
          lastNamed? (planOfMembers discriminator root document) name = some d →
          Model.Admitted made
            (Assoc.keys (winners (planOfMembers discriminator root document))) d) ∧
      (∀ fault, ofPlan (planOfMembers discriminator root document) = .error fault →
        ∃ made name rest d, scheduled (planOfMembers discriminator root document) =
            made ++ name :: rest ∧
          lastNamed? (planOfMembers discriminator root document) name = some d ∧
          Model.Refusal made
            (Assoc.keys (winners (planOfMembers discriminator root document))) d fault) ∧
      (RefusedForNameOnly (planOfMembers discriminator root document) →
        ((∃ models, ofPlan (planOfMembers discriminator root document) = .ok models) ↔
            WithoutRefusedKey (planOfMembers discriminator root document)) ∧
          ∀ fault, ofPlan (planOfMembers discriminator root document) = .error fault →
            fault = .refusedAttribute) ∧
      ((classNames (planOfMembers discriminator root document)).Nodup →
        RefusedForNameOnly (planOfMembers discriminator root document)) := by
  refine ⟨exists_models_iff, fun fault => refusal_of_ofPlan_error, ?_, refusedForNameOnly_of_distinct⟩
  intro hassume
  refine ⟨⟨?_, ?_⟩, ?_⟩
  · intro h
    refine withoutRefusedName_iff.1 fun name d hlast => ?_
    obtain ⟨made, rest, hsplit⟩ :=
      List.append_of_mem (mem_scheduled.2 (Or.inl ⟨d, mem_of_lastNamed? hlast⟩))
    have hadmitted := exists_models_iff.1 h made name rest d hsplit hlast
    exact (Model.notMem_attributeNames_refusedName (mem_of_lastNamed? hlast).1).2
      hadmitted.unrefused
  · intro h
    obtain ⟨final, -, hmodels⟩ :=
      exists_ofPlan hassume (withoutRefusedName_iff.2 h) not_undefined_of_document
    exact ⟨_, hmodels⟩
  · intro fault h
    obtain ⟨made, name, rest, before, d, hsplit, hbefore, hlast, hrefused⟩ :=
      refused_of_ofPlan_error h
    exact hassume made name rest before d fault hsplit hbefore hlast hrefused

end

/-- A device whose settings have the refused name themselves. -/
def configuredDevice : Members :=
  [("settings", .object [("@type", .string "config"), ("config", .string "on")])]

/-- The key does no harm where a class has the refused name. -/
theorem document_has_models_iff_configuredDevice :
    (classNames (planOfMembers "@type" "Device" configuredDevice)).Nodup ∧
      ∃ models, ofPlan (planOfMembers "@type" "Device" configuredDevice) = .ok models := by
  have hdistinct : (classNames (planOfMembers "@type" "Device" configuredDevice)).Nodup := by
    decide
  have hkeys : WithoutRefusedKey (planOfMembers "@type" "Device" configuredDevice) :=
    Or.inl (by decide)
  obtain ⟨-, -, hbuilds, hassume⟩ := document_has_models_iff "@type" "Device" configuredDevice
  exact ⟨hdistinct, (hbuilds (hassume hdistinct)).1.2 hkeys⟩

/-- A document of one property with one of the four keys has no models. -/
theorem models_of_config_are_refused :
    ofPlan (planOfMembers "@type" "Thing" [("config", .string "x")]) =
      .error .refusedAttribute := by
  have hnodes : Schedule.nodes
      (graph (winners (planOfMembers "@type" "Thing" [("config", .string "x")]))) = ["Thing"] :=
    List.mergeSort_of_pairwise (by decide)
  have hschedule : Schedule.ofGraph
      (graph (winners (planOfMembers "@type" "Thing" [("config", .string "x")]))) =
        ⟨["Thing"], []⟩ := by
    unfold Schedule.ofGraph Schedule.start
    rw [hnodes]
    decide
  simp only [ofPlan, drafts, hschedule]
  rfl

end Models

end SampleTypes
