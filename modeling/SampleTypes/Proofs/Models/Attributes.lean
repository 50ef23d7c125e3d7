import SampleTypes.Proofs.Loops
import SampleTypes.Proofs.Models.Winners

/-!
# The attributes of a model

Each supported field of a definition becomes an attribute, under the name chosen for it and with
the type that its kind gives. Before it is refused or settled, a model is therefore a list that can
be written down; what a reference that has to wait means is decided attribute by attribute.

## Main results

* `ofDefinition_eq`: the model of a definition, with every reason to refuse it.
* `accepted_of_ofDefinition`: what a model that is not refused was made from.
* `target_of_ofDefinition`: an optional type names a class that the definition refers to.
* `unreachable_ne_of_ofDefinition`: a model is never refused as unreachable.
* `ofDefinition_of_awaited`: the model of a definition whose references are made or wait.
-/

namespace SampleTypes

/-- The class that an optional type names. -/
def FieldType.target? : FieldType → Option String
  | .model className => some className
  | .forward className => some className
  | .ambient className _ => some className
  | _ => none

namespace Model

open Models (references mem_references)

/-- The type of a field when the models in `made` exist. A field that is not supported has no
attribute; its line only completes the cases. -/
def typeIn (made : List String) (field : Field) : FieldType :=
  match field.kind with
  | .string => .text
  | .number => .number
  | .boolean => .flag
  | .stringArray => .texts
  | .numberArray => .numbers
  | .objectReference =>
    if Identifier.className field.reference ∈ made then
      .model (Identifier.className field.reference)
    else .forward (Identifier.className field.reference)
  | .unsupported => .text

/-- The default of a field of this kind. -/
def defaultOf : FieldKind → Default
  | .string => .emptyText
  | .number => .zero
  | .boolean => .off
  | .stringArray => .emptyList
  | .numberArray => .emptyList
  | .objectReference => .nothing
  | .unsupported => .emptyText

/-- The attribute of a field under its chosen name. -/
def attributeOf (made : List String) (attributeName : String) (field : Field) : ModelField :=
  { attributeName := attributeName, wireName := field.wireName, type := typeIn made field,
    default := defaultOf field.kind }

/-- The names chosen for the attributes of a definition. -/
def attributeNames (reserved : List String) (d : Definition) : List String :=
  Identifier.attributes reserved (d.supported.map Field.identifier)

/-- The attributes of a definition before any is refused, left out or settled. -/
def attributesOf (made reserved : List String) (d : Definition) : List ModelField :=
  ((attributeNames reserved d).zip d.supported).map fun pair => attributeOf made pair.1 pair.2

section

variable {made reserved : List String} {d : Definition} {m : Model} {field : ModelField}

theorem modelField_eq (made : List String) (name : String) {field : Field}
    (h : field.kind ≠ .unsupported) :
    modelField made name field = .ok (attributeOf made name field) := by
  cases hkind : field.kind <;>
    simp_all [modelField, fieldSpec, attributeOf, typeIn, defaultOf, Except.map]

/-- Only the type of a reference names a class. -/
theorem target?_typeIn (made : List String) (field : Field) :
    (typeIn made field).target? =
      if field.kind = .objectReference then some (Identifier.className field.reference)
      else none := by
  by_cases hmade : Identifier.className field.reference ∈ made <;>
    cases hkind : field.kind <;> simp [typeIn, hkind, hmade, FieldType.target?]

theorem mem_supported {field : Field} :
    field ∈ d.supported ↔ field ∈ d.fields ∧ field.kind ≠ .unsupported := by
  simp [Definition.supported]

/-- There is one name for each supported field. -/
theorem length_attributeNames (reserved : List String) (d : Definition) :
    (attributeNames reserved d).length = d.supported.length := by
  rw [attributeNames, Identifier.length_attributes, List.length_map]

theorem map_snd_named (reserved : List String) (d : Definition) :
    ((attributeNames reserved d).zip d.supported).map Prod.snd = d.supported :=
  List.map_snd_zip (Nat.le_of_eq (length_attributeNames reserved d).symm)

theorem exists_name_of_mem_supported (reserved : List String) {field : Field}
    (h : field ∈ d.supported) :
    ∃ name, (name, field) ∈ (attributeNames reserved d).zip d.supported := by
  rw [← map_snd_named reserved] at h
  obtain ⟨⟨name, source⟩, hpair, rfl⟩ := List.mem_map.1 h
  exact ⟨name, hpair⟩

/-- Every attribute stands for a supported field. -/
theorem exists_of_mem_attributesOf (h : field ∈ attributesOf made reserved d) :
    ∃ name ∈ attributeNames reserved d, ∃ source ∈ d.supported,
      field = attributeOf made name source := by
  obtain ⟨⟨name, source⟩, hpair, rfl⟩ := List.mem_map.1 h
  obtain ⟨hname, hsource⟩ := List.of_mem_zip hpair
  exact ⟨name, hname, source, hsource, rfl⟩

/-- **The model of a definition**, with every reason to refuse it. -/
theorem ofDefinition_eq (made reserved : List String) (d : Definition) :
    ofDefinition made reserved d =
      if refusedName ∈ attributeNames reserved d then .error .refusedAttribute
      else if (attributesOf made reserved d).any fun field =>
          meaning (Identifier.className d.name) (attributeNames reserved d) field.type =
            .bareOption then
        .error .bareOption
      else
        match (attributeNames reserved d).find? (· ∈ protectedNames) with
        | some hidden => .error (.protectedName hidden)
        | none =>
          ((attributesOf made reserved d).filter fun field =>
              field.attributeName ≠ settingsName).mapM
            (settle (Identifier.className d.name) (attributeNames reserved d)) >>=
            fun fields => .ok { name := Identifier.className d.name, fields := fields } := by
  have hfields : ((attributeNames reserved d).zip d.supported).mapM
        (fun pair => modelField made pair.1 pair.2) = .ok (attributesOf made reserved d) := by
    refine Loops.mapM_eq_ok_map fun pair hpair => modelField_eq made pair.1 ?_
    exact (mem_supported.1 (List.of_mem_zip hpair).2).2
  unfold ofDefinition
  rw [attributeNames] at hfields ⊢
  simp only [hfields]
  cases (Identifier.attributes reserved (d.supported.map Field.identifier)).find?
    (· ∈ protectedNames) <;> rfl

/-! ## What an accepted model names -/

/-- Settling keeps the class that a type names, and leaves a type that has to wait as it was. -/
theorem settle_ok {own : String} {attributes : List String} {settled : ModelField}
    (h : settle own attributes field = .ok settled) :
    settled.attributeName = field.attributeName ∧ settled.wireName = field.wireName ∧
      settled.type.target? = field.type.target? ∧
      (∀ target, settled.type = .forward target → field.type = .forward target) ∧
      ∀ target, settled.type = .model target → field.type = .model target := by
  unfold settle at h
  split at h
  · rename_i target known htype _
    cases h
    simp [FieldType.target?, htype]
  · cases h
  · cases h
    exact ⟨rfl, rfl, rfl, fun _ => id, fun _ => id⟩

/-- **An accepted model** has the class name of its definition. No attribute has a name or a meaning
that is refused, and all but the one named like the settings were settled in order. -/
theorem accepted_of_ofDefinition (h : ofDefinition made reserved d = .ok m) :
    m.name = Identifier.className d.name ∧ refusedName ∉ attributeNames reserved d ∧
      (∀ field ∈ attributesOf made reserved d,
        meaning (Identifier.className d.name) (attributeNames reserved d) field.type ≠
          .bareOption) ∧
      ((attributesOf made reserved d).filter fun field =>
          field.attributeName ≠ settingsName).mapM
        (settle (Identifier.className d.name) (attributeNames reserved d)) = .ok m.fields := by
  rw [ofDefinition_eq] at h
  split at h
  · cases h
  rename_i hrefused
  split at h
  · cases h
  rename_i hbare
  split at h
  · cases h
  obtain ⟨fields, hfields, h⟩ := Loops.bind_eq_ok.1 h
  cases h
  refine ⟨rfl, hrefused, fun field hfield hoption => hbare ?_, hfields⟩
  exact List.any_eq_true.2 ⟨field, hfield, decide_eq_true hoption⟩

/-- Each attribute of an accepted model was settled from an attribute of the definition. -/
theorem settled_of_ofDefinition (h : ofDefinition made reserved d = .ok m) :
    m.name = Identifier.className d.name ∧
      ∀ field ∈ m.fields, ∃ source ∈ attributesOf made reserved d,
        settle (Identifier.className d.name) (attributeNames reserved d) source = .ok field := by
  obtain ⟨hname, -, -, hfields⟩ := accepted_of_ofDefinition h
  refine ⟨hname, fun field hfield => ?_⟩
  obtain ⟨source, hsource, hsettle⟩ := Loops.exists_of_mapM_ok hfields field hfield
  exact ⟨source, List.mem_of_mem_filter hsource, hsettle⟩

/-- **An optional type names a class that the definition refers to.** It waits for the class exactly
if the class is not made. -/
theorem target_of_ofDefinition (h : ofDefinition made reserved d = .ok m) (hfield : field ∈ m.fields)
    {target : String} (htarget : field.type.target? = some target) :
    target ∈ references d ∧ (field.type = .forward target → target ∉ made) ∧
      (field.type = .model target → target ∈ made) := by
  obtain ⟨source, hsource, hsettle⟩ := (settled_of_ofDefinition h).2 field hfield
  obtain ⟨-, -, hsame, hforward, hmodel⟩ := settle_ok hsettle
  rw [hsame] at htarget
  obtain ⟨name, -, origin, horigin, rfl⟩ := exists_of_mem_attributesOf hsource
  rw [attributeOf, target?_typeIn] at htarget
  split at htarget
  case isFalse => cases htarget
  rename_i hkind
  have hclass : Identifier.className origin.reference = target := Option.some.inj htarget
  refine ⟨mem_references.2 ⟨origin, (mem_supported.1 horigin).1, hkind, hclass⟩, ?_, ?_⟩
  · intro hwaits hmade
    have htype := hforward target hwaits
    simp [attributeOf, typeIn, hkind, hclass, hmade] at htype
  · intro hmade
    have htype := hmodel target hmade
    simp only [attributeOf, typeIn, hkind, hclass] at htype
    split at htype
    · assumption
    · cases htype

/-- **A model is never refused as unreachable**, and for its name's sake only if an attribute has
the name that is refused. -/
theorem unreachable_ne_of_ofDefinition {fault : Fault}
    (h : ofDefinition made reserved d = .error fault) :
    (∀ reason details, fault ≠ .unreachable reason details) ∧
      (fault = .refusedAttribute → refusedName ∈ attributeNames reserved d) := by
  rw [ofDefinition_eq] at h
  split at h
  · rename_i hrefused
    cases h
    exact ⟨by simp, fun _ => hrefused⟩
  split at h
  · cases h
    simp
  split at h
  · cases h
    simp
  rcases Loops.bind_eq_error.1 h with hsettle | ⟨fields, -, h⟩
  · obtain ⟨source, -, hsource⟩ := Loops.exists_of_mapM_error hsettle
    unfold settle at hsource
    split at hsource
    · cases hsource
    · cases hsource
      simp
    · cases hsource
  · cases h

/-! ## References without a meaning of their own -/

/-- A type that does not wait has no meaning to look up, and one that waits may have none. -/
theorem meaning_typeIn {own : String} {attributes : List String} {field : Field}
    (h : field.kind = .objectReference → Identifier.className field.reference ∈ made ∨
      Meaning.within own attributes (Identifier.className field.reference) = .awaited) :
    meaning own attributes (typeIn made field) = .awaited := by
  cases hkind : field.kind <;> simp only [typeIn, hkind, meaning]
  by_cases hmade : Identifier.className field.reference ∈ made
  · rw [if_pos hmade]
  · rw [if_neg hmade]
    exact (h hkind).resolve_left hmade

/-- **The model of a definition whose references are made or wait** is the list of its attributes,
if no attribute has a name that is special. -/
theorem ofDefinition_of_awaited
    (hawaited : ∀ target ∈ references d, target ∈ made ∨
      Meaning.within (Identifier.className d.name) (attributeNames reserved d) target = .awaited)
    (hrefused : refusedName ∉ attributeNames reserved d)
    (hprotected : ∀ name ∈ attributeNames reserved d, name ∉ protectedNames)
    (hsettings : settingsName ∉ attributeNames reserved d) :
    ofDefinition made reserved d =
      .ok { name := Identifier.className d.name, fields := attributesOf made reserved d } := by
  have hmeaning : ∀ field ∈ attributesOf made reserved d,
      meaning (Identifier.className d.name) (attributeNames reserved d) field.type =
        .awaited := by
    intro field hfield
    obtain ⟨name, -, source, hsource, rfl⟩ := exists_of_mem_attributesOf hfield
    refine meaning_typeIn fun hkind => hawaited _ (mem_references.2 ?_)
    exact ⟨source, (mem_supported.1 hsource).1, hkind, rfl⟩
  have hbare : ((attributesOf made reserved d).any fun field =>
      meaning (Identifier.className d.name) (attributeNames reserved d) field.type =
        .bareOption) = false := by
    rw [List.any_eq_false]
    intro field hfield
    simp [hmeaning field hfield]
  have hfind : (attributeNames reserved d).find? (· ∈ protectedNames) = none := by
    rw [List.find?_eq_none]
    intro name hname
    simpa using hprotected name hname
  have hkept : ((attributesOf made reserved d).filter fun field =>
      field.attributeName ≠ settingsName) = attributesOf made reserved d := by
    refine List.filter_eq_self.2 fun field hfield => ?_
    obtain ⟨name, hname, source, -, rfl⟩ := exists_of_mem_attributesOf hfield
    refine decide_eq_true fun heq => hsettings ?_
    rwa [← heq]
  have hsettle : (attributesOf made reserved d).mapM
      (settle (Identifier.className d.name) (attributeNames reserved d)) =
        .ok (attributesOf made reserved d) := by
    have hitem : ∀ field ∈ attributesOf made reserved d,
        settle (Identifier.className d.name) (attributeNames reserved d) field =
          .ok (id field) := by
      intro field hfield
      unfold settle
      rw [hmeaning field hfield]
      cases field.type <;> rfl
    have hsame := Loops.mapM_eq_ok_map hitem
    rwa [List.map_id] at hsame
  rw [ofDefinition_eq, if_neg hrefused, hbare, if_neg Bool.false_ne_true, hfind, hkept, hsettle]
  rfl

end

end Model

end SampleTypes
