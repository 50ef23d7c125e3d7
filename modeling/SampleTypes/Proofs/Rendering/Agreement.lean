import SampleTypes.Proofs.Models.Building
import SampleTypes.Proofs.Rendering.Classes

/-!
# Source and live models

A plan becomes classes in two ways, as source and as live models. Of several classes with one name
the last one counts in both: in source because it binds the name again, among live models because
only the last definition is built. The attributes are chosen with different names reserved, but the
names of imports, which only source keeps clear of, make a difference only where a field is called
like one of them. And an attribute in source is the live one in writing.

What remains are the two points in which live models depart from what they are made of. An attribute
with the name of the settings is left out; and a reference that has to wait for its model may find a
meaning of another kind first, which it keeps. Where neither happens source and live models agree,
and where one of them does, they do not.

## Main results

* `attributes_congr`: which reserved names matter for the attributes.
* `statements_of_built`: a live model, in writing, is the class in source without its settings.
* `source_agrees_iff`: when source and live models agree.
-/

namespace SampleTypes

/-! ## Attributes under different reserved names -/

namespace Identifier

/-- Only a reserved name that an identifier asks for makes a difference. -/
theorem attributes_congr {reserved reserved' identifiers : List String}
    (h : ∀ identifier ∈ identifiers,
      (attributeName identifier ∈ reserved ↔ attributeName identifier ∈ reserved')) :
    attributes reserved identifiers = attributes reserved' identifiers := by
  unfold attributes
  generalize ([] : List String) = used
  induction identifiers generalizing used with
  | nil => rfl
  | cons identifier rest ih =>
    have hwanted : wanted reserved identifier = wanted reserved' identifier := by
      simp only [wanted, h identifier List.mem_cons_self]
    have hrest : ∀ used, attributesAfter reserved used rest =
        attributesAfter reserved' used rest :=
      ih fun other hother => h other (List.mem_cons_of_mem _ hother)
    simp only [attributesAfter, hwanted, hrest]

end Identifier

namespace Model

/-! ## What settling and completing leave alone -/

section

variable {made reserved : List String} {d : Definition} {source field : ModelField} {m : Model}
  {target : String} {known : Ambient}

/-- Settling does not change what is written. -/
theorem statement_settle {own : String} {attributes : List String}
    (h : settle own attributes source = .ok field) : field.statement = source.statement := by
  unfold settle at h
  split at h
  · rename_i target known htype _
    cases h
    simp [ModelField.statement, FieldType.written, htype]
  · cases h
  · cases h
    rfl

/-- Completing does not change what is written. -/
theorem statements_rebuild (made : List String) (m : Model) :
    (m.rebuild made).fields.map ModelField.statement = m.fields.map ModelField.statement := by
  have hwritten : ∀ type, (resolveType made type).written = type.written := by
    intro type
    cases type with
    | forward className =>
      by_cases hmade : className ∈ made <;> simp [resolveType, hmade, FieldType.written]
    | _ => rfl
  rw [rebuild, List.map_map]
  refine List.map_congr_left fun field _ => ?_
  simp only [Function.comp_apply, ModelField.statement, hwritten]

/-- Completing neither gives nor takes a meaning of another kind. -/
theorem resolveType_eq_ambient {type : FieldType} :
    resolveType made type = .ambient target known ↔ type = .ambient target known := by
  cases type with
  | forward className => by_cases hmade : className ∈ made <;> simp [resolveType, hmade]
  | _ => rfl

theorem exists_ambient_rebuild :
    (∃ field ∈ (m.rebuild made).fields, field.type = .ambient target known) ↔
      ∃ field ∈ m.fields, field.type = .ambient target known := by
  simp only [rebuild, List.mem_map, exists_exists_and_eq_and, resolveType_eq_ambient]

/-! ## Accepted models -/

/-- **An accepted model in writing** is what its definition asks for without the settings. -/
theorem statements_of_ofDefinition (h : ofDefinition made reserved d = .ok m) :
    m.fields.map ModelField.statement =
      (ClassModule.blockOf reserved d).fields.filter fun statement =>
        statement.attributeName ≠ settingsName := by
  obtain ⟨-, -, -, hfields⟩ := accepted_of_ofDefinition h
  rw [Loops.map_eq_of_mapM_ok (fun _ _ => statement_settle) hfields, ClassModule.blockOf,
    ← ClassModule.statement_attributesOf made, List.filter_map]
  rfl

/-- A type waits only for a class that is not made. -/
theorem notMem_of_typeIn_forward {origin : Field} (h : typeIn made origin = .forward target) :
    target ∉ made := by
  intro hmade
  cases hkind : origin.kind <;> simp only [typeIn, hkind, reduceCtorEq] at h
  split at h
  · cases h
  · rename_i hmissing
    cases h
    exact hmissing hmade

/-- Before it is settled no type has a meaning of another kind. -/
theorem typeIn_ne_ambient (made : List String) (origin : Field) :
    typeIn made origin ≠ .ambient target known := by
  intro h
  cases hkind : origin.kind <;> simp only [typeIn, hkind, reduceCtorEq] at h
  split at h <;> cases h

/-- A reference has a meaning of another kind because it had to wait and its class name has that
meaning already. -/
theorem meaning_of_ambient (h : ofDefinition made reserved d = .ok m) (hfield : field ∈ m.fields)
    (htype : field.type = .ambient target known) :
    target ∈ Models.references d ∧ target ∉ made ∧
      Meaning.within (Identifier.className d.name) (attributeNames reserved d) target =
        .ambient known := by
  have htarget : field.type.target? = some target := by rw [htype]; rfl
  obtain ⟨source, hsource, hsettle⟩ := (settled_of_ofDefinition h).2 field hfield
  obtain ⟨name, -, origin, -, rfl⟩ := exists_of_mem_attributesOf hsource
  refine ⟨(target_of_ofDefinition h hfield htarget).1, ?_⟩
  unfold settle at hsettle
  split at hsettle
  · rename_i waiting meant hwaits hmeaning
    cases hsettle
    cases htype
    rw [hwaits] at hmeaning
    exact ⟨notMem_of_typeIn_forward hwaits, hmeaning⟩
  · cases hsettle
  · cases hsettle
    exact absurd htype (typeIn_ne_ambient made origin)

/-- Conversely a reference that has to wait keeps every meaning that its class name has. -/
theorem awaited_of_not_ambient (h : ofDefinition made reserved d = .ok m)
    (hsettings : settingsName ∉ attributeNames reserved d)
    (hnone : ∀ field ∈ m.fields, ∀ known, field.type ≠ .ambient target known)
    (hreference : target ∈ Models.references d) (hmissing : target ∉ made) :
    Meaning.within (Identifier.className d.name) (attributeNames reserved d) target =
      .awaited := by
  obtain ⟨-, -, hbare, hfields⟩ := accepted_of_ofDefinition h
  obtain ⟨origin, horigin, hkind, hclass⟩ := Models.mem_references.1 hreference
  obtain ⟨name, hpair⟩ := exists_name_of_mem_supported reserved
    (mem_supported.2 ⟨horigin, by simp [hkind]⟩)
  have htype : (attributeOf made name origin).type = .forward target := by
    simp [attributeOf, typeIn, hkind, hclass, hmissing]
  have hsource : attributeOf made name origin ∈ attributesOf made reserved d :=
    List.mem_map_of_mem hpair
  -- The attribute is not the one that is left out, so it was settled.
  have hname : name ≠ settingsName := fun heq => hsettings (heq ▸ (List.of_mem_zip hpair).1)
  obtain ⟨field, hfield, hsettle⟩ := Loops.exists_step_of_mapM_ok hfields _
    (List.mem_filter.2 ⟨hsource, decide_eq_true hname⟩)
  have hoption := hbare _ hsource
  unfold settle at hsettle
  rw [htype] at hsettle hoption
  simp only [meaning] at hsettle hoption
  cases hmeaning : Meaning.within (Identifier.className d.name) (attributeNames reserved d)
    target with
  | awaited => rfl
  | ambient known =>
    rw [hmeaning] at hsettle
    cases hsettle
    exact absurd rfl (hnone _ hfield known)
  | bareOption => exact absurd hmeaning hoption
  | unchecked =>
    rw [hmeaning] at hsettle
    cases hsettle

end

end Model

namespace Models

variable {plan : Plan} {models : Models} {made rest : List String} {name target : String}
  {model : Model}

/-- No definition that counts has an attribute with the name of the settings, and each of its
references is to a class that is made before it or to one whose name means nothing else there. -/
def Undisturbed (plan : Plan) : Prop :=
  ∀ made name rest d, scheduled plan = made ++ name :: rest → lastNamed? plan name = some d →
    Model.settingsName ∉ Model.attributeNames (Assoc.keys (winners plan)) d ∧
      ∀ target ∈ references d, target ∈ made ∨
        Meaning.within (Identifier.className d.name)
          (Model.attributeNames (Assoc.keys (winners plan)) d) target = .awaited

/-- If nothing disturbs the models, a type that names a class is the model of this class. -/
theorem type_of_undisturbed (h : ofPlan plan = .ok models) (hundisturbed : Undisturbed plan)
    (hmodel : Assoc.get? name models = some model) {field : ModelField}
    (hfield : field ∈ model.fields) (htarget : field.type.target? = some target) :
    field.type = .model target ∧ target ∈ Assoc.keys models := by
  obtain ⟨final, -, hbuilt⟩ := built_of_ofPlan h
  obtain ⟨hkey, hwaits⟩ := (hbuilt.target name model hmodel).2 field hfield target htarget
  refine ⟨?_, hkey⟩
  have hother : ∀ known, field.type ≠ .ambient target known := by
    intro known htype
    obtain ⟨made, rest, d, draft, hsplit, hlast, hdraft, hcompleted⟩ := exists_stage h hmodel
    obtain ⟨source, hsource, hambient⟩ :
        ∃ source ∈ draft.fields, source.type = .ambient target known := by
      rcases hcompleted with rfl | rfl
      · exact ⟨field, hfield, htype⟩
      · exact Model.exists_ambient_rebuild.1 ⟨field, hfield, htype⟩
    obtain ⟨hreference, hmissing, hmeaning⟩ := Model.meaning_of_ambient hdraft hsource hambient
    rcases (hundisturbed made name rest d hsplit hlast).2 target hreference with hmade | hawaited
    · exact hmissing hmade
    · rw [hawaited] at hmeaning
      cases hmeaning
  cases htype : field.type with
  | model className =>
    rw [htype] at htarget
    cases htarget
    rfl
  | forward className =>
    rw [htype] at htarget
    cases htarget
    exact absurd htype hwaits
  | ambient className known =>
    rw [htype] at htarget
    cases htarget
    exact absurd htype (hother known)
  | _ =>
    rw [htype] at htarget
    cases htarget

end Models

namespace ClassModule

open Models (winners lastNamed? scheduled Undisturbed)

/-! ## Classes in source and models -/

/-- The class that a name stands for in a module: the last one, because it binds the name again. -/
def Module.classNamed? (m : Module) (name : String) : Option ClassBlock :=
  (m.classes.filter fun block => block.name = name).getLast?

/-- The line that an attribute would be declared on. -/
def declarationLine (field : ModelField) : String :=
  "    " ++ (field.attributeName ++ ": " ++ field.type.written ++ " = Field(" ++
    field.default.written ++ ", alias=" ++ Json.quote field.wireName ++ ")")

/-- The class `block` of the module `m` declares what `model` has. -/
structure Declares (m : Module) (models : Models) (block : ClassBlock) (model : Model) : Prop where
  /-- There is one statement for each attribute, in order, and it is the attribute in writing. -/
  fields : block.fields = model.fields.map ModelField.statement
  lines : ∀ field ∈ model.fields, declarationLine field ∈ m.lines
  /-- A type that names a class is the model of this class. -/
  types : ∀ field ∈ model.fields, ∀ target, field.type.target? = some target →
    field.type = .model target ∧ target ∈ Assoc.keys models

/-- The names of the classes of the module are those of the models, and the class that a name stands
for declares what the model of that name has. -/
def SourceAgrees (plan : Plan) (models : Models) : Prop :=
  ∃ m, Module.ofPlan plan = .ok m ∧ render plan = .ok m.text ∧
    (∀ name, (m.classNamed? name).isSome ↔ name ∈ Assoc.keys models) ∧
    ∀ name model, Assoc.get? name models = some model →
      ∃ block, m.classNamed? name = some block ∧ Declares m models block model

/-- No supported field is called like something that the module imports. -/
def ClearOfImports (plan : Plan) : Prop :=
  ∀ d ∈ plan.definitions, ∀ field ∈ d.supported,
    Identifier.attributeName field.identifier ∉ importedNames

section

variable {plan : Plan} {models : Models} {name : String} {model : Model} {d : Definition}

theorem declarationLine_eq (field : ModelField) :
    declarationLine field = "    " ++ field.statement.text := by
  simp only [declarationLine, FieldStatement.text, ModelField.statement]

theorem classNamed?_moduleOf (plan : Plan) (name : String) :
    (moduleOf plan).classNamed? name =
      (lastNamed? plan name).map (blockOf (reservedNames plan.definitions)) := by
  rw [Module.classNamed?, moduleOf, List.filter_map, List.getLast?_map]
  rfl

theorem map_attributeName_fields (reserved : List String) (d : Definition) :
    (blockOf reserved d).fields.map FieldStatement.attributeName =
      Model.attributeNames reserved d := by
  rw [blockOf, Model.attributesOf, List.map_map, List.map_map]
  exact List.map_fst_zip (Nat.le_of_eq (Model.length_attributeNames reserved d))

/-- Source and live models choose the same attributes. -/
theorem blockOf_reservedNames (hclear : ClearOfImports plan) (hd : d ∈ plan.definitions) :
    blockOf (reservedNames plan.definitions) d = blockOf (Assoc.keys (winners plan)) d := by
  have hnames : Model.attributeNames (reservedNames plan.definitions) d =
      Model.attributeNames (Assoc.keys (winners plan)) d := by
    refine Identifier.attributes_congr fun identifier hidentifier => ?_
    obtain ⟨field, hfield, rfl⟩ := List.mem_map.1 hidentifier
    rw [reservedNames, List.mem_append, or_iff_left (hclear d hd field hfield),
      Models.mem_keys_winners, List.mem_map]
  simp only [blockOf, Model.attributesOf, hnames]

/-- The class that a name stands for is that of the definition that counts. -/
theorem classNamed?_of_last (hclear : ClearOfImports plan) (hlast : lastNamed? plan name = some d) :
    (moduleOf plan).classNamed? name = some (blockOf (Assoc.keys (winners plan)) d) := by
  rw [classNamed?_moduleOf, hlast, Option.map_some,
    blockOf_reservedNames hclear (Models.mem_of_lastNamed? hlast).1]

/-- **A live model, in writing, is the class in source without its settings.** -/
theorem statements_of_built (hmodels : Models.ofPlan plan = .ok models)
    (hmodel : Assoc.get? name models = some model) (hlast : lastNamed? plan name = some d) :
    model.fields.map ModelField.statement =
      (blockOf (Assoc.keys (winners plan)) d).fields.filter fun statement =>
        statement.attributeName ≠ Model.settingsName := by
  obtain ⟨made, rest, d', draft, -, hlast', hdraft, hcompleted⟩ :=
    Models.exists_stage hmodels hmodel
  rw [hlast] at hlast'
  cases hlast'
  rw [← Model.statements_of_ofDefinition hdraft]
  rcases hcompleted with rfl | rfl
  · rfl
  · exact Model.statements_rebuild _ draft

/-! ## Agreement -/

/-- The names of the classes are those of the models. -/
theorem isSome_classNamed?_iff (hmodels : Models.ofPlan plan = .ok models) :
    ((moduleOf plan).classNamed? name).isSome ↔ name ∈ Assoc.keys models := by
  obtain ⟨final, -, hbuilt⟩ := Models.built_of_ofPlan hmodels
  rw [classNamed?_moduleOf, Option.isSome_map, Models.isSome_lastNamed?, hbuilt.mem_keys]

/-- The class in source has an attribute with the name of the settings if its definition asks for
one. -/
theorem filter_settings_eq_self_iff (reserved : List String) (d : Definition) :
    ((blockOf reserved d).fields.filter fun statement =>
        statement.attributeName ≠ Model.settingsName) = (blockOf reserved d).fields ↔
      Model.settingsName ∉ Model.attributeNames reserved d := by
  rw [List.filter_eq_self, ← map_attributeName_fields reserved d]
  constructor
  · intro h hmem
    obtain ⟨statement, hstatement, hname⟩ := List.mem_map.1 hmem
    exact of_decide_eq_true (h statement hstatement) hname
  · intro h statement hstatement
    refine decide_eq_true fun hname => h ?_
    rw [← hname]
    exact List.mem_map_of_mem hstatement

/-- Where source and live models agree, nothing disturbs the models. -/
theorem undisturbed_of_sourceAgrees (hmodels : Models.ofPlan plan = .ok models)
    (hclear : ClearOfImports plan) (h : SourceAgrees plan models) : Undisturbed plan := by
  intro made name rest d hsplit hlast
  obtain ⟨m, hm, -, -, hall⟩ := h
  rw [ofPlan_eq] at hm
  cases hm
  obtain ⟨d', draft, model, hlast', hdraft, hmodel, hcompleted⟩ :=
    Models.model_of_stage hmodels hsplit
  rw [hlast] at hlast'
  cases hlast'
  obtain ⟨block, hblock, hdeclares⟩ := hall name model hmodel
  have hstatements := statements_of_built hmodels hmodel hlast
  rw [classNamed?_of_last hclear hlast] at hblock
  cases hblock
  rw [← hdeclares.fields] at hstatements
  -- What is left out of the class in source is nothing.
  have hsettings := (filter_settings_eq_self_iff _ d).1 hstatements.symm
  refine ⟨hsettings, fun target htarget => ?_⟩
  by_cases hmade : target ∈ made
  · exact Or.inl hmade
  refine Or.inr (Model.awaited_of_not_ambient hdraft hsettings ?_ htarget hmade)
  intro source hsource known hambient
  obtain ⟨field, hfield, htype⟩ : ∃ field ∈ model.fields, field.type = .ambient target known := by
    rcases hcompleted with rfl | rfl
    · exact ⟨source, hsource, hambient⟩
    · exact Model.exists_ambient_rebuild.2 ⟨source, hsource, hambient⟩
  have hnamed : field.type.target? = some target := by rw [htype]; rfl
  have hmodelType := (hdeclares.types field hfield target hnamed).1
  rw [htype] at hmodelType
  cases hmodelType

/-- Where nothing disturbs the models, source and live models agree. -/
theorem sourceAgrees_of_undisturbed (hmodels : Models.ofPlan plan = .ok models)
    (hclear : ClearOfImports plan) (h : Undisturbed plan) : SourceAgrees plan models := by
  refine ⟨moduleOf plan, ofPlan_eq plan, render_eq plan,
    fun name => isSome_classNamed?_iff hmodels, fun name model hmodel => ?_⟩
  obtain ⟨made, rest, d, -, hsplit, hlast, -, -⟩ := Models.exists_stage hmodels hmodel
  have hd := (Models.mem_of_lastNamed? hlast).1
  have hfields : (blockOf (Assoc.keys (winners plan)) d).fields =
      model.fields.map ModelField.statement := by
    rw [statements_of_built hmodels hmodel hlast]
    exact ((filter_settings_eq_self_iff _ d).2 (h made name rest d hsplit hlast).1).symm
  refine ⟨_, classNamed?_of_last hclear hlast, hfields, fun field hfield => ?_,
    fun field hfield target => Models.type_of_undisturbed hmodels h hmodel hfield⟩
  have hclass : blockOf (Assoc.keys (winners plan)) d ∈ (moduleOf plan).classes := by
    rw [← blockOf_reservedNames hclear hd]
    exact List.mem_map_of_mem hd
  have hstatement : field.statement ∈ (blockOf (Assoc.keys (winners plan)) d).fields := by
    rw [hfields]
    exact List.mem_map_of_mem hfield
  rw [declarationLine_eq]
  exact line_mem_lines hclass hstatement

/-- **When source and live models agree.** In any case what a live model has is what the last class
of its name declares in source, without an attribute that has the name of the settings. They agree
in everything exactly if no attribute has this name and no reference that has to wait for its model
finds a meaning of another kind. -/
theorem source_agrees_iff {plan : Plan} {models : Models} (hmodels : Models.ofPlan plan = .ok models)
    (hclear : ClearOfImports plan) :
    (∃ m, Module.ofPlan plan = .ok m ∧
        ∀ name model, Assoc.get? name models = some model →
          ∃ block, m.classNamed? name = some block ∧
            model.fields.map ModelField.statement =
              block.fields.filter fun statement =>
                statement.attributeName ≠ Model.settingsName) ∧
      (SourceAgrees plan models ↔ Undisturbed plan) := by
  refine ⟨⟨moduleOf plan, ofPlan_eq plan, fun name model hmodel => ?_⟩,
    undisturbed_of_sourceAgrees hmodels hclear, sourceAgrees_of_undisturbed hmodels hclear⟩
  obtain ⟨-, -, d, -, -, hlast, -, -⟩ := Models.exists_stage hmodels hmodel
  exact ⟨_, classNamed?_of_last hclear hlast, statements_of_built hmodels hmodel hlast⟩

end

/-- Two types with one class name, the second of which has fields that become one attribute and
refers to itself, and a type that refers to it. -/
def household : Plan :=
  { root := "Person"
    definitions :=
      [{ name := "postal address"
         fields := [{ wireName := "street", identifier := "Street", kind := .string }] },
       { name := "PostalAddress"
         fields :=
           [{ wireName := "postal-code", identifier := "Postal-code", kind := .number },
            { wireName := "postal code", identifier := "Postal code", kind := .string },
            { wireName := "moved", identifier := "Moved", kind := .objectReference
              reference := "PostalAddress" }] },
       { name := "Person"
         fields :=
           [{ wireName := "home", identifier := "Home", kind := .objectReference
              reference := "postal address" },
            { wireName := "spouse", identifier := "Spouse", kind := .unsupported },
            { wireName := "tags", identifier := "Tags", kind := .stringArray }] }] }

/-- The live models of the household agree with its source. -/
theorem source_agrees_iff_household :
    ∃ models, Models.ofPlan household = .ok models ∧ ClearOfImports household ∧
      SourceAgrees household models := by
  have hkeys : Assoc.keys (Models.winners household) = ["PostalAddress", "Person"] := by decide
  have hplain : ∀ d ∈ household.definitions,
      (∀ target ∈ Models.references d, Meaning.within (Identifier.className d.name)
        (Model.attributeNames ["PostalAddress", "Person"] d) target = .awaited) ∧
      Model.refusedName ∉ Model.attributeNames ["PostalAddress", "Person"] d ∧
      (∀ name ∈ Model.attributeNames ["PostalAddress", "Person"] d,
        name ∉ Model.protectedNames) ∧
      Model.settingsName ∉ Model.attributeNames ["PostalAddress", "Person"] d := by decide
  have hdefined : ∀ d ∈ household.definitions, ∀ target ∈ Models.references d,
      ∃ other ∈ household.definitions, Identifier.className other.name = target := by decide
  have hclear : ClearOfImports household := by
    unfold ClearOfImports
    decide
  have haccepted : ∀ name d, lastNamed? household name = some d → ∀ made,
      ∃ m, Model.ofDefinition made (Assoc.keys (Models.winners household)) d = .ok m := by
    intro name d hlast made
    obtain ⟨hawaited, hrefused, hprotected, hsettings⟩ :=
      hplain d (Models.mem_of_lastNamed? hlast).1
    rw [hkeys]
    exact ⟨_, Model.ofDefinition_of_awaited (fun target htarget => Or.inr (hawaited target htarget))
      hrefused hprotected hsettings⟩
  have hundisturbed : Undisturbed household := by
    intro made name rest d _ hlast
    obtain ⟨hawaited, -, -, hsettings⟩ := hplain d (Models.mem_of_lastNamed? hlast).1
    rw [hkeys]
    exact ⟨hsettings, fun target htarget => Or.inr (hawaited target htarget)⟩
  obtain ⟨models, hmodels⟩ := Models.exists_ofPlan_of_accepted haccepted hdefined
  exact ⟨models, hmodels, hclear, (source_agrees_iff hmodels hclear).2.2 hundisturbed⟩

/-- A type with a field that is called like the settings of its class. -/
def device : Plan :=
  { root := "Device"
    definitions :=
      [{ name := "Device"
         fields := [{ wireName := "config", identifier := "model_config", kind := .string }] }] }

/-- The live model of this type lacks what its source declares. -/
theorem source_of_device_declares_more :
    ∃ models, Models.ofPlan device = .ok models ∧ ClearOfImports device ∧
      ¬ SourceAgrees device models := by
  have hkeys : Assoc.keys (Models.winners device) = ["Device"] := by decide
  have hclear : ClearOfImports device := by
    unfold ClearOfImports
    decide
  have hdefined : ∀ d ∈ device.definitions, ∀ target ∈ Models.references d,
      ∃ other ∈ device.definitions, Identifier.className other.name = target := by decide
  have haccepted : ∀ name d, lastNamed? device name = some d → ∀ made,
      ∃ m, Model.ofDefinition made (Assoc.keys (Models.winners device)) d = .ok m := by
    intro name d hlast made
    have hd := (Models.mem_of_lastNamed? hlast).1
    rw [device, List.mem_singleton] at hd
    subst hd
    rw [hkeys]
    exact ⟨{ name := "Device", fields := [] }, rfl⟩
  obtain ⟨models, hmodels⟩ := Models.exists_ofPlan_of_accepted haccepted hdefined
  refine ⟨models, hmodels, hclear, fun h => ?_⟩
  have hscheduled : "Device" ∈ scheduled device :=
    Models.mem_scheduled.2 (Or.inl ⟨_, List.mem_cons_self, by decide⟩)
  obtain ⟨made, rest, hsplit⟩ := List.append_of_mem hscheduled
  have hlast : lastNamed? device "Device" = device.definitions.head? := by decide
  have hsettings :=
    (undisturbed_of_sourceAgrees hmodels hclear h made "Device" rest _ hsplit hlast).1
  rw [hkeys] at hsettings
  exact hsettings (by decide)

end ClassModule

end SampleTypes
