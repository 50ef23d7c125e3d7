import SampleTypes.ClassModule
import SampleTypes.Proofs.Models.Attributes

/-!
# The module of a plan in closed form

A module is chosen by loops that may fail, but they fail only on a field that is not supported, and
such a field never reaches them. So every plan has a module, and each of its classes is a list of
statements that can be written down.

The statements are those of the attributes that a live model starts from. Two tables say what the
kind of a field becomes, one for live models and one for modules; they are compared once, here, and
then a statement is an attribute in writing.

## Main results

* `fieldStatement_eq`: a statement is a live attribute in writing, whatever models are made.
* `ofPlan_eq`, `render_eq`: the module of a plan and its text.
* `line_mem_lines`: each statement is a line of the module.
-/

namespace SampleTypes

/-- A default as it is written. -/
def Default.written : Default → String
  | .emptyText => "\"\""
  | .zero => "0"
  | .off => "False"
  | .emptyList => "default_factory=list"
  | .nothing => "None"

/-- The statement that declares an attribute. -/
def ModelField.statement (field : ModelField) : ClassModule.FieldStatement :=
  { attributeName := field.attributeName, typeText := field.type.written,
    initial := field.default.written, wireName := field.wireName }

namespace ClassModule

/-- The class of a type whose attributes keep clear of `reserved`. -/
def blockOf (reserved : List String) (d : Definition) : ClassBlock :=
  { name := Identifier.className d.name
    base := baseName
    documentation := String.ofList (documentationChars (documentation d).toList)
    fields := (Model.attributesOf [] reserved d).map ModelField.statement }

/-- The module of a plan, written without loops. -/
def moduleOf (plan : Plan) : Module :=
  { imports := neededImports plan.definitions
    classes := plan.definitions.map (blockOf (reservedNames plan.definitions)) }

section

variable {reserved : List String} {d : Definition} {field : Field}

/-- A type is written in one way, whether the class that it names is made or not. -/
theorem written_typeIn (made made' : List String) (field : Field) :
    (Model.typeIn made field).written = (Model.typeIn made' field).written := by
  have hreference : ∀ made : List String, field.kind = .objectReference →
      (Model.typeIn made field).written =
        "Optional[" ++ Identifier.className field.reference ++ "]" := by
    intro made hkind
    by_cases hmade : Identifier.className field.reference ∈ made <;>
      simp [Model.typeIn, hkind, hmade, FieldType.written]
  cases hkind : field.kind
  case objectReference => rw [hreference made hkind, hreference made' hkind]
  all_goals simp only [Model.typeIn, hkind]

/-- The tables of live models and of modules agree. -/
theorem typing_eq (made : List String) (h : field.kind ≠ .unsupported) :
    typing field =
      .ok ((Model.typeIn made field).written, (Model.defaultOf field.kind).written) := by
  rw [written_typeIn made []]
  cases hkind : field.kind <;>
    simp_all [typing, Model.typeIn, Model.defaultOf, FieldType.written, Default.written]

/-- **A statement is a live attribute in writing**, whatever models are made. -/
theorem fieldStatement_eq (made : List String) (name : String) (h : field.kind ≠ .unsupported) :
    fieldStatement name field = .ok (Model.attributeOf made name field).statement := by
  rw [fieldStatement, typing_eq made h]
  rfl

theorem statement_attributesOf (made : List String) (reserved : List String) (d : Definition) :
    (Model.attributesOf made reserved d).map ModelField.statement =
      (Model.attributesOf [] reserved d).map ModelField.statement := by
  unfold Model.attributesOf
  rw [List.map_map, List.map_map]
  refine List.map_congr_left fun pair _ => ?_
  simp only [Function.comp_apply, ModelField.statement, Model.attributeOf,
    written_typeIn made [] pair.2]

/-- The statements of a class go with its supported fields, one with each. -/
theorem forall₂_statements_iff {R : Field → FieldStatement → Prop} :
    List.Forall₂ R d.supported (blockOf reserved d).fields ↔
      ∀ pair ∈ (Model.attributeNames reserved d).zip d.supported,
        R pair.2 (Model.attributeOf [] pair.1 pair.2).statement := by
  have hfields : (blockOf reserved d).fields =
      ((Model.attributeNames reserved d).zip d.supported).map
        fun pair => (Model.attributeOf [] pair.1 pair.2).statement := List.map_map
  have hsupported := Model.map_snd_named reserved d
  rw [hfields]
  generalize (Model.attributeNames reserved d).zip d.supported = named at hsupported ⊢
  rw [← hsupported, List.forall₂_map_right_iff, List.forall₂_map_left_iff, List.forall₂_same]

theorem classBlock_eq (reserved : List String) (d : Definition) :
    classBlock reserved d = .ok (blockOf reserved d) := by
  have hfields : ((Model.attributeNames reserved d).zip d.supported).mapM
      (fun pair => fieldStatement pair.1 pair.2) = .ok (blockOf reserved d).fields := by
    rw [blockOf, Model.attributesOf, List.map_map]
    refine Loops.mapM_eq_ok_map fun pair hpair => fieldStatement_eq [] pair.1 ?_
    exact (Model.mem_supported.1 (List.of_mem_zip hpair).2).2
  rw [Model.attributeNames] at hfields
  unfold classBlock
  simp only [hfields]
  rfl

/-- **Every plan has a module.** -/
theorem ofPlan_eq (plan : Plan) : Module.ofPlan plan = .ok (moduleOf plan) := by
  have hclasses : plan.definitions.mapM (classBlock (reservedNames plan.definitions)) =
      .ok (moduleOf plan).classes :=
    Loops.mapM_eq_ok_map fun d _ => classBlock_eq _ d
  unfold Module.ofPlan
  rw [hclasses]
  rfl

theorem render_eq (plan : Plan) : render plan = .ok (moduleOf plan).text := by
  rw [render, ofPlan_eq]
  rfl

/-- **Each statement is a line of the module.** -/
theorem line_mem_lines {m : Module} {block : ClassBlock} {statement : FieldStatement}
    (hblock : block ∈ m.classes) (hstatement : statement ∈ block.fields) :
    "    " ++ statement.text ∈ m.lines := by
  have hsome : block.fields.isEmpty = false := by
    rw [List.isEmpty_eq_false_iff]
    exact List.ne_nil_of_mem hstatement
  have hline : "    " ++ statement.text ∈ block.lines := by
    unfold ClassBlock.lines
    rw [hsome]
    exact List.mem_append_right _ (List.mem_cons_of_mem _ (List.mem_map_of_mem hstatement))
  unfold Module.lines
  refine List.mem_cons_of_mem _ (List.mem_cons_of_mem _ (List.mem_flatMap.2 ⟨block, hblock, ?_⟩))
  exact List.mem_cons_of_mem _ (List.mem_cons_of_mem _ hline)

end

end ClassModule

end SampleTypes
