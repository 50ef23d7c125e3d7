import SampleTypes.Assoc
import SampleTypes.Fault
import SampleTypes.Identifier
import SampleTypes.Model.Ambient
import SampleTypes.Plan
import SampleTypes.Schedule

/-!
# Live models

The classes of a plan as data that documents can be checked against. Of several types with one
class name the last one counts. Models are made dependencies first; a model that refers to one not
yet made, because of a cycle, holds a forward reference at first and is completed at the end.

A reference that has to wait may have a meaning already (`Meaning`), which it then keeps. An
attribute cannot be called `Config` nor have one of the `protectedNames`, and one called
`model_config` is left out; no other name is special.
-/

namespace SampleTypes

/-- The types of attributes. -/
inductive FieldType where
  | text
  | number
  | flag
  | texts
  | numbers
  /-- An optional instance of the model of this name. -/
  | model (className : String)
  /-- An optional instance of a model that is not made yet. -/
  | forward (className : String)
  /-- An optional value of what a class name means without a model. -/
  | ambient (className : String) (meaning : Ambient)
  deriving DecidableEq, Repr

/-- The type as it is written. -/
def FieldType.written : FieldType → String
  | .text => "str"
  | .number => "float"
  | .flag => "bool"
  | .texts => "List[str]"
  | .numbers => "List[float]"
  | .model className => "Optional[" ++ className ++ "]"
  | .forward className => "Optional[" ++ className ++ "]"
  | .ambient className _ => "Optional[" ++ className ++ "]"

/-- The values of absent attributes. -/
inductive Default where
  | emptyText
  /-- The whole number zero. -/
  | zero
  | off
  | emptyList
  | nothing
  deriving DecidableEq, Repr

/-- An attribute of a model. -/
structure ModelField where
  attributeName : String
  /-- The name on the wire. -/
  wireName : String
  type : FieldType
  default : Default
  deriving DecidableEq, Repr

/-- A model: the attributes of instances, in order. -/
structure Model where
  name : String
  fields : List ModelField
  deriving DecidableEq, Repr

namespace Model

/-- The type and the default of a field, when the models in `made` exist. -/
def fieldSpec (made : List String) (field : Field) : Except Fault (FieldType × Default) :=
  match field.kind with
  | .string => .ok (.text, .emptyText)
  | .number => .ok (.number, .zero)
  | .boolean => .ok (.flag, .off)
  | .stringArray => .ok (.texts, .emptyList)
  | .numberArray => .ok (.numbers, .emptyList)
  | .objectReference =>
    let target := Identifier.className field.reference
    .ok (if target ∈ made then .model target else .forward target, .nothing)
  | .unsupported =>
    .error (.unreachable "unknown field kind" [("kind", .shown field.kind.shown)])

/-- The attribute of a field under its chosen name. -/
def modelField (made : List String) (attributeName : String) (field : Field) :
    Except Fault ModelField :=
  (fieldSpec made field).map fun (type, default) =>
    { attributeName := attributeName, wireName := field.wireName, type := type,
      default := default }

/-- The name that no attribute can have. -/
def refusedName : String := "Config"

/-- The names by which instances are checked and dumped. No attribute may hide them. -/
def protectedNames : List String :=
  ["model_dump", "model_dump_json", "model_validate", "model_validate_json",
   "model_validate_strings"]

/-- The name under which a class keeps its own settings. -/
def settingsName : String := "model_config"

/-- What the type of an attribute means inside the class `own` with the given attributes. -/
def meaning (own : String) (attributes : List String) : FieldType → Meaning
  | .forward target => .within own attributes target
  | _ => .awaited

/-- The attribute with the meaning that its type has already. -/
def settle (own : String) (attributes : List String) (field : ModelField) :
    Except Fault ModelField :=
  match field.type, meaning own attributes field.type with
  | .forward target, .ambient known => .ok { field with type := .ambient target known }
  | .forward target, .unchecked => .error (.uncheckedClass target)
  | _, _ => .ok field

/-- The model of one type. Attributes keep clear of the names in `reserved`. -/
def ofDefinition (made reserved : List String) (d : Definition) : Except Fault Model := do
  let own := Identifier.className d.name
  let names := Identifier.attributes reserved (d.supported.map Field.identifier)
  let fields ← (names.zip d.supported).mapM fun (name, field) => modelField made name field
  if refusedName ∈ names then .error .refusedAttribute
  else if fields.any fun field => meaning own names field.type = .bareOption then
    .error .bareOption
  else if let some hidden := names.find? (· ∈ protectedNames) then .error (.protectedName hidden)
  else
    let kept := fields.filter fun field => field.attributeName ≠ settingsName
    return { name := own, fields := ← kept.mapM (settle own names) }

/-- The type with every forward reference to a made model resolved. -/
def resolveType (made : List String) : FieldType → FieldType
  | .forward className => if className ∈ made then .model className else .forward className
  | type => type

/-- The model with its forward references resolved. -/
def rebuild (made : List String) (m : Model) : Model :=
  { m with fields := m.fields.map fun field => { field with type := resolveType made field.type } }

end Model

/-- The models of a plan by class name, in the order in which they were made. -/
abbrev Models := List (String × Model)

namespace Models

/-- For each class name the last definition that has it, in order of first occurrence. -/
def winners (plan : Plan) : List (String × Definition) :=
  Assoc.ofList (plan.definitions.map fun d => (Identifier.className d.name, d))

/-- The class names that a definition refers to. -/
def references (d : Definition) : List String :=
  Text.Order.distinct ((d.fields.filter fun field => field.kind = .objectReference).map
    fun field => Identifier.className field.reference)

/-- Which class needs which; a class does not wait for itself. -/
def graph (winners : List (String × Definition)) : Schedule.Graph :=
  winners.map fun (name, d) => (name, (references d).filter fun target => target ≠ name)

/-- Models under construction, and the names of those to be completed at the end. -/
structure Progress where
  models : Models := []
  deferred : List String := []
  deriving Repr

/-- Makes the model of one class. -/
def make (winners : List (String × Definition)) (remaining : List String) (progress : Progress)
    (name : String) : Except Fault Progress :=
  match Assoc.get? name winners with
  | none => .error (.unreachable "reference to an undefined type" [("name", .text name)])
  | some d => do
    let made := Assoc.keys progress.models
    let late := name ∈ remaining ∨ ¬ (references d).all (· ∈ made)
    let model ← Model.ofDefinition made (Assoc.keys winners) d
    return { models := Assoc.put name model progress.models
             deferred := if late then progress.deferred ++ [name] else progress.deferred }

/-- All models before forward references are resolved. -/
def drafts (plan : Plan) : Except Fault Progress :=
  let winners := winners plan
  let schedule := Schedule.ofGraph (graph winners)
  (schedule.order ++ schedule.remaining).foldlM (make winners schedule.remaining) {}

/-- Completes the models that were deferred. -/
def complete (progress : Progress) : Models :=
  let made := Assoc.keys progress.models
  progress.models.map fun (name, model) =>
    (name, if name ∈ progress.deferred then model.rebuild made else model)

/-- The models of a plan. -/
def ofPlan (plan : Plan) : Except Fault Models :=
  (drafts plan).map complete

/-- The model with the given class name. -/
def named (name : String) (models : Models) : Except Fault Model :=
  match Assoc.get? name models with
  | some model => .ok model
  | none => .error (.missingModel name)

/-- The class name of the root of a plan. -/
def rootName (plan : Plan) : String :=
  Identifier.className plan.root

end Models

end SampleTypes
