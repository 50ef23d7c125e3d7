import SampleTypes.Fault
import SampleTypes.Identifier
import SampleTypes.Json.Printer
import SampleTypes.Plan
import SampleTypes.Text.Order

/-!
# Modules of model classes

A plan as a Python module of pydantic models, in two steps: `Module.ofPlan` chooses what the module
says — its imports, its classes, their documentation and their fields — and `Module.text` writes it
down. What generated code means is settled by the first step; the second is layout.

Classes follow the order of the plan. Annotations are postponed, so references between classes
resolve by name.
-/

namespace SampleTypes.ClassModule

/-- An attribute with its type, its initial value and its name on the wire. -/
structure FieldStatement where
  attributeName : String
  typeText : String
  initial : String
  /-- The name of the field on the wire. -/
  wireName : String
  deriving DecidableEq, Repr

/-- A class statement. -/
structure ClassBlock where
  name : String
  base : String
  /-- The text between the quotes of the documentation, with its escapes. -/
  documentation : String
  fields : List FieldStatement
  deriving DecidableEq, Repr

/-- An import statement. -/
structure Import where
  source : String
  names : List String
  deriving DecidableEq, Repr

/-- A generated module. -/
structure Module where
  imports : List Import
  classes : List ClassBlock
  deriving DecidableEq, Repr

/-! ## What a module says -/

/-- The base of every class. -/
def baseName : String := "BaseModel"

/-- The names at module level that no attribute may shadow. -/
def importedNames : List String := ["BaseModel", "ConfigDict", "Field", "List", "Optional"]

/-- The type and the initial value of a field, as they are written. -/
def typing (field : Field) : Except Fault (String × String) :=
  match field.kind with
  | .string => .ok ("str", "\"\"")
  | .number => .ok ("float", "0")
  | .boolean => .ok ("bool", "False")
  | .stringArray => .ok ("List[str]", "default_factory=list")
  | .numberArray => .ok ("List[float]", "default_factory=list")
  | .objectReference =>
    .ok ("Optional[" ++ Identifier.className field.reference ++ "]", "None")
  | .unsupported =>
    .error (.unreachable "no python type for field kind" [("kind", .shown field.kind.shown)])

/-- The name that a field's annotation needs besides the built-in ones. -/
def typingName? (field : Field) : Option String :=
  match field.kind with
  | .objectReference => some "Optional"
  | .stringArray => some "List"
  | .numberArray => some "List"
  | _ => none

/-- The names that the annotations of all fields need, in order. -/
def typingNames (definitions : List Definition) : List String :=
  Text.Order.sortedDistinct (definitions.flatMap fun d => d.fields.filterMap typingName?)

/-- The imports of a module: postponed annotations, the needed typing names, the model names. -/
def neededImports (definitions : List Definition) : List Import :=
  let names := typingNames definitions
  [⟨"__future__", ["annotations"]⟩] ++
    (if names.isEmpty then [] else [⟨"typing", names⟩]) ++
    [⟨"pydantic", ["BaseModel", "ConfigDict", "Field"]⟩]

/-- The statement of a field under the chosen attribute. -/
def fieldStatement (attributeName : String) (field : Field) : Except Fault FieldStatement :=
  (typing field).map fun (type, initial) =>
    { attributeName := attributeName, typeText := type, initial := initial,
      wireName := field.wireName }

/-- A text that is safe between triple quotes: backslashes are doubled, and double quotes become
single ones. -/
def documentationChars (cs : List Char) : List Char :=
  cs.flatMap fun c => if c = '\\' then ['\\', '\\'] else if c = '"' then ['\''] else [c]

/-- What the documentation of a class says, before escapes: the type, then the skipped fields. -/
def documentation (d : Definition) : String :=
  let skipped := d.skipped.map fun field => field.wireName ++ " (" ++ field.note ++ ")"
  "Synthesized type " ++ d.name ++ "." ++
    (if skipped.isEmpty then "" else " Skipped: " ++ ", ".intercalate skipped ++ ".")

/-- The names that attributes must not take: the classes of the module and its imports. -/
def reservedNames (definitions : List Definition) : List String :=
  definitions.map (fun d => Identifier.className d.name) ++ importedNames

/-- The class of a type. -/
def classBlock (reserved : List String) (d : Definition) : Except Fault ClassBlock := do
  let names := Identifier.attributes reserved (d.supported.map Field.identifier)
  let fields ← (names.zip d.supported).mapM fun (name, field) => fieldStatement name field
  return { name := Identifier.className d.name
           base := baseName
           documentation := String.ofList (documentationChars (documentation d).toList)
           fields := fields }

/-- The module of a plan. -/
def Module.ofPlan (plan : Plan) : Except Fault Module := do
  let classes ← plan.definitions.mapM (classBlock (reservedNames plan.definitions))
  return { imports := neededImports plan.definitions, classes := classes }

/-! ## How it is written -/

/-- The first line of a generated module. -/
def header : String := "# Generated by ldsynth from a JSON-LD sample. Do not edit."

/-- An import statement. -/
def Import.text (i : Import) : String :=
  "from " ++ i.source ++ " import " ++ ", ".intercalate i.names

/-- A field statement. -/
def FieldStatement.text (s : FieldStatement) : String :=
  s.attributeName ++ ": " ++ s.typeText ++ " = Field(" ++ s.initial ++ ", alias=" ++
    Json.quote s.wireName ++ ")"

/-- The lines of a class: documentation, configuration, an empty line and the fields. -/
def ClassBlock.lines (c : ClassBlock) : List String :=
  ["class " ++ c.name ++ "(" ++ c.base ++ "):",
   "    \"\"\"" ++ c.documentation ++ "\"\"\"",
   "    model_config = ConfigDict(populate_by_name=True)"] ++
    (if c.fields.isEmpty then [] else "" :: c.fields.map fun s => "    " ++ s.text)

/-- The lines of a module: imports are one line apart, classes two. -/
def Module.lines (m : Module) : List String :=
  header :: "\n\n".intercalate (m.imports.map Import.text) ::
    m.classes.flatMap fun c => "" :: "" :: c.lines

/-- The text of a module. -/
def Module.text (m : Module) : String :=
  "\n".intercalate m.lines ++ "\n"

/-- The module of a plan as text. -/
def render (plan : Plan) : Except Fault String :=
  (Module.ofPlan plan).map Module.text

/-! ## A plan always has a module -/

theorem typing_isOk {field : Field} (h : field.kind ≠ .unsupported) :
    ∃ pair, typing field = .ok pair := by
  cases hk : field.kind <;> simp [typing, hk] at h ⊢

theorem fieldStatement_isOk {field : Field} (attributeName : String)
    (h : field.kind ≠ .unsupported) :
    ∃ statement, fieldStatement attributeName field = .ok statement := by
  obtain ⟨pair, hp⟩ := typing_isOk h
  refine ⟨⟨attributeName, pair.1, pair.2, field.wireName⟩, ?_⟩
  simp [fieldStatement, hp, Except.map]

end SampleTypes.ClassModule
