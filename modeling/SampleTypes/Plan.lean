/-!
# Plans

What is synthesized from a sample: the definitions of its types, flat and in order of discovery
with the root last, and the warnings that the walk gave. A field keeps the key it stands for, the
identifier made from it, its kind and the path where it was found.

A plan may also be put together by hand, so nothing here ties the parts to each other: a field of
any kind may carry a reference or a note, and names may repeat.
-/

namespace SampleTypes

/-- The kinds of fields. -/
inductive FieldKind where
  | string
  | number
  | boolean
  | stringArray
  | numberArray
  | objectReference
  | unsupported
  deriving DecidableEq, Repr

/-- The word for a kind of field in answers. -/
def FieldKind.label : FieldKind → String
  | .string => "string"
  | .number => "number"
  | .boolean => "boolean"
  | .stringArray => "string_array"
  | .numberArray => "number_array"
  | .objectReference => "object_reference"
  | .unsupported => "unsupported"

/-- All kinds of fields. -/
def FieldKind.all : List FieldKind :=
  [.string, .number, .boolean, .stringArray, .numberArray, .objectReference, .unsupported]

/-- The kind of field with this word. -/
def FieldKind.ofLabel? (label : String) : Option FieldKind :=
  FieldKind.all.find? fun kind => kind.label = label

/-- A kind of field as messages show it. -/
def FieldKind.shown : FieldKind → String
  | .string => "<FieldKind.STRING: 'string'>"
  | .number => "<FieldKind.NUMBER: 'number'>"
  | .boolean => "<FieldKind.BOOLEAN: 'boolean'>"
  | .stringArray => "<FieldKind.STRING_ARRAY: 'string_array'>"
  | .numberArray => "<FieldKind.NUMBER_ARRAY: 'number_array'>"
  | .objectReference => "<FieldKind.OBJECT_REFERENCE: 'object_reference'>"
  | .unsupported => "<FieldKind.UNSUPPORTED: 'unsupported'>"

/-- One field of a type. -/
structure Field where
  /-- The key in the document, and the name of the field on the wire. -/
  wireName : String
  /-- The name made from the key; not yet a legal attribute. -/
  identifier : String
  kind : FieldKind
  /-- The type that an object reference refers to. -/
  reference : String := ""
  /-- Where the property stands in the document. -/
  path : String := ""
  /-- Why an unsupported field was skipped. -/
  note : String := ""
  deriving DecidableEq, Repr

/-- A type with its fields in order. -/
structure Definition where
  name : String
  fields : List Field := []
  deriving DecidableEq, Repr

/-- The types synthesized from one sample. -/
structure Plan where
  root : String
  definitions : List Definition := []
  warnings : List String := []
  errors : List String := []
  deriving DecidableEq, Repr

/-- The first field with the given identifier. -/
def Definition.fieldNamed? (d : Definition) (identifier : String) : Option Field :=
  d.fields.find? fun field => field.identifier = identifier

/-- The fields that appear in code: all but the unsupported ones. -/
def Definition.supported (d : Definition) : List Field :=
  d.fields.filter fun field => field.kind ≠ .unsupported

/-- The fields that only a comment mentions. -/
def Definition.skipped (d : Definition) : List Field :=
  d.fields.filter fun field => field.kind = .unsupported

/-- The definition of the root, which always stands last. -/
def Plan.rootDefinition? (p : Plan) : Option Definition :=
  p.definitions.getLast?

/-- All definitions with the given name. -/
def Plan.definitionsNamed (p : Plan) (name : String) : List Definition :=
  p.definitions.filter fun d => d.name = name

theorem FieldKind.ofLabel?_label (kind : FieldKind) :
    FieldKind.ofLabel? kind.label = some kind := by
  cases kind <;> decide

end SampleTypes
