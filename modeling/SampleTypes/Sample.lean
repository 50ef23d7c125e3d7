import SampleTypes.Json.Value

/-!
# Kinds of sample values

Types are synthesized from the kinds of the values in a sample and never from their contents.
Every value has exactly one kind; `null`, and any value that no document can hold, is unsupported.
-/

namespace SampleTypes

/-- The kinds of values. -/
inductive ValueKind where
  | string
  | number
  | boolean
  | array
  | object
  | unsupported
  deriving DecidableEq, Repr

/-- The word for a kind in messages and answers. -/
def ValueKind.label : ValueKind → String
  | .string => "string"
  | .number => "number"
  | .boolean => "boolean"
  | .array => "array"
  | .object => "object"
  | .unsupported => "unsupported"

/-- The kind of a document value. -/
def Json.Value.kind : Json.Value → ValueKind
  | .null => .unsupported
  | .bool _ => .boolean
  | .int _ => .number
  | .float _ => .number
  | .string _ => .string
  | .array _ => .array
  | .object _ => .object

/-- The word for a document value in warnings: `null` is named, all others go by their kind. -/
def Json.Value.describe : Json.Value → String
  | .null => "null"
  | value => value.kind.label

/-- A value offered for classification: one of a document, or one of a foreign class. -/
inductive Specimen where
  | document (value : Json.Value)
  | foreign (className : String)

/-- The kind of a specimen. -/
def Specimen.kind : Specimen → ValueKind
  | .document value => value.kind
  | .foreign _ => .unsupported

/-- The word for a specimen: a foreign value goes by the name of its class. -/
def Specimen.describe : Specimen → String
  | .document value => value.describe
  | .foreign className => className

end SampleTypes
