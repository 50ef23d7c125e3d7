import SampleTypes.Json.Printer
import SampleTypes.Plan

/-!
# Plans as documents

The form in which a plan is handed to other programs. It holds everything but the notes of the
fields, and an absent reference is `null`.
-/

namespace SampleTypes.Transport

open Json (Value)

/-- A list of texts. -/
def texts (items : List String) : Value :=
  .array (items.map .string)

/-- A text that is `null` when it is empty. -/
def textOrNull (s : String) : Value :=
  if s = "" then .null else .string s

/-- A field as a document. -/
def field (f : Field) : Value :=
  .object
    [("original_name", .string f.wireName), ("identifier", .string f.identifier),
     ("kind", .string f.kind.label), ("reference", textOrNull f.reference),
     ("path", .string f.path)]

/-- A type as a document. -/
def definition (d : Definition) : Value :=
  .object [("name", .string d.name), ("fields", .array (d.fields.map field))]

/-- A plan as a document. -/
def plan (p : Plan) : Value :=
  .object
    [("root", .string p.root), ("definitions", .array (p.definitions.map definition)),
     ("warnings", texts p.warnings), ("errors", texts p.errors)]

/-- The text of a plan for other programs. -/
def render (p : Plan) : String :=
  (plan p).indented ++ "\n"

end SampleTypes.Transport
