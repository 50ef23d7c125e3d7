import SampleTypes.Fault
import SampleTypes.Plan

/-!
# Outlines

A plan as blocks that belong to no programming language: one block for each type, one line for
each field, skipped fields as comments. Blocks stand in the order of the plan.
-/

namespace SampleTypes.Outline

/-- The type of a field in an outline. -/
def fieldType (field : Field) : Except Fault String :=
  match field.kind with
  | .string => .ok "string"
  | .number => .ok "number"
  | .boolean => .ok "boolean"
  | .stringArray => .ok "[string]"
  | .numberArray => .ok "[number]"
  | .objectReference => .ok ("optional " ++ field.reference)
  | .unsupported =>
    .error (.unreachable "no outline type for field kind" [("kind", .shown field.kind.shown)])

/-- The line of a field: its type and its name on the wire, or why it was skipped. -/
def fieldLine (field : Field) : Except Fault String :=
  if field.kind = .unsupported then
    .ok ("  // skipped: " ++ field.wireName ++ " (" ++ field.note ++ ")")
  else
    (fieldType field).map fun type =>
      "  " ++ field.identifier ++ ": " ++ type ++ "  // wire-name: " ++ field.wireName

/-- The block of a type. -/
def block (d : Definition) : Except Fault String := do
  let lines ← d.fields.mapM fieldLine
  return "\n".intercalate (("type " ++ d.name ++ " \x7b") :: lines ++ ["\x7d"])

/-- The outline of a plan. -/
def render (plan : Plan) : Except Fault String := do
  let blocks ← plan.definitions.mapM block
  return "\n\n".intercalate blocks ++ "\n"

/-- Every field has a line: the only kind without a type is written as a comment. -/
theorem fieldLine_isOk (field : Field) : ∃ line, fieldLine field = .ok line := by
  unfold fieldLine fieldType
  cases field.kind <;> exact ⟨_, rfl⟩

end SampleTypes.Outline
