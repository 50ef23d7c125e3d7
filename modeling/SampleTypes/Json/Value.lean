import SampleTypes.Decimal.Binary64

/-!
# Documents

The values of a JSON document. Whole numbers and decimals are told apart by how they are written,
so `1` and `1.0` are different values. An object is its members in document order: the order is
part of the value, because types are synthesized in the order in which properties are met.
-/

namespace SampleTypes.Json

open SampleTypes.Decimal (Binary64)

/-- A JSON value. -/
inductive Value where
  | null
  | bool (value : Bool)
  | int (value : Int)
  | float (value : Binary64)
  | string (value : String)
  | array (items : List Value)
  | object (members : List (String × Value))
  deriving Inhabited, Repr

/-- The members of an object, in document order. -/
abbrev Members := List (String × Value)

/-- Induction over the objects of a document: what holds of every other value, and of an object
when it holds of the values of its members, holds of all values. The items of an array give no
hypothesis, because no walk ever enters one. -/
@[elab_as_elim]
theorem Value.memberInduction {motive : Value → Prop}
    (leaf : ∀ value, (∀ members, value ≠ .object members) → motive value)
    (object : ∀ members : Members, (∀ member ∈ members, motive member.2) →
      motive (.object members)) (value : Value) : motive value := by
  match value with
  | .object members =>
    exact object members fun member _ => memberInduction leaf object member.2
  | .null => exact leaf _ fun _ => Value.noConfusion
  | .bool _ => exact leaf _ fun _ => Value.noConfusion
  | .int _ => exact leaf _ fun _ => Value.noConfusion
  | .float _ => exact leaf _ fun _ => Value.noConfusion
  | .string _ => exact leaf _ fun _ => Value.noConfusion
  | .array _ => exact leaf _ fun _ => Value.noConfusion
termination_by sizeOf value
decreasing_by
  rename_i h
  have hlt := List.sizeOf_lt_of_mem h
  rcases member with ⟨key, value⟩
  simp only [Prod.mk.sizeOf_spec, Value.object.sizeOf_spec] at hlt ⊢
  omega

end SampleTypes.Json
