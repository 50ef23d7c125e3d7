import SampleTypes.Plan

/-!
# The registry of a walk

One registry accumulates the hoisted types and the warnings of the walk over one document. Types
are appended in order of discovery and never removed, so a type is addressed by its place; several
of them may share a name.

## Main results

* `definitions_openType`, `definitions_addFields`: what the operations do to the definitions.
* `definitions_warn`, `warnings_warn`: a warning leaves the definitions alone.
-/

namespace SampleTypes

/-- The types and warnings collected so far. -/
structure Registry where
  definitions : List Definition := []
  warnings : List String := []
  deriving DecidableEq, Repr

namespace Registry

/-- The place that the next type will have. -/
def nextPlace (r : Registry) : Nat :=
  r.definitions.length

/-- Appends a type without fields. -/
def openType (name : String) (r : Registry) : Registry :=
  { r with definitions := r.definitions ++ [{ name := name }] }

/-- Adds fields to the type at a place. -/
def addFields (place : Nat) (fields : List Field) (r : Registry) : Registry :=
  { r with
    definitions := r.definitions.modify place fun d => { d with fields := d.fields ++ fields } }

/-- Appends a warning. -/
def warn (message : String) (r : Registry) : Registry :=
  { r with warnings := r.warnings ++ [message] }

/-- The names of the types in order. -/
def names (r : Registry) : List String :=
  r.definitions.map Definition.name

@[simp] theorem definitions_openType (name : String) (r : Registry) :
    (r.openType name).definitions = r.definitions ++ [{ name := name }] := rfl

@[simp] theorem warnings_openType (name : String) (r : Registry) :
    (r.openType name).warnings = r.warnings := rfl

@[simp] theorem definitions_warn (message : String) (r : Registry) :
    (r.warn message).definitions = r.definitions := rfl

@[simp] theorem warnings_warn (message : String) (r : Registry) :
    (r.warn message).warnings = r.warnings ++ [message] := rfl

@[simp] theorem warnings_addFields (place : Nat) (fields : List Field) (r : Registry) :
    (r.addFields place fields).warnings = r.warnings := rfl

theorem definitions_addFields (place : Nat) (fields : List Field) (r : Registry) :
    (r.addFields place fields).definitions =
      r.definitions.modify place fun d => { d with fields := d.fields ++ fields } := rfl

@[simp] theorem names_addFields (place : Nat) (fields : List Field) (r : Registry) :
    (r.addFields place fields).names = r.names := by
  simp only [names, addFields]
  generalize r.definitions = definitions
  induction definitions generalizing place with
  | nil => simp
  | cons d rest ih => cases place <;> simp_all

end Registry

end SampleTypes
