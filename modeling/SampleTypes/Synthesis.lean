import SampleTypes.Fault
import SampleTypes.Json.Reader
import SampleTypes.Resolution

/-!
# From a sample to a plan

A sample is read, must be an object, and is walked once. Its plan lists the hoisted types in order
of discovery and then the root.
-/

namespace SampleTypes

/-- The key that makes a type of a nested object unless another one is configured. -/
def defaultDiscriminator : String := "@type"

/-- The fault of a text that is not a document; `source` says where the text came from. -/
def Json.ReadError.fault (source : String) : Json.ReadError → Fault
  | .malformed cause line column => .malformedSample cause.message line column source
  | .longInteger digits => .longInteger digits

/-- The document that a sample writes. -/
def readSample (text source : String) : Except Fault Json.Value :=
  (Json.read text).mapError (Json.ReadError.fault source)

/-- The plan of an object with these members. -/
def planOfMembers (discriminator root : String) (members : List (String × Json.Value)) : Plan :=
  let (fields, registry) := resolveObject discriminator "" "$" "" members {}
  { root := root
    definitions := registry.definitions ++ [{ name := root, fields := fields }]
    warnings := registry.warnings }

/-- The plan of a document. -/
def planOfDocument (discriminator root source : String) (document : Json.Value) :
    Except Fault Plan :=
  match document with
  | .object members => .ok (planOfMembers discriminator root members)
  | other => .error (.unsupportedRoot other.describe source)

/-- The plan of a sample. -/
def synthesize (discriminator root source text : String) : Except Fault Plan :=
  (readSample text source).bind (planOfDocument discriminator root source)

theorem root_planOfMembers (discriminator root : String) (members : List (String × Json.Value)) :
    (planOfMembers discriminator root members).root = root := rfl

theorem getLast?_planOfMembers (discriminator root : String)
    (members : List (String × Json.Value)) :
    ((planOfMembers discriminator root members).definitions.getLast?).map Definition.name =
      some root := by
  simp [planOfMembers]

end SampleTypes
