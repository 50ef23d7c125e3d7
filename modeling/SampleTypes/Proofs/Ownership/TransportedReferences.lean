import SampleTypes.Proofs.Ownership.Warnings
import SampleTypes.Proofs.Ownership.References
import SampleTypes.Transport

/-!
# References as other programs see them

Whoever receives the document of a plan knows a reference by its field: a text under "reference",
and "object_reference" under "kind". What it names is looked up among the types of the document.

An absent reference is written like an empty one. No field but a reference has a text there, so what
is not `null` can be relied on. The other way fails where a type is called by the empty text: such a
type stands in the document like any other, but the fields that refer to it look as if they referred
to nothing.

## Main results

* `reference_of_other_kind`: only references refer.
* `mem_fieldsIn_plan`: the fields of a document are those of the plan.
* `transported_reference_iff`: which fields are told by their reference.
* `reference_to_nameless_type`: a reference that is lost.
-/

namespace SampleTypes

open Json (Value Members)

section

variable {discriminator root : String} {document : Members} {f : Field}

/-- A property yields a reference or a field that refers to nothing. -/
theorem propertyField?_other {path key : String} {value : Value}
    (h : propertyField? discriminator path key value = some f)
    (hkind : f.kind ≠ .objectReference) : f.reference = "" := by
  unfold propertyField? at h
  split at h
  case h_10 members =>
    obtain ⟨declaration, -, rfl⟩ := Option.map_eq_some_iff.1 h
    exact absurd rfl hkind
  all_goals
    cases h
    try rfl

/-- **Only references refer**: all other fields of a plan have no text there. -/
theorem reference_of_other_kind {d : Definition}
    (hd : d ∈ (planOfMembers discriminator root document).definitions) (hf : f ∈ d.fields)
    (hkind : f.kind ≠ .objectReference) : f.reference = "" := by
  rw [definitions_eq_placed] at hd
  obtain ⟨placed, -, rfl⟩ := List.mem_map.1 hd
  obtain ⟨a, -, howned⟩ := List.mem_filterMap.1 hf
  unfold fieldOwned? at howned
  split at howned
  case isFalse => cases howned
  obtain ⟨member, -, hproperty⟩ := Option.bind_eq_some_iff.1 howned
  exact propertyField?_other hproperty hkind

end

namespace Transport

/-! ## Reading a document -/

/-- What an object says under a key. -/
def under? (key : String) : Value → Option Value
  | .object members => Assoc.get? key members
  | _ => none

/-- The items of the array that an object has under a key. -/
def itemsUnder (key : String) (v : Value) : List Value :=
  match under? key v with
  | some (.array items) => items
  | _ => []

/-- The fields of all types of a document. -/
def fieldsIn (dto : Value) : List Value :=
  (itemsUnder "definitions" dto).flatMap (itemsUnder "fields")

/-- A field of a document says that it is a reference. -/
def IsReference (field : Value) : Prop :=
  under? "kind" field = some (.string "object_reference")

/-- A field of a document refers to a type with the given name. -/
def RefersTo (field : Value) (name : String) : Prop :=
  under? "reference" field = some (.string name)

theorem itemsUnder_definitions (p : Plan) :
    itemsUnder "definitions" (plan p) = p.definitions.map definition := rfl

theorem under?_name (d : Definition) : under? "name" (definition d) = some (.string d.name) := rfl

theorem under?_reference (f : Field) :
    under? "reference" (field f) = some (textOrNull f.reference) := rfl

theorem isReference_iff (f : Field) : IsReference (field f) ↔ f.kind = .objectReference := by
  have hkind : under? "kind" (field f) = some (.string f.kind.label) := rfl
  rw [IsReference, hkind]
  cases f.kind <;> simp [FieldKind.label]

/-- An empty reference refers to nothing. -/
theorem refersTo_iff (f : Field) (name : String) :
    RefersTo (field f) name ↔ name ≠ "" ∧ f.reference = name := by
  rw [RefersTo, under?_reference, textOrNull]
  split
  · rename_i hempty
    rw [hempty]
    simp [eq_comm]
  · rename_i hsome
    simp only [Option.some.injEq, Value.string.injEq]
    exact ⟨fun h => ⟨h ▸ hsome, h⟩, fun h => h.2⟩

/-- The fields of a document are those of the plan. -/
theorem mem_fieldsIn_plan {p : Plan} {v : Value} :
    v ∈ fieldsIn (plan p) ↔ ∃ d ∈ p.definitions, ∃ f ∈ d.fields, field f = v := by
  have hfields : ∀ d : Definition, itemsUnder "fields" (definition d) = d.fields.map field :=
    fun d => rfl
  simp [fieldsIn, itemsUnder_definitions, hfields]

/-! ## References -/

variable {discriminator root : String} {document : Members}

/-- A field that refers to a name is a reference, and a type of the document has the name. -/
theorem exists_definition_of_refersTo {v : Value} {name : String}
    (hmem : v ∈ fieldsIn (plan (planOfMembers discriminator root document)))
    (hrefers : RefersTo v name) :
    IsReference v ∧ ∃ target ∈
      itemsUnder "definitions" (plan (planOfMembers discriminator root document)),
        under? "name" target = some (.string name) := by
  obtain ⟨d, hd, f, hf, rfl⟩ := mem_fieldsIn_plan.1 hmem
  obtain ⟨hsome, rfl⟩ := (refersTo_iff f name).1 hrefers
  have hkind : f.kind = .objectReference := by
    by_cases hkind : f.kind = .objectReference
    · exact hkind
    · exact absurd (reference_of_other_kind hd hf hkind) hsome
  obtain ⟨target, htarget, hname⟩ := exists_definition_of_reference hd hf hkind
  refine ⟨(isReference_iff f).2 hkind, definition target, List.mem_map_of_mem htarget, ?_⟩
  rw [under?_name, hname]

/-- **Which fields are told by their reference.** Whatever the sample, the name of its root and the
discriminator, each field of the transported plan has something under "reference": `null`, or a
text; and where it is a text, the field is a reference and a type of the same document has this
name. The fields that are references are exactly those with a text there if and only if no object of
the sample has become a type with the empty name. -/
theorem transported_reference_iff (discriminator root : String) (document : Members) :
    (∀ v ∈ fieldsIn (plan (planOfMembers discriminator root document)),
      under? "reference" v = some .null ∨ ∃ name, RefersTo v name ∧ IsReference v ∧
        ∃ target ∈ itemsUnder "definitions" (plan (planOfMembers discriminator root document)),
          under? "name" target = some (.string name)) ∧
    ((∀ v ∈ fieldsIn (plan (planOfMembers discriminator root document)),
      IsReference v ↔ under? "reference" v ≠ some .null) ↔
        ∀ hoisted ∈ hoistedTypes discriminator document, hoisted.2 ≠ "") := by
  have hreads : ∀ f : Field, under? "reference" (field f) = some .null ↔ f.reference = "" := by
    intro f
    rw [under?_reference, textOrNull]
    split
    · simp [*]
    · simp [*]
  refine ⟨fun v hv => ?_, fun hlaw hoisted hhoisted hname => ?_, fun hnames v hv => ?_⟩
  · obtain ⟨d, hd, f, hf, rfl⟩ := mem_fieldsIn_plan.1 hv
    by_cases hempty : f.reference = ""
    · exact Or.inl ((hreads f).2 hempty)
    · have hrefers : RefersTo (field f) f.reference := (refersTo_iff f _).2 ⟨hempty, rfl⟩
      exact Or.inr ⟨f.reference, hrefers, exists_definition_of_refersTo hv hrefers⟩
  -- The field that stands for an object with the empty name is a reference that reads `null`.
  · obtain ⟨key, members, -, hfield⟩ :=
      @fieldAt?_hoisted discriminator hoisted.2 "$" document hoisted.1 hhoisted
    obtain ⟨d, hd, hf⟩ := exists_definition_of_fieldAt? hfield root
    have hmem := mem_fieldsIn_plan.2 ⟨d, hd, _, hf, rfl⟩
    exact (hlaw _ hmem).1 ((isReference_iff _).2 rfl) ((hreads _).2 hname)
  · obtain ⟨d, hd, f, hf, rfl⟩ := mem_fieldsIn_plan.1 hv
    rw [isReference_iff, Ne, hreads]
    constructor
    · intro hkind
      rw [definitions_eq_placed] at hd
      obtain ⟨placed, -, rfl⟩ := List.mem_map.1 hd
      obtain ⟨o, ho, -⟩ := exists_hoisted_of_mem_ownedFields hf hkind
      exact hnames _ ho
    · intro hsome
      by_cases hkind : f.kind = .objectReference
      · exact hkind
      · exact absurd (reference_of_other_kind hd hf hkind) hsome

/-- The document `{"a": {"@type": "", "x": 1}}`. -/
def nameless : Members :=
  [("a", .object [("@type", .string ""), ("x", .int 1)])]

/-- A type is called by the empty text, and the field that refers to it has `null` there. -/
theorem reference_to_nameless_type :
    (∃ target ∈ itemsUnder "definitions" (plan (planOfMembers "@type" "Doc" nameless)),
      under? "name" target = some (.string "")) ∧
    ∃ v ∈ fieldsIn (plan (planOfMembers "@type" "Doc" nameless)),
      under? "original_name" v = some (.string "a") ∧ IsReference v ∧
        under? "reference" v = some .null := by
  have hplan : (planOfMembers "@type" "Doc" nameless).definitions =
      [{ name := ""
         fields :=
          [{ wireName := "@type", identifier := "Type", kind := .string, path := "$.a.@type" },
           { wireName := "x", identifier := "X", kind := .number, path := "$.a.x" }] },
       { name := "Doc"
         fields :=
          [{ wireName := "a", identifier := "A", kind := .objectReference, path := "$.a" }] }] := by
    decide +kernel
  have hroot := List.mem_of_getLast? (congrArg List.getLast? hplan)
  refine ⟨?_, ?_⟩
  · rw [itemsUnder_definitions, hplan]
    exact ⟨_, List.mem_cons_self, rfl⟩
  · exact ⟨_, mem_fieldsIn_plan.2 ⟨_, hroot, _, List.mem_cons_self, rfl⟩, rfl, rfl, rfl⟩

end Transport

end SampleTypes
