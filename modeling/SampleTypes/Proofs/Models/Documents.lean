import SampleTypes.Proofs.Models.Nesting

/-!
# Documents that say everything themselves

A document is faithful if nothing in it is lost or moved: no null, no array without an element type
or with elements of several types, no whole number beyond the doubles, and every object in it declares its
type first and stands under a key that has an identifier. Then nothing escapes from an object, so
its type has one field for each of its members, in order, and the plan lists the objects in document
order with the root behind them.

## Main results

* `surfaced_of_faithful`: a member of a faithful document gives one field.
* `definitions_of_faithful`: the definitions of a faithful document, read off the document.
* `classNames_of_faithful`: their class names.
-/

namespace SampleTypes

open Json (Value Members)

/-- Whole numbers that are doubles, and doubles. -/
inductive IsNumber : Value → Prop
  | int (n : Int) (small : n.natAbs < Nat.pow 2 53) : IsNumber (.int n)
  | float (x : Decimal.Binary64) : IsNumber (.float x)

/-- The keys under which objects stand have identifiers. -/
def Introduced (members : Members) : Prop :=
  ∀ key inner, (key, Value.object inner) ∈ members → key ≠ "" ∧ key ≠ "@"

/-- A value in which nothing is lost. -/
inductive Faithful (discriminator : String) : Value → Prop
  | string (s : String) : Faithful discriminator (.string s)
  | bool (b : Bool) : Faithful discriminator (.bool b)
  | number (value : Value) (isNumber : IsNumber value) : Faithful discriminator value
  | strings (first : String) (rest : List String) :
    Faithful discriminator (.array (.string first :: rest.map .string))
  | numbers (first : Value) (rest : List Value) (areNumbers : ∀ item ∈ first :: rest, IsNumber item) :
    Faithful discriminator (.array (first :: rest))
  | object (name : String) (rest : Members)
    (distinct : (Assoc.keys ((discriminator, .string name) :: rest)).Nodup)
    (introduced : Introduced rest) (faithful : ∀ member ∈ rest, Faithful discriminator member.2) :
    Faithful discriminator (.object ((discriminator, .string name) :: rest))

/-- A document in which nothing is lost. Its root needs no declaration. -/
structure FaithfulDocument (discriminator : String) (document : Members) : Prop where
  distinct : (Assoc.keys document).Nodup
  introduced : Introduced document
  faithful : ∀ member ∈ document, Faithful discriminator member.2

/-- The name that the first member of an object declares. -/
def firstName : Members → String
  | (_, .string name) :: _ => name
  | _ => ""

/-- The kind of field that a value makes. -/
def kindOf : Value → FieldKind
  | .null => .unsupported
  | .bool _ => .boolean
  | .int _ => .number
  | .float _ => .number
  | .string _ => .string
  | .array (.string _ :: _) => .stringArray
  | .array _ => .numberArray
  | .object _ => .objectReference

/-- The type that a value refers to. -/
def referenceOf : Value → String
  | .object members => firstName members
  | _ => ""

/-- The field of a member of the object at `path`. -/
def memberField (path : String) (member : String × Value) : Field :=
  { wireName := member.1
    identifier := Identifier.ofKey member.1
    kind := kindOf member.2
    reference := referenceOf member.2
    path := s!"{path}.{member.1}" }

mutual

/-- The types of the objects in a value that stands at `path`, in document order. -/
def typesIn (path : String) : Value → List Definition
  | .object members =>
    { name := firstName members, fields := members.map (memberField path) } :: typesOf path members
  | _ => []

/-- The types of the objects in the members of the object at `path`. -/
def typesOf (path : String) : Members → List Definition
  | [] => []
  | (key, value) :: rest => typesIn s!"{path}.{key}" value ++ typesOf path rest

end

mutual

/-- The names of the types of the objects in a value, in document order. -/
def namesIn : Value → List String
  | .object members => firstName members :: namesOf members
  | _ => []

/-- The names of the types of the objects in members. -/
def namesOf : Members → List String
  | [] => []
  | (_, value) :: rest => namesIn value ++ namesOf rest

end

section

variable {discriminator path key root : String} {value : Value} {members document : Members}

theorem typesOf_eq (path : String) (members : Members) :
    typesOf path members =
      members.flatMap fun member => typesIn s!"{path}.{member.1}" member.2 := by
  induction members with
  | nil => rfl
  | cons member rest ih => rw [typesOf, ih, List.flatMap_cons]

theorem namesOf_eq (members : Members) :
    namesOf members = members.flatMap fun member => namesIn member.2 := by
  induction members with
  | nil => rfl
  | cons member rest ih => rw [namesOf, ih, List.flatMap_cons]

/-- The types of a value have the names that it declares. -/
theorem names_typesIn (path : String) (value : Value) :
    (typesIn path value).map Definition.name = namesIn value := by
  induction value using Value.memberInduction generalizing path with
  | leaf value hleaf =>
    cases value with
    | object members => exact absurd rfl (hleaf members)
    | _ => rfl
  | object members ih =>
    rw [typesIn, namesIn, List.map_cons, typesOf_eq, namesOf_eq, List.map_flatMap]
    congr 1
    exact List.flatMap_congr fun member hmember => ih member hmember _

theorem kind_ne_unsupported_of_faithful (h : Faithful discriminator value) :
    kindOf value ≠ .unsupported := by
  cases h with
  | number _ hnumber => cases hnumber <;> simp [kindOf]
  | numbers first rest hnumbers => cases hnumbers first List.mem_cons_self <;> simp [kindOf]
  | _ => simp [kindOf]

/-! ## What faithful members contribute -/

/-- What members contribute, if each gives its field and records its types. -/
theorem contributions (path : String)
    (h : ∀ member ∈ members, surfaced discriminator path member = [memberField path member] ∧
      (recorded discriminator path member).definitions =
        typesIn s!"{path}.{member.1}" member.2) :
    surfacedAll discriminator path members = members.map (memberField path) ∧
      (recordedAll discriminator path members).definitions = typesOf path members := by
  induction members with
  | nil => exact ⟨rfl, rfl⟩
  | cons member rest ih =>
    obtain ⟨hfield, htypes⟩ := h member List.mem_cons_self
    obtain ⟨hfields, hrest⟩ := ih fun other hother => h other (List.mem_cons_of_mem _ hother)
    constructor
    · rw [surfacedAll_cons, hfield, hfields]
      rfl
    · rw [recordedAll, Registry.definitions_append, htypes, hrest, typesOf]

/-- **A faithful member gives one field** and records the types of its objects. -/
theorem contribution_of_faithful (path : String) (h : Faithful discriminator value)
    (hkey : ∀ inner, value = .object inner → key ≠ "" ∧ key ≠ "@") :
    surfaced discriminator path (key, value) = [memberField path (key, value)] ∧
      (recorded discriminator path (key, value)).definitions =
        typesIn s!"{path}.{key}" value := by
  induction h generalizing path key with
  | string s => simp [surfaced, recorded, resolveProperty, memberField, kindOf, referenceOf, typesIn]
  | bool b => simp [surfaced, recorded, resolveProperty, memberField, kindOf, referenceOf, typesIn]
  | number value hnumber =>
    cases hnumber <;>
      simp [surfaced, recorded, resolveProperty, memberField, kindOf, referenceOf, typesIn]
  | strings first rest =>
    simp [surfaced, recorded, resolveProperty, resolveArray, arrayKind?, Value.kind, memberField,
      kindOf, referenceOf, typesIn]
  | numbers first rest hnumbers =>
    cases hnumbers first List.mem_cons_self <;>
      simp [surfaced, recorded, resolveProperty, resolveArray, arrayKind?, Value.kind, memberField,
        kindOf, referenceOf, typesIn]
  | object name rest hdistinct hintroduced hfaithful ih =>
    obtain ⟨hne, hmarker⟩ := hkey _ rfl
    have hidentifier : Identifier.ofKey key ≠ "" := by
      intro hempty
      exact (Identifier.ofKey_eq_empty.1 hempty).elim hne hmarker
    have hnone : ∀ member ∈ ([] : Members), declared? discriminator member = none := by simp
    obtain ⟨hfields, htypes⟩ := contributions s!"{path}.{key}" fun member hmember =>
      ih member hmember _ fun inner hinner => hintroduced member.1 inner (hinner ▸ hmember)
    have hfirst : surfaced discriminator s!"{path}.{key}" (discriminator, .string name) =
        [memberField s!"{path}.{key}" (discriminator, .string name)] := by
      simp [surfaced, resolveProperty, memberField, kindOf, referenceOf]
    have hempty : recordedUntyped discriminator (Identifier.ofKey key) s!"{path}.{key}" [] = {} :=
      rfl
    constructor
    · exact surfaced_typedObject discriminator path hidentifier hnone
    · refine (congrArg Registry.definitions
        (recorded_typedObject discriminator path hidentifier hnone)).trans ?_
      rw [hempty, Registry.empty_append, Registry.definitions_append, surfacedAll_cons, hfirst,
        hfields, htypes]
      simp [typesIn, typesOf, firstName]

/-- **The definitions of a faithful document**, read off the document. -/
theorem definitions_of_faithful (root : String) (h : FaithfulDocument discriminator document) :
    (planOfMembers discriminator root document).definitions =
      typesOf "$" document ++ [{ name := root, fields := document.map (memberField "$") }] := by
  obtain ⟨hfields, htypes⟩ := contributions "$" fun member hmember =>
    contribution_of_faithful "$" (h.faithful member hmember) fun inner hinner =>
      h.introduced member.1 inner (hinner ▸ hmember)
  rw [definitions_planOfMembers_eq, hfields, htypes]

/-- The class names of a faithful document: those of its objects and that of the root. -/
theorem classNames_of_faithful (root : String) (h : FaithfulDocument discriminator document) :
    Models.classNames (planOfMembers discriminator root document) =
      (namesOf document ++ [root]).map Identifier.className := by
  have hnames : (typesOf "$" document).map Definition.name = namesOf document := by
    rw [typesOf_eq, namesOf_eq, List.map_flatMap]
    exact List.flatMap_congr fun member _ => names_typesIn _ _
  rw [Models.classNames, definitions_of_faithful root h, List.map_append, List.map_append,
    ← hnames, List.map_map]
  rfl

end

end SampleTypes
