import SampleTypes.Proofs.Decimal.WholeNumbers
import SampleTypes.Proofs.Models.Building
import SampleTypes.Proofs.Models.Checking

/-!
# What was dumped is accepted again

A model accepts its own dumps, and what it accepts then is the instance that was dumped. One thing
changes: the default of numbers is a whole number, and like every whole number that is supplied it
comes back as a double. Values that were made to fit are dumped as what they were made into, so
nothing is made to fit a second time.

The names carry the argument. A dump has a member for every attribute, under its name on the wire,
and looks there first; so where the names on the wire are distinct, no attribute of a second check
is missing and none is mistaken for another, whatever names the first document used. The induction
is on the document and not on the models, which may refer to each other in circles: an instance in a
dump stands where an object stood in the document.

## Main results

* `sound_of_ofPlan`: names and defaults in the models of a plan.
* `stable_checkAttributes`: one instance, if the members of its object are stable.
* `stable_checkValue`: any value, by induction.
* `dumps_are_stable`: the models of a plan accept their dumps.
-/

namespace SampleTypes

open Json (Value Members)
open Decimal (Binary64)

namespace Datum

mutual

/-- The accepted value with every number that was left at its default as a double. -/
def settled : Datum → Datum
  | .zero => .number (Binary64.ofInt 0)
  | .list items => .list (settledItems items)
  | .instance attributes => .instance (settledAttributes attributes)
  | datum => datum

/-- The items of a list with every number at its default as a double. -/
def settledItems : List Datum → List Datum
  | [] => []
  | item :: rest => item.settled :: settledItems rest

/-- The attributes of an instance with every number at its default as a double. -/
def settledAttributes : List (String × String × Datum) → List (String × String × Datum)
  | [] => []
  | (wireName, attributeName, datum) :: rest =>
    (wireName, attributeName, datum.settled) :: settledAttributes rest

end

theorem settledItems_eq (items : List Datum) : settledItems items = items.map settled := by
  induction items with
  | nil => rfl
  | cons item rest ih => rw [settledItems, ih, List.map_cons]

theorem settledAttributes_eq (attributes : List (String × String × Datum)) :
    settledAttributes attributes =
      attributes.map fun filled => (filled.1, filled.2.1, filled.2.2.settled) := by
  induction attributes with
  | nil => rfl
  | cons filled rest ih =>
    rcases filled with ⟨wireName, attributeName, datum⟩
    rw [settledAttributes, ih, List.map_cons]

end Datum

/-! ## Names and defaults -/

/-- The default of the attributes of a type. -/
def FieldType.default : FieldType → Default
  | .text => .emptyText
  | .number => .zero
  | .flag => .off
  | .texts => .emptyList
  | .numbers => .emptyList
  | .model _ => .nothing
  | .forward _ => .nothing
  | .ambient _ _ => .nothing

/-- No two attributes of the model have one name on the wire, and each has the default of its
type. -/
structure Model.Sound (m : Model) : Prop where
  distinct : (m.fields.map ModelField.wireName).Nodup
  default : ∀ field ∈ m.fields, field.default = field.type.default

namespace Model

variable {made reserved : List String} {d : Definition} {m : Model} {source field : ModelField}

theorem default_attributeOf (made : List String) (name : String) (field : Field) :
    (attributeOf made name field).default = (attributeOf made name field).type.default := by
  by_cases hmade : Identifier.className field.reference ∈ made <;>
    cases hkind : field.kind <;>
      simp [attributeOf, defaultOf, typeIn, hkind, hmade, FieldType.default]

/-- Settling keeps the default, and the default of the type. -/
theorem default_settle {own : String} {attributes : List String}
    (h : settle own attributes source = .ok field) :
    field.default = source.default ∧ field.type.default = source.type.default := by
  unfold settle at h
  split at h
  · rename_i target known htype _
    cases h
    simp [FieldType.default, htype]
  · cases h
  · cases h
    exact ⟨rfl, rfl⟩

theorem default_resolveType (made : List String) (type : FieldType) :
    (resolveType made type).default = type.default := by
  cases type with
  | forward className =>
    by_cases h : className ∈ made <;> simp [resolveType, h, FieldType.default]
  | _ => rfl

theorem map_wireName_attributesOf (made reserved : List String) (d : Definition) :
    (attributesOf made reserved d).map ModelField.wireName = d.supported.map Field.wireName := by
  conv_rhs => rw [← map_snd_named reserved d, List.map_map]
  rw [attributesOf, List.map_map]
  rfl

/-- A model is sound if the names of its definition are distinct. -/
theorem sound_of_ofDefinition (h : ofDefinition made reserved d = .ok m)
    (hdistinct : (d.supported.map Field.wireName).Nodup) : m.Sound := by
  obtain ⟨-, -, -, hfields⟩ := accepted_of_ofDefinition h
  constructor
  · have hnames := Loops.map_eq_of_mapM_ok (g := ModelField.wireName) (k := ModelField.wireName)
      (fun _ _ hsettle => (settle_ok hsettle).2.1) hfields
    rw [hnames]
    rw [← map_wireName_attributesOf made reserved d] at hdistinct
    exact hdistinct.sublist (List.filter_sublist.map _)
  · intro field hfield
    obtain ⟨source, hsource, hsettle⟩ := (settled_of_ofDefinition h).2 field hfield
    obtain ⟨name, -, origin, -, rfl⟩ := exists_of_mem_attributesOf hsource
    obtain ⟨hdefault, htype⟩ := default_settle hsettle
    rw [hdefault, htype]
    exact default_attributeOf made name origin

/-- Completing a model keeps it sound. -/
theorem Sound.rebuild (h : m.Sound) (made : List String) : (m.rebuild made).Sound := by
  constructor
  · rw [Model.rebuild, List.map_map]
    exact h.distinct
  · intro field hfield
    obtain ⟨source, hsource, rfl⟩ := List.mem_map.1 hfield
    rw [default_resolveType]
    exact h.default source hsource

end Model

namespace Models

/-- In each definition that counts, the supported fields have distinct names on the wire. -/
def DistinctOnWire (plan : Plan) : Prop :=
  ∀ name d, lastNamed? plan name = some d → (d.supported.map Field.wireName).Nodup

/-- **The models of a plan are sound**, if the names on the wire are distinct. -/
theorem sound_of_ofPlan {plan : Plan} {models : Models} {name : String} {model : Model}
    (hmodels : ofPlan plan = .ok models) (hwire : DistinctOnWire plan)
    (hmodel : Assoc.get? name models = some model) : model.Sound := by
  obtain ⟨made, rest, d, draft, -, hlast, hdraft, hcompleted⟩ := exists_stage hmodels hmodel
  have hsound := Model.sound_of_ofDefinition hdraft (hwire name d hlast)
  rcases hcompleted with rfl | rfl
  · exact hsound
  · exact hsound.rebuild _

end Models

/-! ## Stable checks -/

namespace Validation

open Models

/-- If the check accepts the value, it accepts its dump, as the same value settled. -/
def StableAt (check : Value → Outcome) (value : Value) : Prop :=
  ∀ datum, check value = .ok datum → check (datum.dump .wire) = .ok datum.settled

variable {models : Models} {value : Value} {members : Members} {datum : Datum} {model : Model}

theorem stable_checkText (value : Value) : StableAt checkText value := by
  intro datum h
  cases value with
  | string s =>
    cases h
    rfl
  | _ => cases h

/-- A whole number or a numeral was accepted as a double and is dumped as one. -/
theorem stable_checkNumber (value : Value) : StableAt checkNumber value := by
  intro datum h
  have hnumber : ∃ x, datum = .number x := by
    unfold checkNumber at h
    split at h
    · simp only at h
      split at h
      · exact ⟨_, (Except.ok.inj h).symm⟩
      · cases h
    · exact ⟨_, (Except.ok.inj h).symm⟩
    · exact ⟨_, (Except.ok.inj h).symm⟩
    · split at h
      · exact ⟨_, (Except.ok.inj h).symm⟩
      · cases h
    · cases h
  obtain ⟨x, rfl⟩ := hnumber
  rfl

theorem flag_of_checkWholeFlag {n : Int} (h : checkWholeFlag n = .ok datum) :
    ∃ b, datum = .flag b := by
  unfold checkWholeFlag at h
  split at h
  · exact ⟨_, (Except.ok.inj h).symm⟩
  split at h
  · exact ⟨_, (Except.ok.inj h).symm⟩
  split at h <;> cases h

/-- A word or a number was accepted as a truth value and is dumped as one. -/
theorem stable_checkFlag (value : Value) : StableAt checkFlag value := by
  intro datum h
  have hflag : ∃ b, datum = .flag b := by
    unfold checkFlag at h
    split at h
    · exact ⟨_, (Except.ok.inj h).symm⟩
    · exact flag_of_checkWholeFlag h
    · split at h
      · split at h
        · cases h
        · exact flag_of_checkWholeFlag h
      · cases h
    · simp only at h
      split at h
      · exact ⟨_, (Except.ok.inj h).symm⟩
      split at h
      · exact ⟨_, (Except.ok.inj h).symm⟩
      · cases h
    · cases h
  obtain ⟨b, rfl⟩ := hflag
  rfl

/-- A list of stable items is stable. -/
theorem stable_checkList {item : Value → Outcome} (hitem : ∀ value, StableAt item value)
    (value : Value) : StableAt (checkList item) value := by
  intro datum h
  cases value with
  | array items =>
    obtain ⟨data, hdata, rfl⟩ := map_eq_ok.1 h
    have hgiven := (checkItems_eq_ok 0).1 hdata
    have hagain : checkItems item 0 (data.map (Datum.dump .wire)) =
        .ok (data.map Datum.settled) := by
      clear h hdata
      refine (checkItems_eq_ok 0).2 ?_
      induction hgiven with
      | nil => exact .nil
      | cons hfirst _ ih => exact .cons (hitem _ _ hfirst) ih
    rw [Datum.dump, Datum.dumpItems_eq, checkList, hagain, Datum.settled, Datum.settledItems_eq]
    rfl
  | _ => cases h

/-- What a name with a meaning of its own accepts is kept as it came, with two exceptions. -/
theorem kept_of_checkAmbient {meaning : Ambient} (h : checkAmbient meaning value = .ok datum) :
    datum = .raw value ∨ (meaning = .emptyInstance ∧ datum = .instance []) ∨
      (meaning = .fieldKind ∧ ∃ s, value = .string s ∧ datum = .text s) := by
  cases meaning <;> cases value <;> simp_all [checkAmbient, refuse]
  split at h <;> simp_all

/-! ## Instances -/

/-- A default fits its own type. -/
theorem checkValue_missing (models : Models) (type : FieldType) :
    checkValue models ((missing type.default).dump .wire) type =
      .ok (missing type.default).settled := by
  have hzero : (Binary64.ofInt 0).isFinite = true := Binary64.isFinite_ofInt (by decide)
  cases type <;> simp [FieldType.default, missing, Datum.dump, Datum.dumpItems, Datum.settled,
    Datum.settledItems, checkValue, checkText, checkNumber, checkFlag, checkList, checkItems,
    Except.map, hzero]

/-- **One instance is stable** if the members of its object are. -/
theorem stable_checkAttributes (hsound : model.Sound)
    (hmembers : ∀ member ∈ members, ∀ type, StableAt (checkValue models · type) member.2)
    {attributes : List (String × String × Datum)}
    (h : checkAttributes (checkers models members) model.fields = .ok attributes) :
    ∃ dumped, (Datum.instance attributes).dump .wire = .object dumped ∧
      checkAttributes (checkers models dumped) model.fields =
        .ok (Datum.settledAttributes attributes) := by
  have hfilled := checkAttributes_eq_ok.1 h
  -- The dump has a member for each attribute, and no two under one name.
  have hnames : attributes.map Prod.fst = model.fields.map ModelField.wireName := by
    rw [← List.forall₂_eq_eq_eq, List.forall₂_map_left_iff, List.forall₂_map_right_iff]
    exact hfilled.flip.imp fun _ _ hfill => hfill.wireName
  have hkeys : (Assoc.keys (Datum.dumpAttributes .wire attributes)).Nodup := by
    rw [Datum.dumpAttributes_eq, Assoc.keys_map, hnames]
    exact hsound.distinct
  refine ⟨Datum.dumpAttributes .wire attributes, ?_, ?_⟩
  · rw [Datum.dump, Assoc.ofList_eq_self hkeys]
  · rw [checkAttributes_eq_ok, Datum.settledAttributes_eq, List.forall₂_map_right_iff,
      List.forall₂_iff_zip]
    refine ⟨hfilled.length_eq, fun {field filled} hpair => ?_⟩
    have hfill := (List.forall₂_iff_zip.1 hfilled).2 hpair
    obtain ⟨hfield, hmem⟩ := List.of_mem_zip hpair
    refine ⟨hfill.wireName, hfill.attributeName, ?_⟩
    have hget : Assoc.get? field.wireName (Datum.dumpAttributes .wire attributes) =
        some (filled.2.2.dump .wire) := by
      refine Assoc.get?_of_mem hkeys ?_
      rw [Datum.dumpAttributes_eq, ← hfill.wireName]
      exact List.mem_map_of_mem hmem
    refine checkAttribute_of_wire hget ?_
    rcases value_of_checkAttribute hfill.datum with ⟨member, hmember, hvalue⟩ | hmissing
    · exact hmembers member hmember field.type _ hvalue
    · rw [hmissing, hsound.default field hfield]
      exact checkValue_missing models field.type

/-- A reference is stable if the members of the object are. -/
theorem stable_checkReference
    (hsound : ∀ name model, Assoc.get? name models = some model → model.Sound)
    {type : FieldType} {className : String}
    (htype : type = .model className ∨ type = .forward className)
    (hmembers : ∀ members, value = .object members →
      ∀ member ∈ members, ∀ type, StableAt (checkValue models · type) member.2) :
    StableAt (checkValue models · type) value := by
  intro datum h
  rcases (checkValue_reference_eq_ok htype).1 h with ⟨rfl, rfl⟩ | ⟨members, rfl, hinstance⟩
  · exact (checkValue_reference_eq_ok htype).2 (Or.inl ⟨rfl, rfl⟩)
  · unfold checkInstance at hinstance
    split at hinstance
    case h_2 => cases hinstance
    rename_i model hmodel
    obtain ⟨attributes, hattributes, rfl⟩ := map_eq_ok.1 hinstance
    obtain ⟨dumped, hdump, hagain⟩ :=
      stable_checkAttributes (hsound className model hmodel) (hmembers members rfl) hattributes
    refine (checkValue_reference_eq_ok htype).2 (Or.inr ⟨dumped, hdump, ?_⟩)
    unfold checkInstance
    rw [hmodel, Datum.settled]
    exact map_eq_ok.2 ⟨_, hagain, rfl⟩

/-- A name with a meaning of its own is stable: what it keeps is dumped as it came. -/
theorem stable_checkAmbient (className : String) (meaning : Ambient) :
    StableAt (checkValue models · (.ambient className meaning)) value := by
  intro datum h
  by_cases hnull : value = .null
  · subst hnull
    simp only [checkValue] at h
    cases h
    rfl
  · have hambient : checkValue models value (.ambient className meaning) =
        checkAmbient meaning value := by
      cases value <;> simp_all [checkValue]
    show checkValue models (datum.dump .wire) (.ambient className meaning) = .ok datum.settled
    have hchecked : checkAmbient meaning value = .ok datum := hambient ▸ h
    rcases kept_of_checkAmbient hchecked with rfl | ⟨rfl, rfl⟩ | ⟨rfl, s, rfl, rfl⟩
    · exact h
    · rfl
    · exact h

/-- Any value is stable if the members of the object that it may be are. -/
theorem stable_of_members
    (hsound : ∀ name model, Assoc.get? name models = some model → model.Sound)
    (hmembers : ∀ members, value = .object members →
      ∀ member ∈ members, ∀ type, StableAt (checkValue models · type) member.2)
    (type : FieldType) : StableAt (checkValue models · type) value := by
  obtain ⟨htext, hnumber, hflag, htexts, hnumbers⟩ := checkValue_plain models
  cases type with
  | text => exact htext ▸ stable_checkText value
  | number => exact hnumber ▸ stable_checkNumber value
  | flag => exact hflag ▸ stable_checkFlag value
  | texts => exact htexts ▸ stable_checkList stable_checkText value
  | numbers => exact hnumbers ▸ stable_checkList stable_checkNumber value
  | model className => exact stable_checkReference hsound (Or.inl rfl) hmembers
  | forward className => exact stable_checkReference hsound (Or.inr rfl) hmembers
  | ambient className meaning => exact stable_checkAmbient className meaning

/-- **Any value is stable**, if the models are sound. -/
theorem stable_checkValue (hsound : ∀ name model, Assoc.get? name models = some model → model.Sound)
    (value : Value) (type : FieldType) : StableAt (checkValue models · type) value := by
  induction value using Value.memberInduction generalizing type with
  | leaf value hleaf =>
    exact stable_of_members hsound (fun members hobject => absurd hobject (hleaf members)) type
  | object members ih =>
    refine stable_of_members hsound (fun others hobject => ?_) type
    obtain rfl := Value.object.inj hobject
    exact ih

end Validation

/-! ## Two dumps -/

namespace Datum

mutual

/-- The document of an accepted value, with `zero` for every number that was left at its default. -/
def dumpWith (zero : Value) : Datum → Value
  | .nothing => .null
  | .text s => .string s
  | .zero => zero
  | .number x => .float x
  | .flag b => .bool b
  | .list items => .array (dumpItemsWith zero items)
  | .raw value => value
  | .instance attributes => .object (Assoc.ofList (dumpAttributesWith zero attributes))

/-- The documents of the items of a list, with `zero` for every number at its default. -/
def dumpItemsWith (zero : Value) : List Datum → List Value
  | [] => []
  | item :: rest => item.dumpWith zero :: dumpItemsWith zero rest

/-- The documents of the attributes of an instance under their names on the wire, with `zero` for
every number at its default. -/
def dumpAttributesWith (zero : Value) : List (String × String × Datum) → Members
  | [] => []
  | (wireName, _, datum) :: rest => (wireName, datum.dumpWith zero) :: dumpAttributesWith zero rest

end

mutual

/-- A dump has the whole number zero for a number at its default. -/
theorem dump_eq_dumpWith (datum : Datum) : datum.dump .wire = datum.dumpWith (.int 0) := by
  match datum with
  | .list items => rw [dump, dumpWith, dumpItems_eq_dumpItemsWith items]
  | .instance attributes => rw [dump, dumpWith, dumpAttributes_eq_dumpAttributesWith attributes]
  | .nothing | .text _ | .zero | .number _ | .flag _ | .raw _ => rfl

theorem dumpItems_eq_dumpItemsWith (items : List Datum) :
    dumpItems .wire items = dumpItemsWith (.int 0) items := by
  cases items with
  | nil => rfl
  | cons item rest =>
    rw [dumpItems, dumpItemsWith, dump_eq_dumpWith item, dumpItems_eq_dumpItemsWith rest]

theorem dumpAttributes_eq_dumpAttributesWith (attributes : List (String × String × Datum)) :
    dumpAttributes .wire attributes = dumpAttributesWith (.int 0) attributes := by
  cases attributes with
  | nil => rfl
  | cons filled rest =>
    rcases filled with ⟨wireName, attributeName, datum⟩
    rw [dumpAttributes, dumpAttributesWith, dump_eq_dumpWith datum,
      dumpAttributes_eq_dumpAttributesWith rest]

end

mutual

/-- The dump of a settled value has the double zero there, and is the same in all else. -/
theorem dump_settled (datum : Datum) :
    datum.settled.dump .wire = datum.dumpWith (.float (Binary64.ofInt 0)) := by
  match datum with
  | .list items => rw [settled, dump, dumpWith, dumpItems_settledItems items]
  | .instance attributes =>
    rw [settled, dump, dumpWith, dumpAttributes_settledAttributes attributes]
  | .nothing | .text _ | .zero | .number _ | .flag _ | .raw _ => rfl

theorem dumpItems_settledItems (items : List Datum) :
    dumpItems .wire (settledItems items) = dumpItemsWith (.float (Binary64.ofInt 0)) items := by
  cases items with
  | nil => rfl
  | cons item rest =>
    rw [settledItems, dumpItems, dumpItemsWith, dump_settled item, dumpItems_settledItems rest]

theorem dumpAttributes_settledAttributes (attributes : List (String × String × Datum)) :
    dumpAttributes .wire (settledAttributes attributes) =
      dumpAttributesWith (.float (Binary64.ofInt 0)) attributes := by
  cases attributes with
  | nil => rfl
  | cons filled rest =>
    rcases filled with ⟨wireName, attributeName, datum⟩
    rw [settledAttributes, dumpAttributes, dumpAttributesWith, dump_settled datum,
      dumpAttributes_settledAttributes rest]

end

end Datum

open Models

/-- **Dumps are stable.** If the supported fields of each definition that counts have distinct names
on the wire, a model of the plan that accepts an object accepts the dump of what it made of it. The
two dumps are one document, in which a number that was left at its default is the whole number zero
the first time and the double zero the second time. -/
theorem dumps_are_stable {plan : Plan} {models : Models} {name : String} {model : Model}
    {members : Members} {datum : Datum} (hmodels : ofPlan plan = .ok models)
    (hwire : DistinctOnWire plan) (hmodel : Assoc.get? name models = some model)
    (haccepted : Validation.checkDocument models model (.object members) = .ok datum) :
    ∃ again, Validation.checkDocument models model (datum.dump .wire) = .ok again ∧
      datum.dump .wire = datum.dumpWith (.int 0) ∧
      again.dump .wire = datum.dumpWith (.float (Binary64.ofInt 0)) := by
  have hsound : ∀ name model, Assoc.get? name models = some model → model.Sound :=
    fun _ _ => sound_of_ofPlan hmodels hwire
  obtain ⟨attributes, hattributes, rfl⟩ := Validation.map_eq_ok.1 haccepted
  obtain ⟨dumped, hdump, hagain⟩ := Validation.stable_checkAttributes (hsound name model hmodel)
    (fun member _ => Validation.stable_checkValue hsound member.2) hattributes
  refine ⟨(Datum.instance attributes).settled, ?_, Datum.dump_eq_dumpWith _, Datum.dump_settled _⟩
  rw [hdump, Validation.checkDocument, hagain, Datum.settled]
  rfl

/-- Two classes that refer to each other, one of them with a number. -/
def ring : Plan :=
  { root := "B"
    definitions :=
      [{ name := "A"
         fields :=
           [{ wireName := "n", identifier := "N", kind := .number },
            { wireName := "next", identifier := "Next", kind := .objectReference
              reference := "b" }] },
       { name := "B"
         fields :=
           [{ wireName := "next", identifier := "Next", kind := .objectReference
              reference := "A" }] }] }

/-- The models of the ring, completed. -/
def ringModels : Models :=
  let next (target : String) : ModelField :=
    { attributeName := "Next", wireName := "next", type := .model target, default := .nothing }
  [("A", { name := "A"
           fields :=
             [{ attributeName := "N", wireName := "n", type := .number, default := .zero },
              next "B"] }),
   ("B", { name := "B", fields := [next "A"] })]

/-- A document of the ring that comes around once. A name of an attribute stands for one on the
wire, a truth value for a number, and one number is missing. -/
def ringDocument : Members :=
  [("Next", .object
    [("n", .bool true), ("next", .object [("next", .object [])])])]

/-- What the model of the root makes of the document. -/
def ringInstance : Datum :=
  let next (datum : Datum) : String × String × Datum := ("next", "Next", datum)
  .instance
    [next (.instance
      [("n", "N", .number (Binary64.ofInt 1)),
       next (.instance [next (.instance [("n", "N", .zero), next .nothing])])])]

theorem dumps_are_stable_ring :
    ofPlan ring = .ok ringModels ∧ DistinctOnWire ring ∧
      ∃ model, Assoc.get? "B" ringModels = some model ∧
        Validation.checkDocument ringModels model (.object ringDocument) = .ok ringInstance ∧
        ∃ again, Validation.checkDocument ringModels model (ringInstance.dump .wire) = .ok again ∧
          ringInstance.dump .wire = ringInstance.dumpWith (.int 0) ∧
          again.dump .wire = ringInstance.dumpWith (.float (Binary64.ofInt 0)) := by
  have hnodes : Schedule.nodes (graph (winners ring)) = ["A", "B"] :=
    List.mergeSort_of_pairwise (by decide)
  have hschedule : Schedule.ofGraph (graph (winners ring)) = ⟨[], ["A", "B"]⟩ := by
    unfold Schedule.ofGraph Schedule.start
    rw [hnodes]
    decide
  have hmodels : ofPlan ring = .ok ringModels := by
    simp only [ofPlan, drafts, hschedule]
    rfl
  have hwire : DistinctOnWire ring := by
    have hall : ∀ d ∈ ring.definitions, (d.supported.map Field.wireName).Nodup := by decide
    exact fun name d hlast => hall d (mem_of_lastNamed? hlast).1
  have haccepted : ∃ model, Assoc.get? "B" ringModels = some model ∧
      Validation.checkDocument ringModels model (.object ringDocument) = .ok ringInstance :=
    ⟨_, rfl, rfl⟩
  obtain ⟨model, hmodel, haccepted⟩ := haccepted
  exact ⟨hmodels, hwire, model, hmodel, haccepted,
    dumps_are_stable hmodels hwire hmodel haccepted⟩

end SampleTypes
