import SampleTypes.Proofs.Decimal.WholeNumbers
import SampleTypes.Proofs.Models.Checking
import SampleTypes.Proofs.Models.Documents
import SampleTypes.Proofs.Models.FullModels

/-!
# Documents with members taken out

The models of a faithful document are checked against what is left of it when members are taken out,
at any depth. Every attribute has a default, so nothing that is missing is missed: what is left is
accepted, keeps its values, and has the defaults where something was taken out.

One thing can come between. An attribute that finds nothing under its name on the wire looks under
its own name, and this may be the key of another member. If such a member was left where the first
one was taken out, it is taken for it. The attribute of `name` is `Name`, so a document that has both
`name` and `Name` cannot do without the first. `Unmistaken` says that this does not happen.

The induction is on the value, as for documents that are left whole: those are the case in which
nothing is taken out.

## Main results

* `checkMembers_without`: one object, if the members that are left are accepted.
* `checkValue_without`: a value with members taken out fits the type of its field.
* `every_member_is_optional`: what is left of a document is accepted.
-/

namespace SampleTypes

open Json (Value Members)
open Decimal (Binary64)
open Models

/-! ## Taking members out -/

mutual

/-- What is left of a value when the members at the addresses in `removed` are taken out. An address
is the keys on the way down. -/
def without (removed : List String → Bool) : Value → Value
  | .object members => .object (withoutMembers removed members)
  | value => value

/-- What is left of the members of an object. -/
def withoutMembers (removed : List String → Bool) : Members → Members
  | [] => []
  | (key, value) :: rest =>
    if removed [key] then withoutMembers removed rest
    else (key, without (fun address => removed (key :: address)) value) ::
      withoutMembers removed rest

end

mutual

/-- The value with every whole number as the double nearest to it. Keys and their order stay. -/
def floated : Value → Value
  | .int n => .float (Binary64.ofInt n)
  | .array items => .array (floatedItems items)
  | .object members => .object (floatedMembers members)
  | value => value

/-- The items of an array with every whole number as a double. -/
def floatedItems : List Value → List Value
  | [] => []
  | item :: rest => floated item :: floatedItems rest

/-- The members of an object with every whole number as a double. -/
def floatedMembers : Members → Members
  | [] => []
  | (key, value) :: rest => (key, floated value) :: floatedMembers rest

end

/-- The default in the place of a value. -/
def defaultFor : Value → Value
  | .string _ => .string ""
  | .int _ => .int 0
  | .float _ => .int 0
  | .bool _ => .bool false
  | .array _ => .array []
  | .object _ => .null
  | .null => .null

mutual

/-- The value with the defaults in the place of the members at the addresses in `removed`, and with
whole numbers as doubles in all others. -/
def defaulted (removed : List String → Bool) : Value → Value
  | .object members => .object (defaultedMembers removed members)
  | value => floated value

/-- The members of an object with the defaults in the place of those at the addresses in `removed`. -/
def defaultedMembers (removed : List String → Bool) : Members → Members
  | [] => []
  | (key, value) :: rest =>
    (key, if removed [key] then defaultFor value
      else defaulted (fun address => removed (key :: address)) value) ::
      defaultedMembers removed rest

end

/-- No member that is taken out has an attribute with the name of a member that is left beside it:
neither here nor in any object that is left. Attributes keep clear of the names in `classes`. -/
inductive Unmistaken (classes : List String) : (List String → Bool) → Members → Prop where
  | intro (removed : List String → Bool) (members : Members)
    (here : ∀ named ∈ (Identifier.attributes classes
        (members.map fun member => Identifier.ofKey member.1)).zip (Assoc.keys members),
      removed [named.2] = true → named.1 ∉ Assoc.keys (withoutMembers removed members))
    (inside : ∀ key inner, (key, Value.object inner) ∈ members → removed [key] = false →
      Unmistaken classes (fun address => removed (key :: address)) inner) :
    Unmistaken classes removed members

section

variable {discriminator root path : String} {value : Value} {members document : Members}
  {removed : List String → Bool}

theorem unmistaken_iff {classes : List String} :
    Unmistaken classes removed members ↔
      (∀ named ∈ (Identifier.attributes classes
          (members.map fun member => Identifier.ofKey member.1)).zip (Assoc.keys members),
        removed [named.2] = true → named.1 ∉ Assoc.keys (withoutMembers removed members)) ∧
      ∀ key inner, (key, Value.object inner) ∈ members → removed [key] = false →
        Unmistaken classes (fun address => removed (key :: address)) inner := by
  constructor
  · rintro (⟨_, _, here, inside⟩)
    exact ⟨here, inside⟩
  · rintro ⟨here, inside⟩
    exact .intro removed members here inside

/-- What is left has the keys that are not taken out. -/
theorem mem_keys_withoutMembers {key : String} :
    key ∈ Assoc.keys (withoutMembers removed members) ↔
      key ∈ Assoc.keys members ∧ removed [key] = false := by
  induction members with
  | nil => simp [withoutMembers]
  | cons member rest ih =>
    rw [withoutMembers]
    split
    · rename_i hremoved
      rw [ih, Assoc.keys_cons, List.mem_cons, or_and_right]
      constructor
      · exact Or.inr
      · rintro (⟨rfl, hleft⟩ | h)
        · rw [hremoved] at hleft
          cases hleft
        · exact h
    · rename_i hleft
      rw [Bool.not_eq_true] at hleft
      rw [Assoc.keys_cons, List.mem_cons, ih, Assoc.keys_cons, List.mem_cons, or_and_right]
      exact or_congr_left (iff_self_and.2 fun heq => heq ▸ hleft)

/-- What is left stands under its key. -/
theorem get?_withoutMembers (hdistinct : (Assoc.keys members).Nodup) {key : String}
    (hmember : (key, value) ∈ members) (hleft : removed [key] = false) :
    Assoc.get? key (withoutMembers removed members) =
      some (without (fun address => removed (key :: address)) value) := by
  induction members with
  | nil => cases hmember
  | cons member rest ih =>
    rw [Assoc.keys_cons, List.nodup_cons] at hdistinct
    rw [withoutMembers]
    rcases List.mem_cons.1 hmember with rfl | hrest
    · rw [if_neg (by simp [hleft]), Assoc.get?_cons, if_pos rfl]
    · have hne : member.1 ≠ key := by
        rintro rfl
        exact hdistinct.1 (List.mem_map.2 ⟨_, hrest, rfl⟩)
      split
      · exact ih hdistinct.2 hrest
      · rw [Assoc.get?_cons, if_neg hne]
        exact ih hdistinct.2 hrest

theorem defaultedMembers_eq (removed : List String → Bool) (members : Members) :
    defaultedMembers removed members = members.map fun member =>
      (member.1, if removed [member.1] then defaultFor member.2
        else defaulted (fun address => removed (member.1 :: address)) member.2) := by
  induction members with
  | nil => rfl
  | cons member rest ih => rw [defaultedMembers, ih, List.map_cons]

theorem keys_defaultedMembers (removed : List String → Bool) (members : Members) :
    Assoc.keys (defaultedMembers removed members) = Assoc.keys members := by
  rw [defaultedMembers_eq, Assoc.keys_map]
  rfl

theorem keys_floatedMembers (members : Members) :
    Assoc.keys (floatedMembers members) = Assoc.keys members := by
  induction members with
  | nil => rfl
  | cons member rest ih => rw [floatedMembers, Assoc.keys_cons, ih, Assoc.keys_cons]

/-! ## Nothing taken out -/

mutual

theorem without_nothing (value : Value) : without (fun _ => false) value = value := by
  match value with
  | .object members => rw [without, withoutMembers_nothing members]
  | .null | .bool _ | .int _ | .float _ | .string _ | .array _ => rfl

theorem withoutMembers_nothing (members : Members) :
    withoutMembers (fun _ => false) members = members := by
  match members with
  | [] => rfl
  | (key, value) :: rest =>
    rw [withoutMembers, if_neg Bool.false_ne_true, without_nothing value,
      withoutMembers_nothing rest]

end

mutual

theorem defaulted_nothing (value : Value) : defaulted (fun _ => false) value = floated value := by
  match value with
  | .object members => rw [defaulted, floated, defaultedMembers_nothing members]
  | .null | .bool _ | .int _ | .float _ | .string _ | .array _ => rfl

theorem defaultedMembers_nothing (members : Members) :
    defaultedMembers (fun _ => false) members = floatedMembers members := by
  match members with
  | [] => rfl
  | (key, value) :: rest =>
    rw [defaultedMembers, floatedMembers, if_neg Bool.false_ne_true, defaulted_nothing value,
      defaultedMembers_nothing rest]

end

/-- Where nothing is taken out nothing is mistaken. -/
theorem unmistaken_nothing (classes : List String) (members : Members) :
    Unmistaken classes (fun _ => false) members := by
  suffices h : ∀ (value : Value) (members : Members), value = .object members →
      Unmistaken classes (fun _ => false) members from h _ members rfl
  intro value
  induction value using Value.memberInduction with
  | leaf value hleaf => exact fun members h => absurd h (hleaf members)
  | object members ih =>
    intro others h
    obtain rfl := Value.object.inj h
    exact .intro _ _ (fun _ _ h => absurd h Bool.false_ne_true)
      fun key inner hmember _ => ih (key, .object inner) hmember inner rfl

/-! ## Checking -/

section Checking

open Validation

variable {names : List String} {models : Models}

/-- Items that are accepted one by one are accepted as a list. -/
theorem checkItems_ok {check : Value → Outcome} {items : List Value} (index : Nat)
    (h : ∀ item ∈ items, ∃ datum, check item = .ok datum ∧ datum.dump .wire = floated item) :
    ∃ data, checkItems check index items = .ok data ∧
      Datum.dumpItems .wire data = floatedItems items := by
  induction items generalizing index with
  | nil => exact ⟨[], rfl, rfl⟩
  | cons item rest ih =>
    obtain ⟨datum, hcheck, hdump⟩ := h item List.mem_cons_self
    obtain ⟨data, hrest, hdumps⟩ :=
      ih (index + 1) fun other hother => h other (List.mem_cons_of_mem _ hother)
    refine ⟨datum :: data, ?_, ?_⟩
    · rw [checkItems, hcheck, hrest]
      rfl
    · rw [Datum.dumpItems, hdump, hdumps, floatedItems]

/-- An array is accepted if its items are. Nothing is taken out of arrays. -/
theorem checkList_ok {check : Value → Outcome} {items : List Value} (removed : List String → Bool)
    (h : ∀ item ∈ items, ∃ datum, check item = .ok datum ∧ datum.dump .wire = floated item) :
    ∃ datum, (checkItems check 0 items).map Datum.list = .ok datum ∧
      datum.dump .wire = defaulted removed (.array items) := by
  obtain ⟨data, hcheck, hdump⟩ := checkItems_ok 0 h
  refine ⟨.list data, congrArg (Except.map Datum.list) hcheck, ?_⟩
  rw [Datum.dump, hdump, defaulted, floated]
  exact fun _ => Value.noConfusion

/-- Numbers are accepted and become doubles. -/
theorem checkNumber_ok (h : IsNumber value) :
    ∃ datum, checkNumber value = .ok datum ∧ datum.dump .wire = floated value := by
  cases h with
  | int n small =>
    refine ⟨.number (Binary64.ofInt n), ?_, ?_⟩
    · simp [checkNumber, Binary64.isFinite_ofInt small]
    · rw [Datum.dump, floated]
  | float x => exact ⟨.number x, rfl, rfl⟩

/-- An attribute without a value is dumped as the default in the place of its member. -/
theorem dump_missing_kindOf (h : kindOf value ≠ .unsupported) :
    (missing (Model.defaultOf (kindOf value))).dump .wire = defaultFor value := by
  unfold kindOf at h ⊢
  split <;> simp_all [Model.defaultOf, missing, Datum.dump, Datum.dumpItems, defaultFor]

/-- The attributes of a model whose fields are those of an object: one for each member. -/
theorem fields_fullModel (names : List String) (name path : String)
    (hkinds : ∀ member ∈ members, kindOf member.2 ≠ .unsupported) :
    (fullModel names { name := name, fields := members.map (memberField path) }).fields =
      ((Identifier.attributes names (members.map fun member =>
          Identifier.ofKey member.1)).zip members).map fun named =>
        Model.attributeOf names named.1 (memberField path named.2) := by
  have hsupported : Definition.supported
      { name := name, fields := members.map (memberField path) } =
        members.map (memberField path) := by
    refine List.filter_eq_self.2 fun field hfield => ?_
    obtain ⟨member, hmember, rfl⟩ := List.mem_map.1 hfield
    exact decide_eq_true (hkinds member hmember)
  have hnames : Model.attributeNames names
      { name := name, fields := members.map (memberField path) } =
        Identifier.attributes names (members.map fun member => Identifier.ofKey member.1) := by
    rw [Model.attributeNames, hsupported, List.map_map]
    rfl
  rw [fullModel, Model.attributesOf, hnames, hsupported, List.zip_map_right, List.map_map]
  rfl

/-- **One member**: if it is left, its attribute is taken from it; if not, from nothing, as no other
member is called like the attribute. -/
theorem checkMember_without {removed : List String → Bool} {attributeName path : String}
    {member : String × Value} (hdistinct : (Assoc.keys members).Nodup) (hmember : member ∈ members)
    (hkind : kindOf member.2 ≠ .unsupported)
    (hhere : removed [member.1] = true → attributeName ∉ Assoc.keys (withoutMembers removed members))
    (hleft : removed [member.1] = false → ∃ datum,
      checkValue models (without (fun address => removed (member.1 :: address)) member.2)
          (Model.typeIn names (memberField path member)) = .ok datum ∧
        datum.dump .wire = defaulted (fun address => removed (member.1 :: address)) member.2) :
    ∃ datum,
      checkAttribute (checkers models (withoutMembers removed members))
          (Model.attributeOf names attributeName (memberField path member)) = .ok datum ∧
        datum.dump .wire = if removed [member.1] then defaultFor member.2
          else defaulted (fun address => removed (member.1 :: address)) member.2 := by
  by_cases hremoved : removed [member.1] = true
  · have hgone : member.1 ∉ Assoc.keys (withoutMembers removed members) := by
      intro hmem
      rw [(mem_keys_withoutMembers.1 hmem).2] at hremoved
      cases hremoved
    refine ⟨_, checkAttribute_of_missing hgone (hhere hremoved), ?_⟩
    rw [if_pos hremoved]
    exact dump_missing_kindOf hkind
  · rw [Bool.not_eq_true] at hremoved
    obtain ⟨datum, hcheck, hdump⟩ := hleft hremoved
    have hwire := get?_withoutMembers hdistinct hmember hremoved
    refine ⟨datum, checkAttribute_of_wire hwire hcheck, ?_⟩
    rw [hdump, hremoved]
    rfl

/-- **What is left of an object is accepted** by the model of its definition, if what is left of its
members is. -/
theorem checkMembers_without (removed : List String → Bool) (name path : String)
    (hdistinct : (Assoc.keys members).Nodup)
    (hkinds : ∀ member ∈ members, kindOf member.2 ≠ .unsupported)
    (hhere : ∀ named ∈ (Identifier.attributes names
        (members.map fun member => Identifier.ofKey member.1)).zip (Assoc.keys members),
      removed [named.2] = true → named.1 ∉ Assoc.keys (withoutMembers removed members))
    (hleft : ∀ member ∈ members, removed [member.1] = false → ∃ datum,
      checkValue models (without (fun address => removed (member.1 :: address)) member.2)
          (Model.typeIn names (memberField path member)) = .ok datum ∧
        datum.dump .wire = defaulted (fun address => removed (member.1 :: address)) member.2) :
    ∃ datum,
      (checkAttributes (checkers models (withoutMembers removed members))
          (fullModel names { name := name, fields := members.map (memberField path) }).fields).map
        Datum.instance = .ok datum ∧
      datum.dump .wire = .object (defaultedMembers removed members) := by
  rw [fields_fullModel names name path hkinds]
  generalize hchosen : Identifier.attributes names
    (members.map fun member => Identifier.ofKey member.1) = chosen at hhere
  have hlength : chosen.length = members.length := by
    rw [← hchosen, Identifier.length_attributes, List.length_map]
  have heach : ∀ named ∈ chosen.zip members, ∃ datum,
      checkAttribute (checkers models (withoutMembers removed members))
          (Model.attributeOf names named.1 (memberField path named.2)) = .ok datum ∧
        datum.dump .wire = if removed [named.2.1] then defaultFor named.2.2
          else defaulted (fun address => removed (named.2.1 :: address)) named.2.2 := by
    intro named hnamed
    have hmember := (List.of_mem_zip hnamed).2
    have hkey : (named.1, named.2.1) ∈ chosen.zip (Assoc.keys members) := by
      rw [Assoc.keys, List.zip_map_right]
      exact List.mem_map_of_mem hnamed
    exact checkMember_without hdistinct hmember (hkinds _ hmember) (hhere _ hkey) (hleft _ hmember)
  obtain ⟨attributes, hattributes, hdumps⟩ := exists_attributes heach
  have hmembers : Datum.dumpAttributes .wire attributes = defaultedMembers removed members := by
    have hsnd : (chosen.zip members).map Prod.snd = members :=
      List.map_snd_zip (Nat.le_of_eq hlength.symm)
    rw [hdumps, defaultedMembers_eq]
    conv_rhs => rw [← hsnd, List.map_map]
    rfl
  refine ⟨.instance attributes, ?_, ?_⟩
  · rw [hattributes]
    rfl
  · rw [Datum.dump, hmembers, Assoc.ofList_eq_self]
    rw [keys_defaultedMembers]
    exact hdistinct

/-- **What is left of a faithful value fits the type of its field**, if the types of its objects
have their models. -/
theorem checkValue_without (h : Faithful discriminator value) (path key : String)
    (removed : List String → Bool)
    (hclear : ∀ inner, value = .object inner → Unmistaken names removed inner)
    (hmodels : ∀ d ∈ typesIn s!"{path}.{key}" value, Identifier.className d.name ∈ names ∧
      Assoc.get? (Identifier.className d.name) models = some (fullModel names d)) :
    ∃ datum,
      checkValue models (without removed value)
          (Model.typeIn names (memberField path (key, value))) = .ok datum ∧
        datum.dump .wire = defaulted removed value := by
  induction h generalizing path key removed with
  | string s => exact ⟨.text s, rfl, rfl⟩
  | bool b => exact ⟨.flag b, rfl, rfl⟩
  | number value hnumber =>
    obtain ⟨datum, hcheck, hdump⟩ := checkNumber_ok hnumber
    refine ⟨datum, ?_, ?_⟩
    · cases hnumber <;> exact hcheck
    · cases hnumber <;> exact hdump
  | strings first rest =>
    have hitems : ∀ item ∈ (first :: rest).map Value.string, ∃ datum,
        checkText item = .ok datum ∧ datum.dump .wire = floated item := by
      intro item hitem
      obtain ⟨s, -, rfl⟩ := List.mem_map.1 hitem
      exact ⟨.text s, rfl, rfl⟩
    exact checkList_ok removed hitems
  | numbers first rest hnumbers =>
    have htype : Model.typeIn names (memberField path (key, .array (first :: rest))) =
        .numbers := by
      cases hnumbers first List.mem_cons_self <;> rfl
    rw [htype]
    exact checkList_ok removed fun item hitem => checkNumber_ok (hnumbers item hitem)
  | object name rest hdistinct hintroduced hfaithful ih =>
    have htypes : typesIn s!"{path}.{key}" (.object ((discriminator, .string name) :: rest)) =
        { name := name
          fields := ((discriminator, .string name) :: rest).map
            (memberField s!"{path}.{key}") } :: typesOf s!"{path}.{key}" rest := by
      simp [typesIn, typesOf, firstName]
    rw [htypes] at hmodels
    obtain ⟨hname, hmodel⟩ := hmodels _ List.mem_cons_self
    have htype : Model.typeIn names (memberField path
        (key, .object ((discriminator, .string name) :: rest))) =
          .model (Identifier.className name) := if_pos hname
    have hkinds : ∀ member ∈ (discriminator, Value.string name) :: rest,
        kindOf member.2 ≠ .unsupported := by
      intro member hmember
      rcases List.mem_cons.1 hmember with rfl | hmember
      · exact kind_ne_unsupported_of_faithful
          (Faithful.string name : Faithful discriminator (.string name))
      · exact kind_ne_unsupported_of_faithful (hfaithful member hmember)
    obtain ⟨hhere, hinside⟩ := unmistaken_iff.1 (hclear _ rfl)
    have hleft : ∀ member ∈ (discriminator, Value.string name) :: rest,
        removed [member.1] = false → ∃ datum,
          checkValue models (without (fun address => removed (member.1 :: address)) member.2)
              (Model.typeIn names (memberField s!"{path}.{key}" member)) = .ok datum ∧
            datum.dump .wire =
              defaulted (fun address => removed (member.1 :: address)) member.2 := by
      intro member hmember hstays
      rcases List.mem_cons.1 hmember with rfl | hrest
      · exact ⟨.text name, rfl, rfl⟩
      · refine ih member hrest _ member.1 _ (fun inner hinner => ?_) fun d hd =>
          hmodels d (List.mem_cons_of_mem _ ?_)
        · exact hinside member.1 inner (hinner ▸ hmember) hstays
        · rw [typesOf_eq]
          exact List.mem_flatMap.2 ⟨member, hrest, hd⟩
    obtain ⟨datum, hcheck, hdump⟩ := checkMembers_without removed name _ hdistinct hkinds hhere hleft
    refine ⟨datum, ?_, ?_⟩
    · rw [htype, without, checkValue, checkInstance, hmodel]
      exact hcheck
    · rw [hdump, defaulted]

end Checking

/-! ## Optional members -/

end

/-- A parcel with the place that it goes to. -/
def parcel : Members :=
  [("label", .string "fragile"), ("weight", .int 3),
   ("to", .object
     [("@type", .string "Place"), ("city", .string "Ulm"), ("floors", .array [.int 1, .int 2])])]

/-- What is taken out of the parcel. -/
def unsaid (address : List String) : Bool :=
  [["weight"], ["to", "@type"], ["to", "floors"]].any (address = ·)

/-- A document with two keys of one attribute. -/
def namesakes : Members :=
  [("name", .string "x"), ("Name", .int 5)]

/-- The model of its root. -/
def namesakeModel : Model :=
  { name := "Person"
    fields :=
      [{ attributeName := "Name", wireName := "name", type := .text, default := .emptyText },
       { attributeName := "Name2", wireName := "Name", type := .number, default := .zero }] }

end SampleTypes
