import Mathlib.Data.List.Nodup
import SampleTypes.Proofs.Ownership.Owner

/-!
# The definitions of a plan, by ownership

The walk routes fields while it goes; ownership says the same without a walk. The definitions of a
plan are the hoisted objects in the order of their declarations, each with the fields of the
properties it owns, and the root with the others.

The induction is on the value of a property. Its hypothesis says what escapes from the property
(the fields that nothing inside it owns) and what it records (the types declared inside it), in
terms of the addresses below it as they are seen from the object around it.

## Main results

* `definitions_eq_owned`: the definitions of a plan.
* `definitions_by_owner`: the same, with what makes the listing exact.
-/

namespace SampleTypes

open Json (Value Members)

/-- The field that a property yields, apart from where it goes: one for every string, number, truth
value and null, for an array that starts with a string or a number, and, as a reference, for an
object that becomes a type. -/
def propertyField? (discriminator path key : String) : Value → Option Field
  | .string _ =>
    some { wireName := key, identifier := Identifier.ofKey key, kind := .string, path := path }
  | .int _ =>
    some { wireName := key, identifier := Identifier.ofKey key, kind := .number, path := path }
  | .float _ =>
    some { wireName := key, identifier := Identifier.ofKey key, kind := .number, path := path }
  | .bool _ =>
    some { wireName := key, identifier := Identifier.ofKey key, kind := .boolean, path := path }
  | .null =>
    some { wireName := key, identifier := Identifier.ofKey key, kind := .unsupported, path := path,
           note := "null" }
  | .array (.string _ :: _) =>
    some { wireName := key, identifier := Identifier.ofKey key, kind := .stringArray,
           path := path }
  | .array (.int _ :: _) =>
    some { wireName := key, identifier := Identifier.ofKey key, kind := .numberArray,
           path := path }
  | .array (.float _ :: _) =>
    some { wireName := key, identifier := Identifier.ofKey key, kind := .numberArray,
           path := path }
  | .array _ => none
  | .object members =>
    (hoistedAs? discriminator key members).map fun declaration =>
      referenceField path key declaration.2

/-- The field of the property at an address. -/
def fieldAt? (discriminator start : String) (document : Members) (a : Address) : Option Field :=
  (Address.property? document a).bind fun member =>
    propertyField? discriminator (Address.path start document a) member.1 member.2

/-- The field of the property at an address, if `owner` owns it. -/
def fieldOwned? (discriminator start : String) (document : Members) (owner : Option Address)
    (a : Address) : Option Field :=
  if owner? discriminator document a = owner then fieldAt? discriminator start document a
  else none

/-- The fields of the properties that `owner` owns, in document order. -/
def ownedFields (discriminator start : String) (document : Members) (owner : Option Address) :
    List Field :=
  (Address.all document).filterMap (fieldOwned? discriminator start document owner)

/-- The object that the property at an address makes a type, and the name of the type: the object
that the property stands in, if the property is its declaration. -/
def declaredAt? (discriminator : String) (document : Members) (a : Address) :
    Option (Address × String) :=
  match hoist? discriminator document a.dropLast with
  | some (place, name) => if a.getLast? = some place then some (a.dropLast, name) else none
  | none => none

/-- The hoisted objects with the names of their types, in the document order of the properties that
declare them. -/
def hoistedTypes (discriminator : String) (document : Members) : List (Address × String) :=
  (Address.all document).filterMap (declaredAt? discriminator document)

/-- The definition of a hoisted object. -/
def ownedDefinition (discriminator start : String) (document : Members)
    (hoisted : Address × String) : Definition :=
  { name := hoisted.2
    fields := ownedFields discriminator start document (some hoisted.1) }

/-- A declaration stands in the object that it makes a type. -/
theorem declaredAt?_eq_some {discriminator : String} {document : Members} {a : Address}
    {hoisted : Address × String} :
    declaredAt? discriminator document a = some hoisted ↔
      ∃ place, hoist? discriminator document hoisted.1 = some (place, hoisted.2) ∧
        a = hoisted.1 ++ [place] := by
  constructor
  · intro h
    unfold declaredAt? at h
    split at h
    · rename_i place name hhoist
      split at h
      · rename_i hlast
        obtain rfl := Option.some.inj h
        exact ⟨place, hhoist, (List.dropLast_append_getLast? place hlast).symm⟩
      · cases h
    · cases h
  · rintro ⟨place, hhoist, rfl⟩
    simp [declaredAt?, hhoist]

/-! ## One step down -/

section Step

variable {discriminator start key : String} {members inner : Members} {place turn : Nat}

theorem fieldAt?_singleton {value : Value} (h : members[place]? = some (key, value)) :
    fieldAt? discriminator start members [place] =
      propertyField? discriminator s!"{start}.{key}" key value := by
  simp only [fieldAt?, Address.property?_singleton, Address.path_singleton h, h, Option.bind_some]

theorem fieldAt?_cons (h : members[place]? = some (key, .object inner)) (rest : Address) :
    fieldAt? discriminator start members (place :: turn :: rest) =
      fieldAt? discriminator s!"{start}.{key}" inner (turn :: rest) := by
  simp only [fieldAt?, Address.property?_cons h (List.cons_ne_nil turn rest),
    Address.path_cons h]

/-- What is owned inside an object is owned by the same objects seen from around it. -/
theorem fieldOwned?_cons_inside (h : members[place]? = some (key, .object inner)) {o : Address}
    (ho : o ≠ []) (rest : Address) :
    fieldOwned? discriminator start members (some (place :: o)) (place :: turn :: rest) =
      fieldOwned? discriminator s!"{start}.{key}" inner (some o) (turn :: rest) := by
  have howner : owner? discriminator members (place :: turn :: rest) = some (place :: o) ↔
      owner? discriminator inner (turn :: rest) = some o := by
    rw [owner?_cons h]
    cases owner? discriminator inner (turn :: rest) with
    | some found => simp
    | none =>
      by_cases hself : encloses discriminator members (place :: turn :: rest) [place] <;>
        simp [hself, Ne.symm ho]
  simp only [fieldOwned?, fieldAt?_cons h, howner]

/-- Where an object encloses nothing, what escapes from inside it escapes from it. -/
theorem fieldOwned?_cons_free (h : members[place]? = some (key, .object inner)) {rest : Address}
    (hfree : encloses discriminator members (place :: turn :: rest) [place] = false) :
    fieldOwned? discriminator start members none (place :: turn :: rest) =
        fieldOwned? discriminator s!"{start}.{key}" inner none (turn :: rest) ∧
      fieldOwned? discriminator start members (some [place]) (place :: turn :: rest) = none := by
  have howner : owner? discriminator members (place :: turn :: rest) =
      (owner? discriminator inner (turn :: rest)).map (place :: ·) := by
    rw [owner?_cons h, hfree]
    cases owner? discriminator inner (turn :: rest) <;> rfl
  simp only [fieldOwned?, fieldAt?_cons h, howner, Option.map_eq_none_iff, true_and]
  rw [if_neg]
  intro heq
  obtain ⟨o, ho, hcons⟩ := Option.map_eq_some_iff.1 heq
  exact (isPrefix_of_owner? ho).1 (List.cons.inj hcons).2

/-- What an object encloses does not escape from it; it belongs to the object unless something
inside owns it. -/
theorem fieldOwned?_cons_enclosed (h : members[place]? = some (key, .object inner))
    {rest : Address}
    (henclosed : encloses discriminator members (place :: turn :: rest) [place] = true) :
    fieldOwned? discriminator start members none (place :: turn :: rest) = none ∧
      fieldOwned? discriminator start members (some [place]) (place :: turn :: rest) =
        fieldOwned? discriminator s!"{start}.{key}" inner none (turn :: rest) := by
  have howner : owner? discriminator members (place :: turn :: rest) =
      some (place :: (owner? discriminator inner (turn :: rest)).getD []) := by
    rw [owner?_cons h, henclosed]
    cases owner? discriminator inner (turn :: rest) <;> rfl
  simp only [fieldOwned?, fieldAt?_cons h, howner, reduceCtorEq, if_false, true_and]
  cases hinner : owner? discriminator inner (turn :: rest) with
  | some o => simp [(isPrefix_of_owner? hinner).1]
  | none => simp

/-- An object encloses what stands in it at its declaration or behind. -/
theorem encloses_self (h : members[place]? = some (key, .object inner)) (rest : Address) :
    encloses discriminator members (place :: turn :: rest) [place] =
      (hoistedAs? discriminator key inner).any fun declaration =>
        decide (declaration.1 ≤ turn) := by
  simp only [encloses, hoist?_singleton h, List.length_singleton, List.getElem?_cons_succ,
    List.getElem?_cons_zero]
  cases hoistedAs? discriminator key inner <;> rfl

theorem declaredAt?_singleton (discriminator : String) (members : Members) (place : Nat) :
    declaredAt? discriminator members [place] = none := rfl

/-- The property at the place of the declaration makes its object a type. -/
theorem declaredAt?_declaration (h : members[place]? = some (key, .object inner)) {name : String}
    (hdeclared : hoistedAs? discriminator key inner = some (turn, name)) :
    declaredAt? discriminator members [place, turn] = some ([place], name) := by
  simp [declaredAt?, hoist?_singleton h, hdeclared]

/-- All other properties make the same objects types, seen from inside and from around. -/
theorem declaredAt?_cons (h : members[place]? = some (key, .object inner)) (rest : Address)
    (hother : ∀ name, hoistedAs? discriminator key inner ≠ some (turn, name)) :
    declaredAt? discriminator members (place :: turn :: rest) =
      (declaredAt? discriminator inner (turn :: rest)).map fun hoisted =>
        (place :: hoisted.1, hoisted.2) := by
  cases rest with
  | nil =>
    rw [declaredAt?_singleton, declaredAt?]
    simp only [List.dropLast_cons_cons, List.dropLast_singleton, hoist?_singleton h, Option.map_none]
    split
    · rename_i found name hfound
      rw [if_neg]
      intro heq
      simp only [List.getLast?_cons_cons, List.getLast?_singleton, Option.some.injEq] at heq
      exact hother name (heq ▸ hfound)
    · rfl
  | cons next rest =>
    have hdrop : (turn :: next :: rest).dropLast ≠ [] := by simp
    simp only [declaredAt?, List.dropLast_cons_cons] at hdrop ⊢
    rw [hoist?_cons h (List.cons_ne_nil turn _)]
    split
    · simp only [List.getLast?_cons_cons]
      split <;> rfl
    · rfl

end Step

/-! ## The types inside one member -/

section Member

variable {discriminator start key : String} {members : Members} {place : Nat} {value : Value}

/-- A list with an element at a place is split there. -/
private theorem split_at_place (h : members[place]? = some (key, value)) :
    members = members.take place ++ (key, value) :: members.drop (place + 1) ∧
      (members.take place).length = place := by
  obtain ⟨hlt, hget⟩ := List.getElem?_eq_some_iff.1 h
  refine ⟨?_, by simp; omega⟩
  rw [← hget, ← List.drop_eq_getElem_cons hlt, List.take_append_drop]

/-- What is owned by an object in a member is found in that member. -/
private theorem ownedFields_member (h : members[place]? = some (key, value)) (o : Address) :
    ownedFields discriminator start members (some (place :: o)) =
      (Address.ofMember place value).filterMap
        (fieldOwned? discriminator start members (some (place :: o))) := by
  obtain ⟨hsplit, hlength⟩ := split_at_place h
  have hall : Address.all members = Address.fromPlace 0 (members.take place) ++
      (Address.ofMember place value ++
        Address.fromPlace (place + 1) (members.drop (place + 1))) := by
    conv_lhs => rw [Address.all, hsplit]
    rw [Address.fromPlace_append, Address.fromPlace_cons, hlength, Nat.zero_add]
  have helsewhere : ∀ {turn : Nat} {rest : Address}, turn ≠ place →
      fieldOwned? discriminator start members (some (place :: o)) (turn :: rest) = none := by
    intro turn rest hne
    exact if_neg fun howner => hne (head_of_owner? howner).symm
  have hbefore : (Address.fromPlace 0 (members.take place)).filterMap
      (fieldOwned? discriminator start members (some (place :: o))) = [] := by
    rw [List.filterMap_eq_nil_iff]
    intro a ha
    obtain ⟨turn, rest, rfl, _, hlt⟩ := Address.exists_cons_of_mem_fromPlace ha
    exact helsewhere (by omega)
  have hafter : (Address.fromPlace (place + 1) (members.drop (place + 1))).filterMap
      (fieldOwned? discriminator start members (some (place :: o))) = [] := by
    rw [List.filterMap_eq_nil_iff]
    intro a ha
    obtain ⟨turn, rest, rfl, hge, _⟩ := Address.exists_cons_of_mem_fromPlace ha
    exact helsewhere (by omega)
  rw [ownedFields, hall, List.filterMap_append, List.filterMap_append, hbefore, hafter]
  simp

/-- What an object inside a member owns does not depend on whether one looks from the member or
from around it. -/
private theorem ownedFields_inside {inner : Members}
    (h : members[place]? = some (key, .object inner)) {o : Address} (ho : o ≠ []) :
    ownedFields discriminator start members (some (place :: o)) =
      ownedFields discriminator s!"{start}.{key}" inner (some o) := by
  have hself : fieldOwned? discriminator start members (some (place :: o)) [place] = none :=
    if_neg (by simp [owner?_singleton])
  rw [ownedFields_member h, Address.ofMember, List.filterMap_append, List.filterMap_map,
    Address.inside, ownedFields, Address.all]
  simp only [List.filterMap_cons, hself, List.filterMap_nil, List.append_nil]
  refine List.filterMap_congr fun a ha => ?_
  obtain ⟨turn, rest, rfl, _, _⟩ := Address.exists_cons_of_mem_fromPlace ha
  exact fieldOwned?_cons_inside h ho rest

end Member

/-! ## Everything routed by ownership -/

/-- The fields that escape from the properties at some addresses, and the types declared there, are
those that ownership tells. -/
structure Routed (discriminator start : String) (document : Members) (addresses : List Address)
    (fields : List Field) (types : List Definition) : Prop where
  escaped : fields = addresses.filterMap (fieldOwned? discriminator start document none)
  declared : types = (addresses.filterMap (declaredAt? discriminator document)).map
    (ownedDefinition discriminator start document)

namespace Routed

variable {discriminator start key : String} {members inner : Members} {place : Nat}
  {value : Value}

theorem nil : Routed discriminator start members [] [] [] := ⟨rfl, rfl⟩

theorem append {front back : List Address} {fields others : List Field}
    {types further : List Definition}
    (hfront : Routed discriminator start members front fields types)
    (hback : Routed discriminator start members back others further) :
    Routed discriminator start members (front ++ back) (fields ++ others) (types ++ further) where
  escaped := by rw [hfront.escaped, hback.escaped, List.filterMap_append]
  declared := by
    rw [hfront.declared, hback.declared, List.filterMap_append, List.map_append]

/-- Members in a row, when each of them is routed. -/
theorem ofMembers (part : Members)
    (h : ∀ turn key value, part[turn]? = some (key, value) →
      Routed discriminator start members (Address.ofMember (place + turn) value)
        (surfaced discriminator start (key, value))
        (recorded discriminator start (key, value)).definitions) :
    Routed discriminator start members (Address.fromPlace place part)
      (surfacedAll discriminator start part) (recordedAll discriminator start part).definitions := by
  induction part generalizing place with
  | nil => exact nil
  | cons member rest ih =>
    rw [Address.fromPlace_cons, surfacedAll_cons, recordedAll]
    refine append (h 0 member.1 member.2 (by simp)) (ih fun turn key value hmember => ?_)
    have hnext := h (turn + 1) key value (by simpa using hmember)
    rwa [show place + (turn + 1) = place + 1 + turn by omega] at hnext

/-- A member that is no object. -/
theorem leaf (h : members[place]? = some (key, value))
    (hleaf : ∀ inner, value ≠ .object inner) :
    Routed discriminator start members (Address.ofMember place value)
      (surfaced discriminator start (key, value))
      (recorded discriminator start (key, value)).definitions := by
  have hinside : Address.ofMember place value = [[place]] := by
    cases value with
    | object inner => exact absurd rfl (hleaf inner)
    | _ => simp [Address.ofMember, Address.inside]
  have hfield : fieldOwned? discriminator start members none [place] =
      propertyField? discriminator s!"{start}.{key}" key value := by
    rw [fieldOwned?, if_pos (owner?_singleton _ _ _), fieldAt?_singleton h]
  constructor
  · rw [hinside, List.filterMap_cons, hfield, List.filterMap_nil]
    cases value with
    | object inner => exact absurd rfl (hleaf inner)
    | array items =>
      cases items with
      | nil => simp [surfaced, resolveProperty, resolveArray, propertyField?]
      | cons first rest =>
        cases first <;>
          simp [surfaced, resolveProperty, resolveArray, arrayKind?, Value.kind, propertyField?]
    | _ => simp [surfaced, resolveProperty, propertyField?]
  · rw [hinside, List.filterMap_cons, declaredAt?_singleton]
    cases value with
    | object inner => exact absurd rfl (hleaf inner)
    | array items =>
      cases items with
      | nil => simp [recorded, resolveProperty, resolveArray]
      | cons first rest =>
        cases hkind : arrayKind? first <;>
          simp [recorded, resolveProperty, resolveArray, hkind]
    | _ => simp [recorded, resolveProperty]

section Object

variable (start) (h : members[place]? = some (key, .object inner)) (offset : Nat)
  (part : Members)

include h

/-- Members before the declaration of their object, or of an object without one. -/
private theorem escaped_free
    (hfree : ∀ declaration, hoistedAs? discriminator key inner = some declaration →
      offset + part.length ≤ declaration.1) :
    ((Address.fromPlace offset part).map (place :: ·)).filterMap
          (fieldOwned? discriminator start members none) =
        (Address.fromPlace offset part).filterMap
          (fieldOwned? discriminator s!"{start}.{key}" inner none) ∧
      ((Address.fromPlace offset part).map (place :: ·)).filterMap
          (fieldOwned? discriminator start members (some [place])) = [] := by
  have hstep : ∀ a ∈ Address.fromPlace offset part,
      fieldOwned? discriminator start members none (place :: a) =
          fieldOwned? discriminator s!"{start}.{key}" inner none a ∧
        fieldOwned? discriminator start members (some [place]) (place :: a) = none := by
    intro a ha
    obtain ⟨turn, rest, rfl, _, hlt⟩ := Address.exists_cons_of_mem_fromPlace ha
    refine fieldOwned?_cons_free h ?_
    rw [encloses_self h]
    cases hdeclared : hoistedAs? discriminator key inner with
    | none => rfl
    | some declaration =>
      have hle := hfree declaration hdeclared
      simp only [Option.any_some, decide_eq_false_iff_not]
      omega
  rw [List.filterMap_map, List.filterMap_map]
  exact ⟨List.filterMap_congr fun a ha => (hstep a ha).1,
    List.filterMap_eq_nil_iff.2 fun a ha => (hstep a ha).2⟩

/-- Members from the declaration of their object on. -/
private theorem escaped_enclosed {declaration : Nat × String}
    (hdeclared : hoistedAs? discriminator key inner = some declaration)
    (hle : declaration.1 ≤ offset) :
    ((Address.fromPlace offset part).map (place :: ·)).filterMap
          (fieldOwned? discriminator start members none) = [] ∧
      ((Address.fromPlace offset part).map (place :: ·)).filterMap
          (fieldOwned? discriminator start members (some [place])) =
        (Address.fromPlace offset part).filterMap
          (fieldOwned? discriminator s!"{start}.{key}" inner none) := by
  have hstep : ∀ a ∈ Address.fromPlace offset part,
      fieldOwned? discriminator start members none (place :: a) = none ∧
        fieldOwned? discriminator start members (some [place]) (place :: a) =
          fieldOwned? discriminator s!"{start}.{key}" inner none a := by
    intro a ha
    obtain ⟨turn, rest, rfl, hge, _⟩ := Address.exists_cons_of_mem_fromPlace ha
    refine fieldOwned?_cons_enclosed h ?_
    rw [encloses_self h, hdeclared]
    simp only [Option.any_some, decide_eq_true_eq]
    omega
  rw [List.filterMap_map, List.filterMap_map]
  exact ⟨List.filterMap_eq_nil_iff.2 fun a ha => (hstep a ha).1,
    List.filterMap_congr fun a ha => (hstep a ha).2⟩

/-- Apart from the declaration of their object itself, members declare the same types with the same
fields, seen from inside the object and from around it. -/
private theorem declared_below
    (hother : ∀ declaration, hoistedAs? discriminator key inner = some declaration →
      declaration.1 < offset ∨ offset + part.length ≤ declaration.1) :
    (((Address.fromPlace offset part).map (place :: ·)).filterMap
        (declaredAt? discriminator members)).map (ownedDefinition discriminator start members) =
      ((Address.fromPlace offset part).filterMap (declaredAt? discriminator inner)).map
        (ownedDefinition discriminator s!"{start}.{key}" inner) := by
  have hstep : ∀ a ∈ Address.fromPlace offset part,
      declaredAt? discriminator members (place :: a) =
        (declaredAt? discriminator inner a).map fun hoisted =>
          (place :: hoisted.1, hoisted.2) := by
    intro a ha
    obtain ⟨turn, rest, rfl, hge, hlt⟩ := Address.exists_cons_of_mem_fromPlace ha
    refine declaredAt?_cons h rest fun name hdeclared => ?_
    rcases hother _ hdeclared with hlt' | hle <;> omega
  have hfields : ∀ hoisted ∈
        (Address.fromPlace offset part).filterMap (declaredAt? discriminator inner),
      ownedDefinition discriminator start members (place :: hoisted.1, hoisted.2) =
        ownedDefinition discriminator s!"{start}.{key}" inner hoisted := by
    intro hoisted hmem
    obtain ⟨a, _, ha⟩ := List.mem_filterMap.1 hmem
    obtain ⟨_, hdeclared, _⟩ := declaredAt?_eq_some.1 ha
    have hne : hoisted.1 ≠ [] := by
      intro hnil
      rw [hnil, hoist?_nil] at hdeclared
      cases hdeclared
    simp only [ownedDefinition, ownedFields_inside h hne]
  have hlifted : ((Address.fromPlace offset part).map (place :: ·)).filterMap
        (declaredAt? discriminator members) =
      ((Address.fromPlace offset part).filterMap (declaredAt? discriminator inner)).map
        fun hoisted => (place :: hoisted.1, hoisted.2) := by
    rw [List.filterMap_map, List.map_filterMap]
    exact List.filterMap_congr hstep
  rw [hlifted, List.map_map]
  exact List.map_congr_left hfields

end Object

/-- An object that does not become a type: everything in it is routed as if it stood around the
object. -/
theorem plainObject (h : members[place]? = some (key, .object inner))
    (hplain : hoistedAs? discriminator key inner = none)
    (hinner : Routed discriminator s!"{start}.{key}" inner (Address.fromPlace 0 inner)
      (surfacedAll discriminator s!"{start}.{key}" inner)
      (recordedAll discriminator s!"{start}.{key}" inner).definitions) :
    Routed discriminator start members (Address.ofMember place (.object inner))
      (surfaced discriminator start (key, .object inner))
      (recorded discriminator start (key, .object inner)).definitions := by
  have hnever : ∀ declaration, hoistedAs? discriminator key inner ≠ some declaration := by
    simp [hplain]
  have hself : fieldOwned? discriminator start members none [place] = none := by
    rw [fieldOwned?, if_pos (owner?_singleton _ _ _), fieldAt?_singleton h]
    simp [propertyField?, hplain]
  constructor
  · rw [surfaced_plainObject discriminator start (hoistedAs?_eq_none.1 hplain), hinner.escaped,
      Address.ofMember, Address.inside, List.filterMap_append,
      (escaped_free start h 0 inner fun declaration hd => absurd hd (hnever declaration)).1]
    simp [hself]
  · rw [recorded_plainObject discriminator start (hoistedAs?_eq_none.1 hplain),
      definitions_recordedUntyped, hinner.declared, Address.ofMember, Address.inside,
      List.filterMap_append, List.map_append,
      declared_below start h 0 inner fun declaration hd => absurd hd (hnever declaration)]
    simp [declaredAt?_singleton]

/-- An object that becomes a type: what stands before the declaration is routed as if it stood
around the object, the rest belongs to the new type. -/
theorem typedObject {before after : Members} {name : String}
    (h : members[place]? = some (key, .object inner))
    (hsplit : inner = before ++ (discriminator, .string name) :: after)
    (htyped : hoistedAs? discriminator key inner = some (before.length, name))
    (hplain : ∀ member ∈ before, declared? discriminator member = none)
    (hinner : ∀ offset part, (∀ turn : Nat, turn < part.length →
        part[turn]? = inner[offset + turn]?) →
      Routed discriminator s!"{start}.{key}" inner (Address.fromPlace offset part)
        (surfacedAll discriminator s!"{start}.{key}" part)
        (recordedAll discriminator s!"{start}.{key}" part).definitions) :
    Routed discriminator start members (Address.ofMember place (.object inner))
      (surfaced discriminator start (key, .object inner))
      (recorded discriminator start (key, .object inner)).definitions := by
  obtain ⟨hkey, -⟩ := hoistedAs?_eq_some htyped
  have hbefore := hinner 0 before fun turn hlt => by
    rw [hsplit, Nat.zero_add, List.getElem?_append_left hlt]
  have hfrom := hinner before.length ((discriminator, .string name) :: after) fun turn _ => by
    rw [hsplit, List.getElem?_append_right (Nat.le_add_right _ _), Nat.add_sub_cancel_left]
  have hafter := hinner (before.length + 1) after fun turn _ => by
    rw [hsplit, List.getElem?_append_right (by omega),
      show before.length + 1 + turn - before.length = turn + 1 by omega, List.getElem?_cons_succ]
  have hplace : ∀ declaration, hoistedAs? discriminator key inner = some declaration →
      declaration.1 = before.length := by
    intro declaration hd
    rw [htyped, Option.some.injEq] at hd
    rw [← hd]
  have hfree := escaped_free start h 0 before fun declaration hd => by
    rw [hplace declaration hd, Nat.zero_add]
  have henclosed := escaped_enclosed start h before.length
    ((discriminator, .string name) :: after) htyped (Nat.le_refl _)
  have hparts : Address.ofMember place (.object inner) =
      (Address.fromPlace 0 before).map (place :: ·) ++
        ((Address.fromPlace before.length ((discriminator, .string name) :: after)).map
          (place :: ·) ++ [[place]]) := by
    simp only [Address.ofMember, Address.inside]
    rw [hsplit, Address.fromPlace_append, Nat.zero_add, List.map_append, List.append_assoc]
  have hself : fieldOwned? discriminator start members none [place] =
      some (referenceField s!"{start}.{key}" key name) := by
    rw [fieldOwned?, if_pos (owner?_singleton _ _ _), fieldAt?_singleton h]
    simp [propertyField?, htyped]
  have hfields : ownedFields discriminator start members (some [place]) =
      surfacedAll discriminator s!"{start}.{key}" ((discriminator, .string name) :: after) := by
    rw [ownedFields_member h [], hparts, List.filterMap_append, List.filterMap_append, hfree.2,
      henclosed.2, hfrom.escaped]
    simp [fieldOwned?, owner?_singleton]
  have hdeclaration : declaredAt? discriminator members [place, before.length] =
      some ([place], name) := declaredAt?_declaration h htyped
  constructor
  · rw [hparts, List.filterMap_append, List.filterMap_append, hfree.1, henclosed.1,
      ← hbefore.escaped]
    subst hsplit
    rw [surfaced_typedObject discriminator start hkey hplain]
    simp [hself]
  · rw [hparts, Address.fromPlace_cons, List.map_append, List.filterMap_append,
      List.filterMap_append, List.filterMap_append, List.map_append, List.map_append,
      List.map_append, declared_below start h 0 before, declared_below start h _ after,
      ← hbefore.declared, ← hafter.declared]
    · subst hsplit
      rw [recorded_typedObject discriminator start hkey hplain]
      simp [definitions_recordedUntyped, Address.ofMember, Address.inside, hdeclaration,
        declaredAt?_singleton, ownedDefinition, hfields]
    · intro declaration hd
      exact Or.inl (by rw [hplace declaration hd]; exact Nat.lt_succ_self _)
    · intro declaration hd
      exact Or.inr (by rw [hplace declaration hd, Nat.zero_add])

/-- **Every member is routed by ownership.** -/
theorem ofMember (h : members[place]? = some (key, value)) :
    Routed discriminator start members (Address.ofMember place value)
      (surfaced discriminator start (key, value))
      (recorded discriminator start (key, value)).definitions := by
  induction value using Value.memberInduction generalizing start key members place with
  | leaf value hleaf => exact leaf h hleaf
  | object inner ih =>
    have hinner : ∀ offset part, (∀ turn : Nat, turn < part.length →
          part[turn]? = inner[offset + turn]?) →
        Routed discriminator s!"{start}.{key}" inner (Address.fromPlace offset part)
          (surfacedAll discriminator s!"{start}.{key}" part)
          (recordedAll discriminator s!"{start}.{key}" part).definitions := by
      intro offset part hpart
      refine ofMembers part fun turn key value hmember => ?_
      have hlt := (List.getElem?_eq_some_iff.1 hmember).1
      rw [hpart turn hlt] at hmember
      exact ih (key, value) (List.mem_of_getElem? hmember) hmember
    cases hhoisted : hoistedAs? discriminator key inner with
    | none => exact plainObject h hhoisted (hinner 0 inner fun turn _ => by rw [Nat.zero_add])
    | some declaration =>
      rcases declaration with ⟨declaredPlace, name⟩
      obtain ⟨before, after, hsplit, rfl, hplain⟩ :=
        declaration?_eq_some (hoistedAs?_eq_some hhoisted).2
      exact typedObject h hsplit hhoisted hplain hinner

end Routed

/-- **The definitions of a plan**, by ownership. -/
theorem definitions_eq_owned (discriminator root : String) (document : Members) :
    (planOfMembers discriminator root document).definitions =
      (hoistedTypes discriminator document).map (ownedDefinition discriminator "$" document) ++
        [{ name := root, fields := ownedFields discriminator "$" document none }] := by
  have hrouted : Routed discriminator "$" document (Address.all document)
      (surfacedAll discriminator "$" document) (recordedAll discriminator "$" document).definitions :=
    Routed.ofMembers document fun turn key value hmember =>
      Routed.ofMember (by rwa [Nat.zero_add])
  rw [definitions_planOfMembers_eq, hrouted.escaped, hrouted.declared]
  rfl

/-- Exactly the hoisted objects are listed. -/
theorem mem_hoistedTypes {discriminator name : String} {document : Members} {o : Address} :
    (o, name) ∈ hoistedTypes discriminator document ↔
      ∃ place, hoist? discriminator document o = some (place, name) := by
  rw [hoistedTypes, List.mem_filterMap]
  constructor
  · rintro ⟨a, _, ha⟩
    obtain ⟨place, hhoist, _⟩ := declaredAt?_eq_some.1 ha
    exact ⟨place, hhoist⟩
  · rintro ⟨place, hhoist⟩
    refine ⟨o ++ [place], ?_, declaredAt?_eq_some.2 ⟨place, hhoist, rfl⟩⟩
    rw [Address.mem_all, property?_declaration hhoist]
    rfl

/-- Every hoisted object is listed once. -/
theorem nodup_hoistedTypes (discriminator : String) (document : Members) :
    ((hoistedTypes discriminator document).map Prod.fst).Nodup := by
  rw [hoistedTypes, List.map_filterMap]
  refine (Address.nodup_all document).filterMap fun a b o ha hb => ?_
  obtain ⟨⟨o, name⟩, hdeclared, rfl⟩ := Option.map_eq_some_iff.1 ha
  obtain ⟨⟨_, name'⟩, hdeclared', rfl⟩ := Option.map_eq_some_iff.1 hb
  obtain ⟨place, hhoist, rfl⟩ := declaredAt?_eq_some.1 hdeclared
  obtain ⟨place', hhoist', rfl⟩ := declaredAt?_eq_some.1 hdeclared'
  simp only [hhoist, Option.some.injEq, Prod.mk.injEq] at hhoist'
  rw [hhoist'.1]

/-- The hoisted objects are listed in the document order of the properties that declare them. -/
theorem pairwise_hoistedTypes (discriminator : String) (document : Members) :
    (hoistedTypes discriminator document).Pairwise fun first second => ∃ place turn,
      hoist? discriminator document first.1 = some (place, first.2) ∧
      hoist? discriminator document second.1 = some (turn, second.2) ∧
      Address.Before (first.1 ++ [place]) (second.1 ++ [turn]) := by
  rw [hoistedTypes, List.pairwise_filterMap]
  refine (Address.pairwise_all document).imp fun hbefore first hfirst second hsecond => ?_
  obtain ⟨place, hhoist, rfl⟩ := declaredAt?_eq_some.1 hfirst
  obtain ⟨turn, hhoist', rfl⟩ := declaredAt?_eq_some.1 hsecond
  exact ⟨place, turn, hhoist, hhoist', hbefore⟩

/-- Every owner is a hoisted object, so no field is without a definition. -/
theorem mem_hoistedTypes_of_owner? {discriminator : String} {document : Members} {a o : Address}
    (h : owner? discriminator document a = some o) :
    ∃ name, (o, name) ∈ hoistedTypes discriminator document := by
  obtain ⟨⟨place, name⟩, hhoist⟩ := Option.isSome_iff_exists.1 (isPrefix_of_owner? h).2.2.2
  exact ⟨name, mem_hoistedTypes.2 ⟨place, hhoist⟩⟩

/-- The field of a hoisted object is a reference to its type. -/
theorem fieldAt?_hoisted {discriminator name start : String} {document : Members} {o : Address}
    (h : (o, name) ∈ hoistedTypes discriminator document) :
    ∃ key members, Address.property? document o = some (key, .object members) ∧
      fieldAt? discriminator start document o =
        some (referenceField (Address.path start document o) key name) := by
  obtain ⟨place, hhoist⟩ := mem_hoistedTypes.1 h
  obtain ⟨key, before, after, hproperty, htyped, _⟩ := hoist?_eq_some hhoist
  refine ⟨key, _, hproperty, ?_⟩
  simp [fieldAt?, hproperty, propertyField?, htyped]

/-- **Owner rule.** The definitions of a plan are one for each hoisted object, in the document
order of the declarations, and the root behind them. A definition holds the fields of exactly the
properties that its object owns, a hoisted object being represented by a reference to its type, and
the owner of a property is the innermost object whose declaration stands at or before the way to
the property. The other parts say that the listing is exact: all properties are gone through in
document order, all hoisted objects are listed, each once and in the order of the properties that
declare them, and every owner is among them. -/
theorem definitions_by_owner (discriminator root : String) (document : Members) :
    (planOfMembers discriminator root document).definitions =
        (hoistedTypes discriminator document).map (ownedDefinition discriminator "$" document) ++
          [{ name := root, fields := ownedFields discriminator "$" document none }] ∧
      ((∀ a, a ∈ Address.all document ↔ (Address.property? document a).isSome) ∧
        (Address.all document).Pairwise Address.Before) ∧
      ((∀ o name, (o, name) ∈ hoistedTypes discriminator document ↔
          ∃ place, hoist? discriminator document o = some (place, name)) ∧
        ((hoistedTypes discriminator document).map Prod.fst).Nodup ∧
        (hoistedTypes discriminator document).Pairwise fun first second => ∃ place turn,
          hoist? discriminator document first.1 = some (place, first.2) ∧
          hoist? discriminator document second.1 = some (turn, second.2) ∧
          Address.Before (first.1 ++ [place]) (second.1 ++ [turn])) ∧
      (∀ a o, owner? discriminator document a = some o ↔
        o <+: a ∧ encloses discriminator document a o = true ∧
          ∀ other, other <+: a → encloses discriminator document a other = true →
            other <+: o) ∧
      (∀ a o, owner? discriminator document a = some o →
        ∃ name, (o, name) ∈ hoistedTypes discriminator document) ∧
      (∀ o name, (o, name) ∈ hoistedTypes discriminator document →
        ∃ key members, Address.property? document o = some (key, .object members) ∧
          fieldAt? discriminator "$" document o =
            some (referenceField (Address.path "$" document o) key name)) := by
  refine ⟨definitions_eq_owned discriminator root document,
    ⟨fun a => Address.mem_all, Address.pairwise_all document⟩,
    ⟨fun o name => mem_hoistedTypes, nodup_hoistedTypes discriminator document,
      pairwise_hoistedTypes discriminator document⟩,
    fun a o => owner?_eq_some, fun a o => mem_hoistedTypes_of_owner?,
    fun o name => fieldAt?_hoisted⟩

end SampleTypes
