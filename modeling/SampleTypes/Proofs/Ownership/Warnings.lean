import SampleTypes.Proofs.Json.DistinctKeys
import SampleTypes.Proofs.Ownership.Definitions

/-!
# The warnings of a plan, by property

The walk warns in three places and at different depths. Said of addresses, a property gives at most
two warnings: one if its value has to be skipped, and behind that one if it is the discriminator
of a nested object that stays without a type because of it. The warnings of a plan are those of its
properties in document order, where a property comes behind all that stand inside it. So what a
discriminator's own value gives, be it the warnings of a whole subtree, comes directly in front of
the warning about the discriminator.

The induction is on the value of a property, as for the definitions. An object adds nothing of its
own; what it changes is that the members up to its declaration may each be refused as a
discriminator, which shows in the warnings of exactly the addresses one step below it.

## Main results

* `warnings_ofMember`: what a member warns of.
* `warnings_by_property`: the warnings of a plan, and what follows for single properties.
-/

namespace SampleTypes

open Json (Value Members)

/-- Why a value is skipped: it is null, or an array that is empty or starts with anything but a
string or a number. -/
def skipReason? : Value → Option String
  | .null => some "unsupported value null"
  | .array [] => some "empty array has no element type"
  | .array (.string _ :: _) => none
  | .array (.int _ :: _) => none
  | .array (.float _ :: _) => none
  | .array (first :: _) => some ("unsupported array element type " ++ first.describe)
  | _ => none

/-- The warning about a property that is skipped. -/
def skipWarning (path key reason : String) : String :=
  s!"{path}: skipped '{key}': " ++ reason

/-- The warning about a discriminator that is no string, in an object that `introducing`
introduces. -/
def hoistWarning (path key : String) (value : Value) (introducing : String) : String :=
  s!"{path}: '{key}' is " ++ value.describe ++
    s!", not a string; '{Identifier.ofKey introducing}' is not hoisted"

/-- The key of the nested object that the property at an address fails to make a type: the property
is its discriminator, is no string, and does not stand behind one that is. -/
def unhoisted? (discriminator : String) (document : Members) (a : Address) : Option String :=
  match Address.property? document a.dropLast, Address.property? document a with
  | some (introducing, .object _), some (key, value) =>
    if introducing ≠ "" ∧ introducing ≠ "@" ∧ key = discriminator ∧ value.kind ≠ .string ∧
        encloses discriminator document a a.dropLast = false then
      some introducing
    else none
  | _, _ => none

/-- The warnings that the property at an address gives. -/
def warningsAt (discriminator start : String) (document : Members) (a : Address) : List String :=
  match Address.property? document a with
  | some (key, value) =>
    ((skipReason? value).map (skipWarning (Address.path start document a) key)).toList ++
      ((unhoisted? discriminator document a).map
        (hoistWarning (Address.path start document a) key value)).toList
  | none => []

/-! ## Addresses -/

namespace Address

variable {document members : Members} {o a : Address} {key : String} {member : String × Value}

/-- Where a property stands, the address is listed. -/
theorem mem_all_of_property? (h : property? document a = some member) : a ∈ all document := by
  rw [mem_all, h]
  rfl

/-- The properties of an object stand one step below it. -/
theorem property?_concat (h : property? document o = some (key, .object members)) (turn : Nat) :
    property? document (o ++ [turn]) = members[turn]? := by
  rw [property?_append h (List.cons_ne_nil turn []), property?_singleton]

end Address

/-! ## Single values -/

/-- Everything is typed but null and arrays that do not start with a string or a number. -/
theorem skipReason?_eq_none {value : Value} : skipReason? value = none ↔
    value ≠ .null ∧ ∀ items, value = .array items →
      ∃ first rest, items = first :: rest ∧ (first.kind = .string ∨ first.kind = .number) := by
  cases value with
  | array items =>
    cases items with
    | nil => simp [skipReason?]
    | cons first rest => cases first <;> simp [skipReason?, Value.kind]
  | _ => simp [skipReason?]

theorem skipReason?_array (first : Value) (rest : List Value) :
    skipReason? (.array (first :: rest)) =
      if arrayKind? first = none then some ("unsupported array element type " ++ first.describe)
      else none := by
  cases first <;> rfl

/-- The warning about a skipped property, with the end of its fixed words joined to the reason. -/
theorem skipWarning_eq {reason ending : String} (path key : String)
    (h : "': " ++ reason = ending) :
    skipWarning path key reason = s!"{path}: skipped '{key}" ++ ending := by
  subst h
  exact String.append_assoc

/-- What a property that is no object records. -/
theorem warnings_recorded_leaf {discriminator start key : String} {value : Value}
    (hleaf : ∀ inner, value ≠ .object inner) :
    (recorded discriminator start (key, value)).warnings =
      ((skipReason? value).map (skipWarning s!"{start}.{key}" key)).toList := by
  cases value with
  | object inner => exact absurd rfl (hleaf inner)
  | null =>
    simp only [recorded, resolveProperty, skipReason?, Option.map_some, Option.toList_some]
    rw [skipWarning_eq _ _ rfl]
    rfl
  | array items =>
    cases items with
    | nil =>
      simp only [recorded, resolveProperty, resolveArray, skipReason?, Option.map_some,
        Option.toList_some]
      rw [skipWarning_eq _ _ rfl]
      rfl
    | cons first rest =>
      rw [skipReason?_array]
      cases hkind : arrayKind? first with
      | some kind => simp [recorded, resolveProperty, resolveArray, hkind]
      | none =>
        simp only [recorded, resolveProperty, resolveArray, hkind, if_true, Option.map_some,
          Option.toList_some]
        rw [skipWarning_eq _ _ String.append_assoc.symm, ← String.append_assoc]
        rfl
  | _ => rfl

/-- A property that yields no field is an object or is warned of. -/
theorem propertyField?_or_skipReason? {value : Value} (hleaf : ∀ inner, value ≠ .object inner)
    (discriminator path key : String) :
    (propertyField? discriminator path key value).isSome ∨ (skipReason? value).isSome := by
  cases value with
  | object inner => exact absurd rfl (hleaf inner)
  | array items =>
    cases items with
    | nil => exact Or.inr rfl
    | cons first rest => cases first <;> simp [propertyField?, skipReason?]
  | _ => simp [propertyField?]

/-! ## One step down -/

section Step

variable {discriminator start key : String} {members inner : Members} {place turn : Nat}
  {member : String × Value}

/-- A member of the root is no discriminator of a nested object. -/
theorem warningsAt_singleton (h : members[place]? = some member) :
    warningsAt discriminator start members [place] =
      ((skipReason? member.2).map (skipWarning s!"{start}.{member.1}" member.1)).toList := by
  have hroot : unhoisted? discriminator members [place] = none := rfl
  simp only [warningsAt, Address.property?_singleton, h, Address.path_singleton h, hroot,
    Option.map_none, Option.toList_none, List.append_nil]

/-- Further down the warnings are those seen from inside. -/
theorem warningsAt_cons (h : members[place]? = some (key, .object inner)) (next : Nat)
    (rest : Address) :
    warningsAt discriminator start members (place :: turn :: next :: rest) =
      warningsAt discriminator s!"{start}.{key}" inner (turn :: next :: rest) := by
  have hdrop : (turn :: next :: rest).dropLast ≠ [] := by simp
  have hencloses :
      encloses discriminator members (place :: turn :: next :: rest)
          (place :: (turn :: next :: rest).dropLast) =
        encloses discriminator inner (turn :: next :: rest) (turn :: next :: rest).dropLast := by
    simp only [encloses, hoist?_cons h hdrop]
    rfl
  have hunhoisted :
      unhoisted? discriminator members (place :: turn :: next :: rest) =
        unhoisted? discriminator inner (turn :: next :: rest) := by
    simp only [unhoisted?, List.dropLast_cons_cons (x := place), Address.property?_cons h hdrop,
      Address.property?_cons h (List.cons_ne_nil turn _), hencloses]
  simp only [warningsAt, Address.property?_cons h (List.cons_ne_nil turn _), Address.path_cons h,
    hunhoisted]

/-- One step down a member of the object may have been refused as its discriminator. -/
theorem warningsAt_turn (h : members[place]? = some (key, .object inner))
    (hmember : inner[turn]? = some member) :
    warningsAt discriminator start members [place, turn] =
      warningsAt discriminator s!"{start}.{key}" inner [turn] ++
        ((unhoisted? discriminator members [place, turn]).map
          (hoistWarning (Address.path start members [place, turn]) member.1 member.2)).toList := by
  have hproperty : Address.property? members [place, turn] = some member :=
    (Address.property?_concat (o := [place]) h turn).trans hmember
  rw [warningsAt_singleton hmember]
  simp only [warningsAt, hproperty, Address.path_cons h, Address.path_singleton hmember]

/-- Behind its declaration an object refuses nothing. -/
theorem unhoisted?_of_typed (h : members[place]? = some (key, .object inner))
    {declaration : Nat × String} (htyped : hoistedAs? discriminator key inner = some declaration)
    (hle : declaration.1 ≤ turn) : unhoisted? discriminator members [place, turn] = none := by
  have hencloses : encloses discriminator members [place, turn] [place] = true := by
    rw [encloses_self h, htyped]
    simpa using hle
  have hdrop : [place, turn].dropLast = [place] := rfl
  unfold unhoisted?
  rw [hdrop, hencloses]
  split
  · simp
  · rfl

/-- In front of a declaration, or without one, an object refuses the discriminators that are no
strings. -/
theorem unhoisted?_of_untyped (h : members[place]? = some (key, .object inner))
    (hfree : ∀ declaration, hoistedAs? discriminator key inner = some declaration →
      turn < declaration.1)
    (hmember : inner[turn]? = some member) (path : String) :
    ((unhoisted? discriminator members [place, turn]).map
        (hoistWarning path member.1 member.2)).toList =
      (refusal discriminator (Identifier.ofKey key) path member).warnings := by
  have hencloses : encloses discriminator members [place, turn] [place] = false := by
    rw [encloses_self h]
    cases hhoisted : hoistedAs? discriminator key inner with
    | none => rfl
    | some declaration => simpa using hfree declaration hhoisted
  have hproperty : Address.property? members [place, turn] = some member :=
    (Address.property?_concat (o := [place]) h turn).trans hmember
  have hdrop : [place, turn].dropLast = [place] := rfl
  have hkey : Identifier.ofKey key ≠ "" ↔ key ≠ "" ∧ key ≠ "@" := by
    rw [ne_eq, Identifier.ofKey_eq_empty, not_or]
  rcases member with ⟨name, value⟩
  simp only [unhoisted?, hdrop, hproperty, Address.property?_singleton, h, hencloses, and_true]
  by_cases hmeets : (key ≠ "" ∧ key ≠ "@") ∧ name = discriminator
  · cases value with
    | string s => simp [refusal, Value.kind]
    | _ => simp [refusal, hkey, hmeets, hoistWarning, Value.kind]
  · have hnone : ¬(key ≠ "" ∧ key ≠ "@" ∧ name = discriminator ∧ value.kind ≠ .string) :=
      fun hall => hmeets ⟨⟨hall.1, hall.2.1⟩, hall.2.2.1⟩
    rw [if_neg hnone]
    cases value with
    | string s => rfl
    | _ => simp [refusal, hkey, hmeets]

/-- The warnings of a member of an object, seen from around the object. -/
theorem warnings_below (h : members[place]? = some (key, .object inner))
    (hmember : inner[turn]? = some member) :
    ((Address.ofMember turn member.2).map (place :: ·)).flatMap
        (warningsAt discriminator start members) =
      (Address.ofMember turn member.2).flatMap
          (warningsAt discriminator s!"{start}.{key}" inner) ++
        ((unhoisted? discriminator members [place, turn]).map
          (hoistWarning (Address.path start members [place, turn]) member.1 member.2)).toList := by
  have hinside : ((Address.inside member.2).map (turn :: ·)).flatMap
        (fun a => warningsAt discriminator start members (place :: a)) =
      ((Address.inside member.2).map (turn :: ·)).flatMap
        (warningsAt discriminator s!"{start}.{key}" inner) := by
    refine List.flatMap_congr fun a ha => ?_
    obtain ⟨b, hb, rfl⟩ := List.mem_map.1 ha
    cases b with
    | nil => exact absurd hb (Address.nil_notMem_inside member.2)
    | cons next rest => exact warningsAt_cons h next rest
  rw [List.flatMap_map, Address.ofMember, List.flatMap_append, List.flatMap_append, hinside,
    List.flatMap_singleton, List.flatMap_singleton, warningsAt_turn h hmember, List.append_assoc]

end Step

/-! ## Members in a row -/

section Row

variable {discriminator start key : String} {members inner : Members} {place : Nat}

/-- The warnings of members in a row, when those of each member are known. -/
theorem warnings_recordedAll (part : Members) (offset : Nat)
    (h : ∀ turn key value, part[turn]? = some (key, value) →
      (recorded discriminator start (key, value)).warnings =
        (Address.ofMember (offset + turn) value).flatMap
          (warningsAt discriminator start members)) :
    (recordedAll discriminator start part).warnings =
      (Address.fromPlace offset part).flatMap (warningsAt discriminator start members) := by
  induction part generalizing offset with
  | nil => rfl
  | cons member rest ih =>
    have hrest := ih (offset + 1) fun turn key value hmember => by
      have hnext := h (turn + 1) key value (by simpa using hmember)
      rwa [show offset + (turn + 1) = offset + 1 + turn by omega] at hnext
    rw [Address.fromPlace_cons, List.flatMap_append, recordedAll, Registry.warnings_append, hrest,
      h 0 member.1 member.2 rfl, Nat.add_zero]

/-- A row that shows what stands from some place on starts with the member in that place. -/
theorem window_cons {row rest : Members} {member : String × Value} {offset : Nat}
    (h : ∀ turn : Nat, turn < (member :: rest).length →
      (member :: rest)[turn]? = row[offset + turn]?) :
    row[offset]? = some member ∧
      ∀ turn : Nat, turn < rest.length → rest[turn]? = row[offset + 1 + turn]? := by
  constructor
  · have hfirst := h 0 (Nat.succ_pos _)
    rwa [List.getElem?_cons_zero, Nat.add_zero, eq_comm] at hfirst
  · intro turn hlt
    have hnext := h (turn + 1) (Nat.succ_lt_succ hlt)
    rwa [List.getElem?_cons_succ, Nat.add_left_comm, Nat.add_comm turn] at hnext

variable (h : members[place]? = some (key, .object inner))
  (hinner : ∀ turn key' value, inner[turn]? = some (key', value) →
    (recorded discriminator s!"{start}.{key}" (key', value)).warnings =
      (Address.ofMember turn value).flatMap (warningsAt discriminator s!"{start}.{key}" inner))

include h hinner

/-- The members of an object that stand from its declaration on: nothing is refused. -/
theorem warnings_typed {declaration : Nat × String}
    (htyped : hoistedAs? discriminator key inner = some declaration) (part : Members)
    (offset : Nat) (hle : declaration.1 ≤ offset)
    (hpart : ∀ turn : Nat, turn < part.length → part[turn]? = inner[offset + turn]?) :
    (recordedAll discriminator s!"{start}.{key}" part).warnings =
      ((Address.fromPlace offset part).map (place :: ·)).flatMap
        (warningsAt discriminator start members) := by
  induction part generalizing offset with
  | nil => rfl
  | cons member rest ih =>
    obtain ⟨hmember, hlater⟩ := window_cons hpart
    have hrest := ih (offset + 1) (by omega) hlater
    rw [Address.fromPlace_cons, List.map_append, List.flatMap_append, recordedAll,
      Registry.warnings_append, hrest, warnings_below h hmember,
      unhoisted?_of_typed h htyped hle, hinner offset member.1 member.2 hmember]
    simp

/-- The members of an object that stand in front of its declaration, or of one without a
declaration: those that are discriminators and no strings are refused. -/
theorem warnings_untyped (part : Members) (offset : Nat)
    (hfree : ∀ declaration, hoistedAs? discriminator key inner = some declaration →
      offset + part.length ≤ declaration.1)
    (hpart : ∀ turn : Nat, turn < part.length → part[turn]? = inner[offset + turn]?) :
    (recordedUntyped discriminator (Identifier.ofKey key) s!"{start}.{key}" part).warnings =
      ((Address.fromPlace offset part).map (place :: ·)).flatMap
        (warningsAt discriminator start members) := by
  induction part generalizing offset with
  | nil => rfl
  | cons member rest ih =>
    obtain ⟨hmember, hlater⟩ := window_cons hpart
    have hbelow : ∀ declaration, hoistedAs? discriminator key inner = some declaration →
        offset + 1 + rest.length ≤ declaration.1 := by
      intro declaration hdeclared
      have hlength := hfree declaration hdeclared
      rw [List.length_cons] at hlength
      omega
    have hfront : ∀ declaration, hoistedAs? discriminator key inner = some declaration →
        offset < declaration.1 := by
      intro declaration hdeclared
      have hlength := hbelow declaration hdeclared
      omega
    have hrest := ih (offset + 1) hbelow hlater
    have hpath : Address.path start members [place, offset] = _ :=
      (Address.path_cons h [offset]).trans (Address.path_singleton hmember)
    rw [Address.fromPlace_cons, List.map_append, List.flatMap_append, recordedUntyped,
      Registry.warnings_append, Registry.warnings_append, hrest, warnings_below h hmember,
      unhoisted?_of_untyped h hfront hmember, hpath, hinner offset member.1 member.2 hmember,
      List.append_assoc]

end Row

/-- **The warnings of a member** are those at its addresses. -/
theorem warnings_ofMember {discriminator start key : String} {members : Members} {place : Nat}
    {value : Value} (h : members[place]? = some (key, value)) :
    (recorded discriminator start (key, value)).warnings =
      (Address.ofMember place value).flatMap (warningsAt discriminator start members) := by
  induction value using Value.memberInduction generalizing start key members place with
  | leaf value hleaf =>
    have hinside : Address.ofMember place value = [[place]] := by
      cases value with
      | object inner => exact absurd rfl (hleaf inner)
      | _ => simp [Address.ofMember, Address.inside]
    rw [hinside, List.flatMap_singleton, warningsAt_singleton h, warnings_recorded_leaf hleaf]
  | object inner ih =>
    have hinner : ∀ turn key' value, inner[turn]? = some (key', value) →
        (recorded discriminator s!"{start}.{key}" (key', value)).warnings =
          (Address.ofMember turn value).flatMap
            (warningsAt discriminator s!"{start}.{key}" inner) :=
      fun turn key' value hmember => ih (key', value) (List.mem_of_getElem? hmember) hmember
    have hself : warningsAt discriminator start members [place] = [] := by
      rw [warningsAt_singleton h]
      rfl
    rw [Address.ofMember, List.flatMap_append, List.flatMap_singleton, hself, List.append_nil,
      Address.inside]
    cases hhoisted : hoistedAs? discriminator key inner with
    | none =>
      rw [recorded_plainObject discriminator start (hoistedAs?_eq_none.1 hhoisted)]
      exact warnings_untyped h hinner inner 0
        (fun declaration hdeclared => by rw [hhoisted] at hdeclared; cases hdeclared)
        fun turn _ => by rw [Nat.zero_add]
    | some declaration =>
      obtain ⟨hkey, hdeclared⟩ := hoistedAs?_eq_some hhoisted
      obtain ⟨before, after, rfl, hlength, hplain⟩ := declaration?_eq_some hdeclared
      have hbefore := warnings_untyped h hinner before 0
        (fun other hother => by
          rw [hhoisted] at hother
          cases hother
          omega)
        fun turn hlt => by rw [Nat.zero_add, List.getElem?_append_left hlt]
      have hafter := warnings_typed h hinner hhoisted
        ((discriminator, .string declaration.2) :: after) before.length (by omega)
        fun turn _ => by
          rw [List.getElem?_append_right (Nat.le_add_right _ _), Nat.add_sub_cancel_left]
      have hnothing : (recorded discriminator s!"{start}.{key}"
          (discriminator, .string declaration.2)).warnings = [] := rfl
      rw [recordedAll, Registry.warnings_append, hnothing, List.nil_append] at hafter
      rw [recorded_typedObject discriminator start hkey hplain, Address.fromPlace_append,
        Nat.zero_add, List.map_append, List.flatMap_append, ← hbefore, ← hafter]
      rfl

/-! ## Single properties -/

section Property

variable {discriminator root : String} {document : Members} {a : Address} {key : String}
  {value : Value}

/-- The objects that a document with distinct keys leads to have distinct keys. -/
theorem distinctKeys_of_property? {members inner : Members} {o : Address}
    (h : (Value.object members).DistinctKeys)
    (hproperty : Address.property? members o = some (key, .object inner)) :
    (Value.object inner).DistinctKeys := by
  induction o generalizing members with
  | nil => cases hproperty
  | cons place rest ih =>
    cases rest with
    | nil => exact h.member (List.mem_of_getElem? hproperty)
    | cons turn rest =>
      obtain ⟨_, between, hmember, hrest⟩ :=
        Address.property?_cons_eq_some hproperty (List.cons_ne_nil turn rest)
      exact ih (h.member (List.mem_of_getElem? hmember)) hrest

/-- An object whose discriminator is no string does not become a type, if no key stands in it
twice. -/
theorem hoistedAs?_of_distinct {members : Members} {turn : Nat}
    (hdistinct : (Assoc.keys members).Nodup)
    (hmember : members[turn]? = some (discriminator, value)) (hkind : value.kind ≠ .string)
    (introducing : String) : hoistedAs? discriminator introducing members = none := by
  refine hoistedAs?_eq_none.2 (Or.inr fun other hother => ?_)
  by_contra hdeclared
  obtain ⟨name, hname⟩ := Option.ne_none_iff_exists'.1 hdeclared
  obtain rfl := declared?_eq_some.1 hname
  have hfirst := Assoc.get?_of_mem hdistinct hother
  rw [Assoc.get?_of_mem hdistinct (List.mem_of_getElem? hmember), Option.some.injEq] at hfirst
  exact hkind (by rw [hfirst]; rfl)

/-- **Which properties are refused**: in a document with distinct keys those that are the
discriminator of an object under a key with an identifier, and no strings. -/
theorem unhoisted?_eq_some (hdistinct : (Value.object document).DistinctKeys)
    {introducing : String} : unhoisted? discriminator document a = some introducing ↔
      ∃ o turn members value, a = o ++ [turn] ∧
        Address.property? document o = some (introducing, .object members) ∧
        introducing ≠ "" ∧ introducing ≠ "@" ∧ members[turn]? = some (discriminator, value) ∧
        value.kind ≠ .string := by
  constructor
  · intro h
    unfold unhoisted? at h
    split at h
    · rename_i introduced members key value hobject hproperty
      split at h
      · rename_i hrefused
        obtain ⟨hempty, hmarker, rfl, hkind, -⟩ := hrefused
        obtain rfl := Option.some.inj h
        have hne : a ≠ [] := by
          rintro rfl
          cases hproperty
        obtain ⟨turn, hturn⟩ : ∃ turn, a = a.dropLast ++ [turn] :=
          ⟨a.getLast hne, (List.dropLast_append_getLast hne).symm⟩
        rw [hturn, Address.property?_concat hobject] at hproperty
        exact ⟨_, turn, members, value, hturn, hobject, hempty, hmarker, hproperty, hkind⟩
      · cases h
    · cases h
  · rintro ⟨o, turn, members, value, rfl, hobject, hempty, hmarker, hmember, hkind⟩
    have hproperty : Address.property? document (o ++ [turn]) = some (discriminator, value) :=
      (Address.property?_concat hobject turn).trans hmember
    have hnone : hoist? discriminator document o = none := by
      unfold hoist?
      rw [hobject]
      have hnodup := (distinctKeys_of_property? hdistinct hobject).nodup
      exact hoistedAs?_of_distinct hnodup hmember hkind introducing
    have hencloses : encloses discriminator document (o ++ [turn]) o = false := by
      unfold encloses
      rw [hnone]
    unfold unhoisted?
    rw [List.dropLast_concat, hobject, hproperty, hencloses]
    exact if_pos ⟨hempty, hmarker, rfl, hkind, rfl⟩

/-- Only discriminators of nested objects that are no strings are refused. -/
theorem unhoisted?_eq_none (hproperty : Address.property? document a = some (key, value))
    (h : 2 ≤ a.length → key = discriminator → value.kind = .string) :
    unhoisted? discriminator document a = none := by
  unfold unhoisted?
  split
  · rename_i introducing members found other hobject hfound
    obtain ⟨rfl, rfl⟩ : key = found ∧ value = other := by
      simpa [hproperty] using hfound
    have hlength : 2 ≤ a.length := by
      have hdrop : a.dropLast ≠ [] := by
        intro hnil
        rw [hnil] at hobject
        cases hobject
      have hpositive := List.length_pos_iff.2 hdrop
      rw [List.length_dropLast] at hpositive
      omega
    exact if_neg fun hrefused => hrefused.2.2.2.1 (h hlength hrefused.2.2.1)
  · rfl

/-- A property that is typed and no refused discriminator gives no warning. -/
theorem warningsAt_of_clean {start : String}
    (hproperty : Address.property? document a = some (key, value))
    (h : value ≠ .null ∧
      (∀ items, value = .array items →
        ∃ first rest, items = first :: rest ∧ (first.kind = .string ∨ first.kind = .number)) ∧
      (2 ≤ a.length → key = discriminator → value.kind = .string)) :
    warningsAt discriminator start document a = [] := by
  obtain ⟨hnull, harray, hdiscriminator⟩ := h
  simp only [warningsAt, hproperty, skipReason?_eq_none.2 ⟨hnull, harray⟩,
    unhoisted?_eq_none hproperty hdiscriminator, Option.map_none, Option.toList_none,
    List.append_nil]

/-- A warning names the path and the key of its property. -/
theorem warning_names {start warning : String}
    (hproperty : Address.property? document a = some (key, value))
    (h : warning ∈ warningsAt discriminator start document a) :
    ∃ rest, warning = Address.path start document a ++ ": skipped '" ++ key ++ "': " ++ rest ∨
      warning = Address.path start document a ++ ": '" ++ key ++ "' is " ++ rest := by
  simp only [warningsAt, hproperty, List.mem_append, Option.mem_toList, Option.map_eq_some_iff] at h
  rcases h with ⟨reason, -, rfl⟩ | ⟨introducing, -, rfl⟩
  · exact ⟨reason, Or.inl rfl⟩
  · exact ⟨_, Or.inr String.append_assoc⟩

/-- The field of a property stands in a definition of the plan. -/
theorem exists_definition_of_fieldAt? {field : Field}
    (h : fieldAt? discriminator "$" document a = some field) (root : String) :
    ∃ d ∈ (planOfMembers discriminator root document).definitions, field ∈ d.fields := by
  have hmem : a ∈ Address.all document := by
    obtain ⟨member, hmember, -⟩ := Option.bind_eq_some_iff.1 h
    exact Address.mem_all_of_property? hmember
  have howned : field ∈ ownedFields discriminator "$" document
      (owner? discriminator document a) := by
    refine List.mem_filterMap.2 ⟨a, hmem, ?_⟩
    rw [fieldOwned?, if_pos rfl, h]
  rw [definitions_eq_owned]
  cases howner : owner? discriminator document a with
  | none =>
    rw [howner] at howned
    exact ⟨_, List.mem_append_right _ (List.mem_singleton_self _), howned⟩
  | some o =>
    rw [howner] at howned
    obtain ⟨name, hname⟩ := mem_hoistedTypes_of_owner? howner
    exact ⟨_, List.mem_append_left _ (List.mem_map_of_mem hname), howned⟩

end Property

/-! ## Plans -/

section Plan

variable (discriminator root : String) (document : Members)

/-- The warnings of a plan are those of the members of its root. -/
theorem warnings_planOfMembers_eq : (planOfMembers discriminator root document).warnings =
    (recordedAll discriminator "$" document).warnings := by
  simp only [planOfMembers, resolveObject_root]

/-- The warnings of a plan are those at its addresses, in document order. -/
theorem warnings_eq_flatMap : (planOfMembers discriminator root document).warnings =
    (Address.all document).flatMap (warningsAt discriminator "$" document) := by
  rw [warnings_planOfMembers_eq]
  refine warnings_recordedAll document 0 fun turn key value hmember => ?_
  rw [Nat.zero_add]
  exact warnings_ofMember hmember

/-- A property that is not an object yields a field of the plan or is warned of. -/
theorem exists_field_or_warning {a : Address} {key : String} {value : Value}
    (hproperty : Address.property? document a = some (key, value))
    (hleaf : ∀ inner, value ≠ .object inner) :
    (∃ d ∈ (planOfMembers discriminator root document).definitions, ∃ field ∈ d.fields,
        fieldAt? discriminator "$" document a = some field) ∨
      ∃ warning ∈ (planOfMembers discriminator root document).warnings,
        warning ∈ warningsAt discriminator "$" document a := by
  rcases propertyField?_or_skipReason? hleaf discriminator
      (Address.path "$" document a) key with hfield | hreason
  · obtain ⟨field, hfield⟩ := Option.isSome_iff_exists.1 hfield
    have hat : fieldAt? discriminator "$" document a = some field := by
      rw [fieldAt?, hproperty, Option.bind_some, hfield]
    obtain ⟨d, hd, hin⟩ := exists_definition_of_fieldAt? hat root
    exact Or.inl ⟨d, hd, field, hin, hat⟩
  · obtain ⟨reason, hreason⟩ := Option.isSome_iff_exists.1 hreason
    have hwarning : skipWarning (Address.path "$" document a) key reason ∈
        warningsAt discriminator "$" document a := by
      simp [warningsAt, hproperty, hreason]
    refine Or.inr ⟨_, ?_, hwarning⟩
    rw [warnings_eq_flatMap]
    exact List.mem_flatMap.2 ⟨a, Address.mem_all_of_property? hproperty, hwarning⟩

/-- **Exact diagnostics.** The warnings of a plan are those of its properties, in document order. A
property gives one warning if its value is null or an array that does not start with a string or a
number, and behind that one if it is a discriminator that is no string; in a document where no key
stands twice, as in every document that a text writes, these are the discriminators of the objects
under keys other than the empty one and the bare marker. Every warning names the path and the key
of its property. So a property that is no object is never passed over in silence, and where
nothing of the kind stands in a document, nothing is warned of. -/
theorem warnings_by_property :
    (planOfMembers discriminator root document).warnings =
        (Address.all document).flatMap (warningsAt discriminator "$" document) ∧
      ((∀ a, a ∈ Address.all document ↔ (Address.property? document a).isSome) ∧
        (Address.all document).Pairwise Address.Before) ∧
      (∀ a key value, Address.property? document a = some (key, value) →
        warningsAt discriminator "$" document a =
          ((skipReason? value).map (skipWarning (Address.path "$" document a) key)).toList ++
            ((unhoisted? discriminator document a).map
              (hoistWarning (Address.path "$" document a) key value)).toList) ∧
      (∀ value, skipReason? value = none ↔ value ≠ .null ∧ ∀ items, value = .array items →
        ∃ first rest, items = first :: rest ∧ (first.kind = .string ∨ first.kind = .number)) ∧
      (∀ text source, readSample text source = .ok (.object document) →
        (Value.object document).DistinctKeys) ∧
      ((Value.object document).DistinctKeys → ∀ a introducing,
        (unhoisted? discriminator document a = some introducing ↔
          ∃ o turn members value, a = o ++ [turn] ∧
            Address.property? document o = some (introducing, .object members) ∧
            introducing ≠ "" ∧ introducing ≠ "@" ∧
            members[turn]? = some (discriminator, value) ∧ value.kind ≠ .string)) ∧
      (∀ a key value, Address.property? document a = some (key, value) →
        ∀ warning ∈ warningsAt discriminator "$" document a, ∃ rest,
          warning = Address.path "$" document a ++ ": skipped '" ++ key ++ "': " ++ rest ∨
            warning = Address.path "$" document a ++ ": '" ++ key ++ "' is " ++ rest) ∧
      (∀ a key value, Address.property? document a = some (key, value) →
        (∀ inner, value ≠ .object inner) →
        (∃ d ∈ (planOfMembers discriminator root document).definitions, ∃ field ∈ d.fields,
            fieldAt? discriminator "$" document a = some field) ∨
          ∃ warning ∈ (planOfMembers discriminator root document).warnings,
            warning ∈ warningsAt discriminator "$" document a) ∧
      ((∀ a key value, Address.property? document a = some (key, value) →
          value ≠ .null ∧
          (∀ items, value = .array items →
            ∃ first rest, items = first :: rest ∧ (first.kind = .string ∨ first.kind = .number)) ∧
          (2 ≤ a.length → key = discriminator → value.kind = .string)) →
        (planOfMembers discriminator root document).warnings = []) := by
  refine ⟨warnings_eq_flatMap discriminator root document,
    ⟨fun a => Address.mem_all, Address.pairwise_all document⟩, ?_,
    fun value => skipReason?_eq_none, ?_, fun hdistinct a introducing =>
      unhoisted?_eq_some hdistinct,
    fun a key value hproperty warning => warning_names hproperty,
    fun a key value => exists_field_or_warning discriminator root document, ?_⟩
  · intro a key value hproperty
    simp only [warningsAt, hproperty]
  · intro text source hread
    unfold readSample at hread
    cases hvalue : Json.read text with
    | error fault =>
      rw [hvalue] at hread
      cases hread
    | ok value =>
      rw [hvalue] at hread
      cases hread
      exact Json.distinctKeys_of_read hvalue
  · intro hclean
    rw [warnings_eq_flatMap, List.flatMap_eq_nil_iff]
    intro a ha
    obtain ⟨⟨key, value⟩, hproperty⟩ := Option.isSome_iff_exists.1 (Address.mem_all.1 ha)
    exact warningsAt_of_clean hproperty (hclean a key value hproperty)

end Plan

/-- A discriminator that is an object: what is inside it is warned of in front of it. -/
example :
    (planOfMembers "@type" "Letter" [("to", .object
      [("@type", .object [("gone", .null)]), ("tags", .array [])])]).warnings =
      ["$.to.@type.gone: skipped 'gone': unsupported value null",
       "$.to.@type: '@type' is object, not a string; 'To' is not hoisted",
       "$.to.tags: skipped 'tags': empty array has no element type"] := by
  decide +kernel

end SampleTypes
