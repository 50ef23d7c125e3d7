import SampleTypes.Proofs.Ownership.Warnings

/-!
# Which nested objects get a type

An object inside a document that holds a discriminator with a text has a definition of its own in
the plan, unless its key is empty or the bare marker. Such a key has no identifier, and the walk
tells the root from other objects by an empty identifier; so the object is taken for a root, which
is never hoisted, and what stands in it goes where its own reference would have gone.

The fields of a plan are told apart by the addresses of their properties. As values they may
coincide: a key that has a dot in it can give two properties the same path.

## Main results

* `owner?_of_hoisted`, `owner?_of_plain`: to which type the members of an object belong.
* `nested_object_has_type_iff`: the nested objects with a definition of their own.
-/

namespace SampleTypes

open Json (Value Members)

/-- A nested object, with the place of its declaration, has a definition of its own in the plan:
one that stands in its turn among those of the hoisted objects, holds the field of every text,
number and truth value that stands in the object from the declaration on, and is the only one that
holds anything of what stands there. -/
structure OwnDefinition (discriminator root : String) (document : Members) (o : Address)
    (members : Members) (place : Nat) (name : String) : Prop where
  listed : ∃ i : Nat, (hoistedTypes discriminator document)[i]? = some (o, name) ∧
    (planOfMembers discriminator root document).definitions[i]? =
      some (ownedDefinition discriminator "$" document (o, name))
  holds : ∀ turn key value, place ≤ turn → members[turn]? = some (key, value) →
    value.kind = .string ∨ value.kind = .number ∨ value.kind = .boolean →
    ∃ field, fieldAt? discriminator "$" document (o ++ [turn]) = some field ∧
      field.wireName = key ∧
      field ∈ (ownedDefinition discriminator "$" document (o, name)).fields
  alone : ∀ turn owner, place ≤ turn → owner ≠ some o →
    fieldOwned? discriminator "$" document owner (o ++ [turn]) = none

/-- Texts, numbers and truth values yield a field. -/
theorem exists_propertyField? {value : Value} (discriminator path key : String)
    (h : value.kind = .string ∨ value.kind = .number ∨ value.kind = .boolean) :
    ∃ field, propertyField? discriminator path key value = some field ∧ field.wireName = key := by
  cases value <;> simp [Value.kind, propertyField?] at h ⊢

section Owner

variable {discriminator name : String} {document : Members} {o : Address} {place : Nat}

/-- What stands in a hoisted object from its declaration on belongs to it. -/
theorem owner?_of_hoisted (h : hoist? discriminator document o = some (place, name)) {turn : Nat}
    (hle : place ≤ turn) : owner? discriminator document (o ++ [turn]) = some o := by
  refine owner?_eq_some.2 ⟨List.prefix_append o [turn], ?_, fun other hway hencloses => ?_⟩
  · simp [encloses, h, hle]
  · rcases List.prefix_concat_iff.1 hway with rfl | hway
    · simp only [encloses] at hencloses
      split at hencloses
      · rename_i hturn
        simp at hturn
      · cases hencloses
    · exact hway

/-- What stands in an object that is not hoisted belongs where the object itself does. -/
theorem owner?_of_plain (h : hoist? discriminator document o = none) (turn : Nat) :
    owner? discriminator document (o ++ [turn]) = owner? discriminator document o := by
  have hlast : encloses discriminator document (o ++ [turn]) (o ++ [turn]) = false := by
    unfold encloses
    rw [List.getElem?_eq_none (Nat.le_refl _)]
    split <;> simp_all
  have hsame : ∀ other ∈ o.inits, encloses discriminator document (o ++ [turn]) other =
      encloses discriminator document o other := by
    intro other hother
    have hway := (List.mem_inits _ _).1 hother
    rcases Nat.lt_or_ge other.length o.length with hlt | hge
    · simp only [encloses, List.getElem?_append_left hlt]
    · rw [hway.eq_of_length_le hge]
      simp only [encloses, h]
  have hinits : (o ++ [turn]).inits = o.inits ++ [o ++ [turn]] := by
    simp [List.inits_append]
  rw [owner?, hinits, List.filter_append, List.filter_congr hsame]
  simp [hlast, owner?]

end Owner

/-- Where no key stands twice, an object declares the text of its discriminator. -/
theorem declaration?_of_distinct {discriminator name : String} {members : Members} {place : Nat}
    (hdistinct : (Assoc.keys members).Nodup)
    (h : members[place]? = some (discriminator, .string name)) :
    declaration? discriminator members = some (place, name) := by
  induction members generalizing place with
  | nil => simp at h
  | cons member rest ih =>
    rw [Assoc.keys_cons, List.nodup_cons] at hdistinct
    cases place with
    | zero =>
      obtain rfl : member = (discriminator, .string name) := by simpa using h
      simp [declaration?, declared?_eq_some.2 rfl]
    | succ place =>
      rw [List.getElem?_cons_succ] at h
      have hplain : declared? discriminator member = none := by
        by_contra hsome
        obtain ⟨other, hother⟩ := Option.ne_none_iff_exists'.1 hsome
        obtain rfl := declared?_eq_some.1 hother
        exact hdistinct.1 (List.mem_map.2 ⟨_, List.mem_of_getElem? h, rfl⟩)
      simp [declaration?, hplain, ih hdistinct.2 h]

section Nested

variable {discriminator root name key : String} {document members : Members} {o : Address}
  {place : Nat}

/-- A hoisted object has a definition of its own. -/
theorem ownDefinition_of_hoisted
    (hobject : Address.property? document o = some (key, .object members))
    (h : hoist? discriminator document o = some (place, name)) :
    OwnDefinition discriminator root document o members place name where
  listed := by
    obtain ⟨i, hi⟩ := List.mem_iff_getElem?.1 (mem_hoistedTypes.2 ⟨place, h⟩)
    have hlt : i < ((hoistedTypes discriminator document).map
        (ownedDefinition discriminator "$" document)).length := by
      rw [List.length_map]
      exact (List.getElem?_eq_some_iff.1 hi).1
    refine ⟨i, hi, ?_⟩
    rw [definitions_eq_owned, List.getElem?_append_left hlt, List.getElem?_map, hi, Option.map_some]
  holds := by
    intro turn found value hle hmember hkind
    have hproperty : Address.property? document (o ++ [turn]) = some (found, value) :=
      (Address.property?_concat hobject turn).trans hmember
    obtain ⟨field, hfield, hname⟩ := exists_propertyField? discriminator
      (Address.path "$" document (o ++ [turn])) found hkind
    have hat : fieldAt? discriminator "$" document (o ++ [turn]) = some field := by
      rw [fieldAt?, hproperty, Option.bind_some, hfield]
    have howned : fieldOwned? discriminator "$" document (some o) (o ++ [turn]) = some field := by
      rw [fieldOwned?, if_pos (owner?_of_hoisted h hle), hat]
    exact ⟨field, hat, hname,
      List.mem_filterMap.2 ⟨o ++ [turn], Address.mem_all_of_property? hproperty, howned⟩⟩
  alone := by
    intro turn owner hle hother
    rw [fieldOwned?, if_neg]
    rw [owner?_of_hoisted h hle]
    exact hother.symm

/-- **A nested object with a discriminator has a definition of its own exactly if its key is
neither empty nor the bare marker.** Under one of the two keys no definition of the plan is the
object's: what stands in it belongs to the type, or the root, that the object itself belongs to. -/
theorem nested_object_has_type_iff (root : String)
    (hdistinct : (Value.object document).DistinctKeys)
    (hobject : Address.property? document o = some (key, .object members))
    (hmember : members[place]? = some (discriminator, .string name)) :
    (OwnDefinition discriminator root document o members place name ↔ key ≠ "" ∧ key ≠ "@") ∧
      (key = "" ∨ key = "@" →
        (∀ d ∈ (planOfMembers discriminator root document).definitions,
          d = { name := root, fields := ownedFields discriminator "$" document none } ∨
            ∃ hoisted ∈ hoistedTypes discriminator document, hoisted.1 ≠ o ∧
              d = ownedDefinition discriminator "$" document hoisted) ∧
        ∀ turn, owner? discriminator document (o ++ [turn]) =
          owner? discriminator document o) := by
  have hdeclared : declaration? discriminator members = some (place, name) :=
    declaration?_of_distinct (distinctKeys_of_property? hdistinct hobject).nodup hmember
  have hhoist : hoist? discriminator document o =
      if key = "" ∨ key = "@" then none else some (place, name) := by
    simp only [hoist?, hobject, hoistedAs?, hdeclared]
  by_cases hkey : key = "" ∨ key = "@"
  · rw [if_pos hkey] at hhoist
    have hunlisted : ∀ hoisted ∈ hoistedTypes discriminator document, hoisted.1 ≠ o := by
      rintro ⟨other, found⟩ hlisted rfl
      obtain ⟨turn, hturn⟩ := mem_hoistedTypes.1 hlisted
      rw [hhoist] at hturn
      cases hturn
    refine ⟨iff_of_false ?_ fun hne => hkey.elim hne.1 hne.2,
      fun _ => ⟨?_, owner?_of_plain hhoist⟩⟩
    · rintro ⟨⟨i, hi, -⟩, -, -⟩
      exact hunlisted _ (List.mem_of_getElem? hi) rfl
    · intro d hd
      rw [definitions_eq_owned, List.mem_append, List.mem_map, List.mem_singleton] at hd
      rcases hd with ⟨hoisted, hlisted, rfl⟩ | rfl
      · exact Or.inr ⟨hoisted, hlisted, hunlisted hoisted hlisted, rfl⟩
      · exact Or.inl rfl
  · rw [if_neg hkey] at hhoist
    exact ⟨iff_of_true (ownDefinition_of_hoisted hobject hhoist) (not_or.1 hkey),
      fun hbare => absurd hbare hkey⟩

end Nested

/-- A sign at a place, under the bare marker. -/
def sign : Members :=
  [("@type", .string "Sign"), ("text", .string "Home")]

/-- The place that the sign stands at. -/
def signedPlace : Members :=
  [("@type", .string "Place"), ("@", .object sign)]

/-- A post that leads to the place. -/
def signpost : Members :=
  [("home", .object signedPlace)]

/-- The place has a definition of its own. The sign has none; its text belongs to the place. -/
theorem nested_object_has_type_iff_signpost :
    (Value.object signpost).DistinctKeys ∧
      OwnDefinition "@type" "Post" signpost [0] signedPlace 0 "Place" ∧
      ¬OwnDefinition "@type" "Post" signpost [0, 1] sign 0 "Sign" ∧
      owner? "@type" signpost [0, 1, 1] = some [0] := by
  have hsign : (Value.object sign).DistinctKeys :=
    .object _ (by decide) (by simp [sign, Value.distinctKeys_string])
  have hplace : (Value.object signedPlace).DistinctKeys :=
    .object _ (by decide) (by simp [signedPlace, Value.distinctKeys_string, hsign])
  have hdistinct : (Value.object signpost).DistinctKeys :=
    .object _ (by decide) (by simp [signpost, hplace])
  obtain ⟨hown, -⟩ := nested_object_has_type_iff "Post" hdistinct
    (show Address.property? signpost [0] = some ("home", .object signedPlace) from rfl)
    (show signedPlace[0]? = some ("@type", .string "Place") from rfl)
  obtain ⟨hbare, howner⟩ := nested_object_has_type_iff "Post" hdistinct
    (show Address.property? signpost [0, 1] = some ("@", .object sign) from rfl)
    (show sign[0]? = some ("@type", .string "Sign") from rfl)
  refine ⟨hdistinct, hown.2 (by decide), fun hsigned => absurd rfl (hbare.1 hsigned).2, ?_⟩
  exact ((howner (Or.inr rfl)).2 1).trans rfl

/-- An object under the bare marker that says what it is, and no definition but the root's, which
holds the fields of the object. -/
theorem marked_object_is_flattened :
    Address.property? [("@", .object [("@type", .string "Person"), ("name", .string "Ann")])] [0] =
        some ("@", .object [("@type", .string "Person"), ("name", .string "Ann")]) ∧
      (planOfMembers "@type" "Doc"
        [("@", .object [("@type", .string "Person"), ("name", .string "Ann")])]).definitions =
        [{ name := "Doc"
           fields :=
            [{ wireName := "@type", identifier := "Type", kind := .string, path := "$.@.@type" },
             { wireName := "name", identifier := "Name", kind := .string,
               path := "$.@.name" }] }] := by
  exact ⟨rfl, by decide +kernel⟩

end SampleTypes
