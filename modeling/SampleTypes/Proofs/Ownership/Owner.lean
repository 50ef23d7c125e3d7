import Mathlib.Data.List.Infix
import SampleTypes.Proofs.Ownership.Address
import SampleTypes.Proofs.Walk.Contribution

/-!
# To which type a property belongs

The rule of ownership, said of addresses and without a walk. An object is hoisted when it declares
a type and is introduced by a key that has an identifier. It encloses a property if the way down to
the property leaves it at the declaration or behind it, and a property belongs to the innermost
object that encloses it.

The second half shows how the rule looks one step further down. Seen from a member that is an
object, nothing changes for the owners inside; only a property without an owner inside may belong
to the object itself.

## Main results

* `owner?_cons`: the owner of a property of an object, by its owner inside the object.
* `owner?_eq_some`: the owner is the innermost object that encloses a property.
* `isPrefix_of_owner?`: an owner lies strictly on the way to what it owns.
-/

namespace SampleTypes

open Json (Value Members)

/-- The place and the name of the type that members declare: those of the first discriminator that
is a string. -/
def declaration? (discriminator : String) : Members → Option (Nat × String)
  | [] => none
  | member :: rest =>
    match declared? discriminator member with
    | some name => some (0, name)
    | none => (declaration? discriminator rest).map fun found => (found.1 + 1, found.2)

/-- The declaration by which the object that a key introduces becomes a type. -/
def hoistedAs? (discriminator key : String) (members : Members) : Option (Nat × String) :=
  if key = "" ∨ key = "@" then none else declaration? discriminator members

/-- The declaration by which the object at an address becomes a type. -/
def hoist? (discriminator : String) (document : Members) (a : Address) : Option (Nat × String) :=
  match Address.property? document a with
  | some (key, .object members) => hoistedAs? discriminator key members
  | _ => none

/-- The object at `o` becomes a type, and the way to `a` leaves it at its declaration or behind. -/
def encloses (discriminator : String) (document : Members) (a o : Address) : Bool :=
  match hoist? discriminator document o, a[o.length]? with
  | some (place, _), some turn => place ≤ turn
  | _, _ => false

/-- The object that owns the property at `a`, the innermost of those that enclose it. The root is
the owner if there is none. -/
def owner? (discriminator : String) (document : Members) (a : Address) : Option Address :=
  (a.inits.filter (encloses discriminator document a)).getLast?

/-! ## Declarations -/

theorem declaration?_eq_none {discriminator : String} {members : Members} :
    declaration? discriminator members = none ↔
      ∀ member ∈ members, declared? discriminator member = none := by
  induction members with
  | nil => simp [declaration?]
  | cons member rest ih =>
    cases h : declared? discriminator member <;> simp [declaration?, h, ih]

/-- Only a discriminator that is a string declares. -/
theorem declared?_eq_some {discriminator name : String} {member : String × Value} :
    declared? discriminator member = some name ↔ member = (discriminator, .string name) := by
  rcases member with ⟨key, value⟩
  cases value <;> simp [declared?]

/-- A declaration splits the members of its object. -/
theorem declaration?_eq_some {discriminator name : String} {members : Members} {place : Nat}
    (h : declaration? discriminator members = some (place, name)) :
    ∃ before after, members = before ++ (discriminator, .string name) :: after ∧
      before.length = place ∧ ∀ member ∈ before, declared? discriminator member = none := by
  induction members generalizing place with
  | nil => simp [declaration?] at h
  | cons member rest ih =>
    cases hmember : declared? discriminator member with
    | some found =>
      simp only [declaration?, hmember, Option.some.injEq, Prod.mk.injEq] at h
      obtain ⟨rfl, rfl⟩ := h
      obtain rfl := declared?_eq_some.1 hmember
      exact ⟨[], rest, rfl, rfl, by simp⟩
    | none =>
      simp only [declaration?, hmember, Option.map_eq_some_iff, Prod.mk.injEq] at h
      obtain ⟨⟨inner, found⟩, hrest, rfl, rfl⟩ := h
      obtain ⟨before, after, rfl, rfl, hbefore⟩ := ih hrest
      refine ⟨member :: before, after, rfl, rfl, ?_⟩
      intro other hm
      rcases List.mem_cons.1 hm with rfl | hm
      · exact hmember
      · exact hbefore other hm

/-- An object does not become a type when its key has no identifier or nothing in it declares one;
this is the condition of the walk. -/
theorem hoistedAs?_eq_none {discriminator key : String} {members : Members} :
    hoistedAs? discriminator key members = none ↔
      Identifier.ofKey key = "" ∨ ∀ member ∈ members, declared? discriminator member = none := by
  unfold hoistedAs?
  rw [Identifier.ofKey_eq_empty]
  split
  · rename_i h
    simp [h]
  · rename_i h
    simp [h, declaration?_eq_none]

theorem hoistedAs?_eq_some {discriminator key name : String} {members : Members} {place : Nat}
    (h : hoistedAs? discriminator key members = some (place, name)) :
    Identifier.ofKey key ≠ "" ∧ declaration? discriminator members = some (place, name) := by
  unfold hoistedAs? at h
  split at h
  · cases h
  · rename_i hkey
    exact ⟨fun hempty => hkey (Identifier.ofKey_eq_empty.1 hempty), h⟩

/-- The object at the address of a hoisted object, split at its declaration. -/
theorem hoist?_eq_some {discriminator name : String} {document : Members} {o : Address}
    {place : Nat} (h : hoist? discriminator document o = some (place, name)) :
    ∃ key before after,
      Address.property? document o =
        some (key, .object (before ++ (discriminator, .string name) :: after)) ∧
      hoistedAs? discriminator key (before ++ (discriminator, .string name) :: after) =
        some (place, name) ∧ before.length = place := by
  unfold hoist? at h
  split at h
  · rename_i key members hproperty
    obtain ⟨before, after, rfl, hlength, _⟩ := declaration?_eq_some (hoistedAs?_eq_some h).2
    exact ⟨key, before, after, hproperty, h, hlength⟩
  · cases h

/-- The declaration of a hoisted object is a property of it. -/
theorem property?_declaration {discriminator name : String} {document : Members} {o : Address}
    {place : Nat} (h : hoist? discriminator document o = some (place, name)) :
    Address.property? document (o ++ [place]) = some (discriminator, .string name) := by
  obtain ⟨key, before, after, hproperty, _, rfl⟩ := hoist?_eq_some h
  rw [Address.property?_append hproperty (by simp), Address.property?_singleton]
  simp

/-! ## Owners on the way -/

section Way

variable {discriminator : String} {document : Members} {a o : Address}

theorem hoist?_nil (discriminator : String) (document : Members) :
    hoist? discriminator document [] = none := rfl

private theorem pairwise_inits (a : Address) : a.inits.Pairwise (· <+: ·) := by
  induction a with
  | nil => simp
  | cons turn rest ih =>
    rw [List.inits_cons, List.pairwise_cons, List.pairwise_map]
    exact ⟨fun o _ => List.nil_prefix, ih.imp fun hway => (List.prefix_cons_inj turn).2 hway⟩

/-- **The owner is the innermost object that encloses a property.** -/
theorem owner?_eq_some :
    owner? discriminator document a = some o ↔
      o <+: a ∧ encloses discriminator document a o = true ∧
        ∀ other, other <+: a → encloses discriminator document a other = true →
          other <+: o := by
  have hinner : ∀ o, owner? discriminator document a = some o →
      o <+: a ∧ encloses discriminator document a o = true ∧
        ∀ other, other <+: a → encloses discriminator document a other = true →
          other <+: o := by
    intro o h
    obtain ⟨front, hfront⟩ := List.getLast?_eq_some_iff.1 h
    have hmem : o ∈ a.inits.filter (encloses discriminator document a) := by simp [hfront]
    rw [List.mem_filter, List.mem_inits] at hmem
    refine ⟨hmem.1, hmem.2, fun other hway hother => ?_⟩
    have hin : other ∈ a.inits.filter (encloses discriminator document a) :=
      List.mem_filter.2 ⟨(List.mem_inits _ _).2 hway, hother⟩
    have hpairwise := (pairwise_inits a).filter (encloses discriminator document a)
    rw [hfront] at hin hpairwise
    rcases List.mem_append.1 hin with hin | hin
    · exact (List.pairwise_append.1 hpairwise).2.2 other hin o (by simp)
    · rw [List.mem_singleton.1 hin]
  constructor
  · exact hinner o
  · rintro ⟨hway, hencloses, hlast⟩
    have hin : o ∈ a.inits.filter (encloses discriminator document a) :=
      List.mem_filter.2 ⟨(List.mem_inits _ _).2 hway, hencloses⟩
    cases hfound : owner? discriminator document a with
    | none =>
      rw [owner?, List.getLast?_eq_none_iff] at hfound
      rw [hfound] at hin
      cases hin
    | some found =>
      obtain ⟨hway', hencloses', hlast'⟩ := hinner found hfound
      have hforth := hlast' o hway hencloses
      have hback := hlast found hway' hencloses'
      rw [hback.eq_of_length_le hforth.length_le]

/-- An owner lies strictly on the way to what it owns. -/
theorem isPrefix_of_owner? (h : owner? discriminator document a = some o) :
    o ≠ [] ∧ o <+: a ∧ o.length < a.length ∧ (hoist? discriminator document o).isSome := by
  obtain ⟨hway, hencloses, -⟩ := owner?_eq_some.1 h
  unfold encloses at hencloses
  split at hencloses
  · rename_i place name turn hhoist hturn
    refine ⟨?_, hway, (List.getElem?_eq_some_iff.1 hturn).1, by simp [hhoist]⟩
    rintro rfl
    simp [hoist?_nil] at hhoist
  · cases hencloses

/-- An owner is reached through the same member of the root as what it owns. -/
theorem head_of_owner? {place turn : Nat} {rest b : Address}
    (h : owner? discriminator document (turn :: rest) = some (place :: b)) : place = turn := by
  obtain ⟨-, ⟨tail, heq⟩, -, -⟩ := isPrefix_of_owner? h
  exact (List.cons.inj heq).1

end Way

/-! ## One step down -/

section Step

variable {discriminator key : String} {members inner : Members} {place turn : Nat}

theorem hoist?_singleton (h : members[place]? = some (key, .object inner)) :
    hoist? discriminator members [place] = hoistedAs? discriminator key inner := by
  simp only [hoist?, Address.property?, h]

theorem hoist?_cons (h : members[place]? = some (key, .object inner)) {o : Address}
    (ho : o ≠ []) : hoist? discriminator members (place :: o) = hoist? discriminator inner o := by
  simp only [hoist?, Address.property?_cons h ho]

/-- A member of the root belongs to the root. -/
theorem owner?_singleton (discriminator : String) (members : Members) (place : Nat) :
    owner? discriminator members [place] = none := by
  simp [owner?, encloses, hoist?_nil]

/-- The objects that enclose a property of an object: perhaps the object itself, and those inside
it that do. -/
private theorem filter_encloses_cons (h : members[place]? = some (key, .object inner))
    (rest : Address) :
    ((place :: turn :: rest).inits.filter
        (encloses discriminator members (place :: turn :: rest))) =
      (if encloses discriminator members (place :: turn :: rest) [place] then [[place]] else []) ++
        ((turn :: rest).inits.filter (encloses discriminator inner (turn :: rest))).map
          (place :: ·) := by
  have hdown : ∀ o ∈ rest.inits.map (turn :: ·),
      (encloses discriminator members (place :: turn :: rest) ∘ (place :: ·)) o =
        encloses discriminator inner (turn :: rest) o := by
    intro o ho
    obtain ⟨b, _, rfl⟩ := List.mem_map.1 ho
    simp only [Function.comp, encloses, hoist?_cons h (List.cons_ne_nil turn b)]
    simp
  have hroot : encloses discriminator members (place :: turn :: rest) [] = false := by
    simp [encloses, hoist?_nil]
  have hinner : encloses discriminator inner (turn :: rest) [] = false := by
    simp [encloses, hoist?_nil]
  simp only [List.inits_cons, List.map_cons, List.filter_cons, hroot, hinner,
    Bool.false_eq_true, if_false]
  rw [List.filter_map, List.filter_congr hdown]
  split <;> simp

/-- **The owner of a property of an object**, by its owner inside the object. -/
theorem owner?_cons (h : members[place]? = some (key, .object inner)) (rest : Address) :
    owner? discriminator members (place :: turn :: rest) =
      match owner? discriminator inner (turn :: rest) with
      | some o => some (place :: o)
      | none =>
        if encloses discriminator members (place :: turn :: rest) [place] then some [place]
        else none := by
  unfold owner?
  rw [filter_encloses_cons h, List.getLast?_append, List.getLast?_map]
  cases (List.filter (encloses discriminator inner (turn :: rest))
      (turn :: rest).inits).getLast? with
  | some o => rfl
  | none => split <;> rfl

end Step

end SampleTypes
