import SampleTypes.Json.Value

/-!
# Addresses of properties

A property that is reached from the root of a document through objects only is addressed by the
places to go: its own place among the members of the innermost object comes last. Addresses do not
mention keys, so they tell apart what a careless document repeats.

`all` lists them in document order; what stands inside an object comes before the property
that holds the object, because a reference to a type follows the fields that escape from it.

## Main results

* `mem_all`: exactly the addresses where a property stands are listed.
* `pairwise_all`: they are listed in document order, and so each of them once.
-/

namespace SampleTypes

open Json (Value Members)

/-- The places that lead from the root to a property. -/
abbrev Address := List Nat

namespace Address

mutual

/-- The addresses of the properties inside a value, seen from there. -/
def inside : Value → List Address
  | .object members => fromPlace 0 members
  | _ => []

/-- The addresses of the properties of members that stand from `place` on. -/
def fromPlace (place : Nat) : Members → List Address
  | [] => []
  | (_, value) :: rest =>
    (inside value).map (place :: ·) ++ [place] :: fromPlace (place + 1) rest

end

/-- The addresses of all properties of a document, in order. -/
def all (document : Members) : List Address :=
  fromPlace 0 document

/-- The property at an address: its key and its value. -/
def property? : Members → Address → Option (String × Value)
  | _, [] => none
  | members, [place] => members[place]?
  | members, place :: turn :: rest =>
    match members[place]? with
    | some (_, .object inner) => property? inner (turn :: rest)
    | _ => none

/-- The path at which the property at an address is reported. -/
def path (start : String) : Members → Address → String
  | _, [] => start
  | members, place :: rest =>
    match members[place]? with
    | some (key, .object inner) => path s!"{start}.{key}" inner rest
    | some (key, _) => s!"{start}.{key}"
    | none => start

/-- The addresses of one member: those inside it, and its own. -/
def ofMember (place : Nat) (value : Value) : List Address :=
  (inside value).map (place :: ·) ++ [[place]]

theorem fromPlace_cons (place : Nat) (member : String × Value) (rest : Members) :
    fromPlace place (member :: rest) =
      ofMember place member.2 ++ fromPlace (place + 1) rest := by
  rcases member with ⟨key, value⟩
  simp [fromPlace, ofMember]

theorem fromPlace_append (place : Nat) (front back : Members) :
    fromPlace place (front ++ back) =
      fromPlace place front ++ fromPlace (place + front.length) back := by
  induction front generalizing place with
  | nil => simp [fromPlace]
  | cons member rest ih =>
    rw [List.cons_append, fromPlace_cons, fromPlace_cons, ih, List.append_assoc,
      List.length_cons, show place + 1 + rest.length = place + (rest.length + 1) by omega]

/-- Addresses of members begin with the place of the member. -/
theorem exists_cons_of_mem_fromPlace {place : Nat} {members : Members} {a : Address}
    (h : a ∈ fromPlace place members) :
    ∃ turn rest, a = turn :: rest ∧ place ≤ turn ∧ turn < place + members.length := by
  induction members generalizing place with
  | nil => simp [fromPlace] at h
  | cons member rest ih =>
    rw [fromPlace_cons, List.mem_append] at h
    rcases h with h | h
    · simp only [ofMember, List.mem_append, List.mem_map, List.mem_singleton] at h
      rcases h with ⟨b, _, rfl⟩ | rfl
      · exact ⟨place, b, rfl, by omega, by simp⟩
      · exact ⟨place, [], rfl, by omega, by simp⟩
    · obtain ⟨turn, b, rfl, hge, hlt⟩ := ih h
      exact ⟨turn, b, rfl, by omega, by simp only [List.length_cons]; omega⟩

/-! ## Going one step down -/

section Step

variable {members inner : Members} {place : Nat} {key : String} {value : Value} {a : Address}

theorem property?_singleton (members : Members) (place : Nat) :
    property? members [place] = members[place]? := rfl

theorem property?_cons (h : members[place]? = some (key, .object inner)) (ha : a ≠ []) :
    property? members (place :: a) = property? inner a := by
  cases a with
  | nil => exact absurd rfl ha
  | cons turn rest => simp only [property?, h]

/-- What is found behind a member stands in an object. -/
theorem property?_cons_eq_some {found : String × Value}
    (h : property? members (place :: a) = some found) (ha : a ≠ []) :
    ∃ key inner, members[place]? = some (key, .object inner) ∧ property? inner a = some found := by
  cases a with
  | nil => exact absurd rfl ha
  | cons turn rest =>
    rw [property?] at h
    split at h
    · rename_i key inner hmember
      exact ⟨key, inner, hmember, h⟩
    · cases h

/-- Looking further from an object on the way. -/
theorem property?_append {o : Address} (h : property? members o = some (key, .object inner))
    (ha : a ≠ []) : property? members (o ++ a) = property? inner a := by
  induction o generalizing members with
  | nil => cases h
  | cons place rest ih =>
    cases rest with
    | nil => exact property?_cons h ha
    | cons turn rest =>
      obtain ⟨key', inner', hmember, hrest⟩ :=
        property?_cons_eq_some h (List.cons_ne_nil turn rest)
      rw [List.cons_append, property?_cons hmember (by simp)]
      exact ih hrest

theorem path_singleton {start : String} (h : members[place]? = some (key, value)) :
    path start members [place] = s!"{start}.{key}" := by
  cases value <;> simp only [path, h]

theorem path_cons {start : String} (h : members[place]? = some (key, .object inner))
    (a : Address) : path start members (place :: a) = path s!"{start}.{key}" inner a := by
  simp only [path, h]

end Step

/-! ## Every property once -/

theorem property?_zero (key : String) (value : Value) (rest : Members) (a : Address) :
    (property? ((key, value) :: rest) (0 :: a)).isSome ↔
      a = [] ∨ ∃ inner, value = .object inner ∧ (property? inner a).isSome := by
  cases a with
  | nil => simp [property?]
  | cons turn b =>
    simp only [property?, List.getElem?_cons_zero]
    cases value <;> simp

theorem property?_succ (member : String × Value) (rest : Members) (turn : Nat) (a : Address) :
    property? (member :: rest) ((turn + 1) :: a) = property? rest (turn :: a) := by
  cases a <;> simp [property?]

/-- The listed addresses of members, when those inside each member are known. -/
private theorem mem_fromPlace_of {members : Members}
    (h : ∀ member ∈ members, ∀ a,
      a ∈ inside member.2 ↔ ∃ inner, member.2 = .object inner ∧ (property? inner a).isSome)
    (place : Nat) (a : Address) :
    a ∈ fromPlace place members ↔
      ∃ turn b, a = (place + turn) :: b ∧ (property? members (turn :: b)).isSome := by
  induction members generalizing place with
  | nil =>
    have hnone : ∀ turn b, property? [] (turn :: b) = none := by
      intro turn b
      cases b <;> simp [property?]
    simp [fromPlace, hnone]
  | cons member rest ih =>
    rcases member with ⟨key, value⟩
    have hhere : a ∈ ofMember place value ↔
        ∃ b, a = place :: b ∧ (property? ((key, value) :: rest) (0 :: b)).isSome := by
      simp only [ofMember, List.mem_append, List.mem_map, List.mem_singleton, property?_zero,
        h (key, value) (by simp)]
      constructor
      · rintro (⟨b, hb, rfl⟩ | rfl)
        · exact ⟨b, rfl, Or.inr hb⟩
        · exact ⟨[], rfl, Or.inl rfl⟩
      · rintro ⟨b, rfl, rfl | hb⟩
        · exact Or.inr rfl
        · exact Or.inl ⟨b, hb, rfl⟩
    have hrest := ih (fun member hm => h member (by simp [hm])) (place + 1)
    rw [fromPlace_cons, List.mem_append, hhere, hrest]
    constructor
    · rintro (⟨b, rfl, hb⟩ | ⟨turn, b, rfl, hb⟩)
      · exact ⟨0, b, by simp, hb⟩
      · refine ⟨turn + 1, b, ?_, ?_⟩
        · rw [show place + 1 + turn = place + (turn + 1) by omega]
        · rwa [property?_succ]
    · rintro ⟨turn, b, rfl, hb⟩
      cases turn with
      | zero => exact Or.inl ⟨b, by simp, hb⟩
      | succ turn =>
        refine Or.inr ⟨turn, b, ?_, ?_⟩
        · rw [show place + 1 + turn = place + (turn + 1) by omega]
        · rwa [property?_succ] at hb

/-- The addresses inside a value are those where it has a property. -/
theorem mem_inside {value : Value} {a : Address} :
    a ∈ inside value ↔ ∃ inner, value = .object inner ∧ (property? inner a).isSome := by
  induction value using Value.memberInduction generalizing a with
  | leaf value h =>
    have hempty : inside value = [] := by
      cases value with
      | object members => exact absurd rfl (h members)
      | _ => simp only [inside]
    constructor
    · simp [hempty]
    · rintro ⟨inner, rfl, _⟩
      exact absurd rfl (h inner)
  | object members ih =>
    simp only [inside]
    rw [mem_fromPlace_of (fun member hm a => ih member hm)]
    constructor
    · rintro ⟨turn, b, rfl, hb⟩
      exact ⟨members, rfl, by simpa using hb⟩
    · rintro ⟨inner, hinner, ha⟩
      obtain rfl : members = inner := by simpa using hinner
      cases a with
      | nil => simp [property?] at ha
      | cons turn b => exact ⟨turn, b, by simp, ha⟩

/-- **Exactly the properties of a document are listed.** -/
theorem mem_all {document : Members} {a : Address} :
    a ∈ all document ↔ (property? document a).isSome := by
  have h : all document = inside (.object document) := by simp only [all, inside]
  rw [h, mem_inside]
  simp

theorem nil_notMem_inside (value : Value) : [] ∉ inside value := by
  rw [mem_inside]
  rintro ⟨inner, _, h⟩
  simp [property?] at h

/-! ## Document order -/

/-- The property at the first address ends before the one at the second: where the ways part it
goes through an earlier member, or it stands inside the other. -/
inductive Before : Address → Address → Prop
  | inside (place : Nat) (rest : Address) : Before (place :: rest) []
  | earlier {place turn : Nat} (h : place < turn) (a b : Address) :
    Before (place :: a) (turn :: b)
  | under (place : Nat) {a b : Address} (h : Before a b) : Before (place :: a) (place :: b)

theorem Before.ne {a b : Address} (h : Before a b) : a ≠ b := by
  induction h with
  | inside place rest => exact List.cons_ne_nil place rest
  | earlier h a b => exact fun heq => Nat.ne_of_lt h (List.cons.inj heq).1
  | under place h ih => exact fun heq => ih (List.cons.inj heq).2

/-- The addresses of a member begin with its place. -/
theorem exists_cons_of_mem_ofMember {place : Nat} {value : Value} {a : Address}
    (h : a ∈ ofMember place value) : ∃ rest, a = place :: rest := by
  rw [ofMember, List.mem_append, List.mem_map, List.mem_singleton] at h
  rcases h with ⟨rest, -, rfl⟩ | rfl
  · exact ⟨rest, rfl⟩
  · exact ⟨[], rfl⟩

/-- The addresses of a member are in order if those inside it are: its own comes last. -/
private theorem pairwise_ofMember_of {value : Value} (h : (inside value).Pairwise Before)
    (place : Nat) : (ofMember place value).Pairwise Before := by
  have hbelow : ((inside value).map (place :: ·)).Pairwise Before := by
    rw [List.pairwise_map]
    exact h.imp fun hab => .under place hab
  rw [ofMember, List.pairwise_append]
  refine ⟨hbelow, List.pairwise_singleton _ _, ?_⟩
  intro a ha b hb
  obtain ⟨c, hc, rfl⟩ := List.mem_map.1 ha
  obtain rfl := List.mem_singleton.1 hb
  cases c with
  | nil => exact absurd hc (nil_notMem_inside value)
  | cons turn rest => exact .under place (.inside turn rest)

/-- The listed addresses of members are in order when those inside each member are. -/
private theorem pairwise_fromPlace_of {members : Members}
    (h : ∀ member ∈ members, (inside member.2).Pairwise Before) (place : Nat) :
    (fromPlace place members).Pairwise Before := by
  induction members generalizing place with
  | nil => simp [fromPlace]
  | cons member rest ih =>
    have hmember := pairwise_ofMember_of (h member (by simp)) place
    rw [fromPlace_cons, List.pairwise_append]
    refine ⟨hmember, ih (fun member hm => h member (by simp [hm])) _, ?_⟩
    intro a ha b hb
    obtain ⟨c, rfl⟩ := exists_cons_of_mem_ofMember ha
    obtain ⟨turn, d, rfl, hge, -⟩ := exists_cons_of_mem_fromPlace hb
    exact .earlier (by omega) c d

/-- **The properties are listed in document order.** -/
theorem pairwise_all (document : Members) : (all document).Pairwise Before := by
  have hinside : ∀ value : Value, (inside value).Pairwise Before := by
    intro value
    induction value using Value.memberInduction with
    | leaf value h =>
      cases value with
      | object members => exact absurd rfl (h members)
      | _ => simp [inside]
    | object members ih =>
      simp only [inside]
      exact pairwise_fromPlace_of ih 0
  exact pairwise_fromPlace_of (fun member _ => hinside member.2) 0

/-- Every property is listed once. -/
theorem nodup_all (document : Members) : (all document).Nodup :=
  (pairwise_all document).imp Before.ne

end Address

end SampleTypes
