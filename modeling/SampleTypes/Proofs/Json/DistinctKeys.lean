import SampleTypes.Json.Reader
import SampleTypes.Proofs.Assoc.Bindings
import SampleTypes.Proofs.Loops

/-!
# Keys of documents that were read

A key that a text gives twice is bound twice, so of an object that was read every key is there
once. This holds at every depth: the members of an object are read before they are bound, and
binding only drops values.

The three functions of the reader call each other with less fuel, so what is said of their values
is proved of all three by one induction on the fuel.

## Main results

* `Reader.distinct`: the values of the reader.
* `distinctKeys_of_read`: the document that a text writes.
-/

namespace SampleTypes

namespace Assoc

variable {α : Type _}

/-- What is bound in the end was bound by one of the pairs. -/
theorem mem_of_mem_put {key : String} {value : α} {pairs : List (String × α)}
    {pair : String × α} (h : pair ∈ put key value pairs) : pair = (key, value) ∨ pair ∈ pairs := by
  induction pairs with
  | nil => exact Or.inl (List.mem_singleton.1 h)
  | cons first rest ih =>
    rcases first with ⟨k, v⟩
    rw [put] at h
    split at h
    · rename_i hkey
      rcases List.mem_cons.1 h with rfl | hrest
      · exact Or.inl (by rw [hkey])
      · exact Or.inr (List.mem_cons_of_mem _ hrest)
    · rcases List.mem_cons.1 h with rfl | hrest
      · exact Or.inr List.mem_cons_self
      · exact (ih hrest).imp_right (List.mem_cons_of_mem _)

theorem mem_of_mem_ofList {pairs : List (String × α)} {pair : String × α}
    (h : pair ∈ ofList pairs) : pair ∈ pairs := by
  induction pairs using List.reverseRecOn with
  | nil => cases h
  | append_singleton front last ih =>
    rw [ofList_append_singleton] at h
    rw [List.mem_append, List.mem_singleton]
    exact (mem_of_mem_put h).symm.imp_left ih

end Assoc

namespace Json

/-- In no object of a value a key stands twice. -/
inductive Value.DistinctKeys : Value → Prop
  | scalar (value : Value) (hobject : ∀ members, value ≠ .object members)
    (harray : ∀ items, value ≠ .array items) : DistinctKeys value
  | array (items : List Value) (inside : ∀ item ∈ items, DistinctKeys item) :
    DistinctKeys (.array items)
  | object (members : Members) (distinct : (Assoc.keys members).Nodup)
    (inside : ∀ member ∈ members, DistinctKeys member.2) : DistinctKeys (.object members)

namespace Value

theorem distinctKeys_int (n : Int) : (Value.int n).DistinctKeys :=
  .scalar _ (fun _ => Value.noConfusion) fun _ => Value.noConfusion

theorem distinctKeys_float (x : Decimal.Binary64) : (Value.float x).DistinctKeys :=
  .scalar _ (fun _ => Value.noConfusion) fun _ => Value.noConfusion

theorem distinctKeys_string (s : String) : (Value.string s).DistinctKeys :=
  .scalar _ (fun _ => Value.noConfusion) fun _ => Value.noConfusion

/-- Binding the members of an object leaves every key once. -/
theorem distinctKeys_ofList {members : Members} (h : ∀ member ∈ members, member.2.DistinctKeys) :
    (Value.object (Assoc.ofList members)).DistinctKeys :=
  .object _ (Assoc.nodup_keys_ofList members) fun member hmember =>
    h member (Assoc.mem_of_mem_ofList hmember)

theorem DistinctKeys.nodup {members : Members} (h : (Value.object members).DistinctKeys) :
    (Assoc.keys members).Nodup := by
  cases h with
  | scalar _ hobject harray => exact absurd rfl (hobject members)
  | object _ distinct inside => exact distinct

theorem DistinctKeys.member {members : Members} (h : (Value.object members).DistinctKeys)
    {member : String × Value} (hmember : member ∈ members) : member.2.DistinctKeys := by
  cases h with
  | scalar _ hobject harray => exact absurd rfl (hobject members)
  | object _ distinct inside => exact inside member hmember

end Value

namespace Reader

variable {s rest : List Char} {value : Value}

theorem distinctKeys_readAfterWhole {negative : Bool} {whole after : List Char}
    (h : readAfterWhole negative whole after = .ok (value, rest)) : value.DistinctKeys := by
  unfold readAfterWhole at h
  dsimp only at h
  split at h
  · cases h
    exact Value.distinctKeys_float _
  · split at h
    · split at h
      · cases h
      · cases h
        exact Value.distinctKeys_int _
    · cases h
      exact Value.distinctKeys_float _

theorem distinctKeys_readNumber (h : readNumber s = .ok (value, rest)) : value.DistinctKeys := by
  unfold readNumber at h
  dsimp only at h
  split at h
  · cases h
  · split at h
    · exact distinctKeys_readAfterWhole h
    · split at h
      · exact distinctKeys_readAfterWhole h
      · cases h

theorem distinctKeys_readScalar (h : readScalar s = .ok (value, rest)) : value.DistinctKeys := by
  unfold readScalar at h
  split at h
  · rename_i found hfound
    cases h
    obtain ⟨name, hname, hafter⟩ := List.exists_of_findSome?_eq_some hfound
    obtain ⟨after, -, heq⟩ := Option.map_eq_some_iff.1 hafter
    cases heq
    have hnames : ∀ name ∈ names, (∀ members, name.2 ≠ .object members) ∧
        ∀ items, name.2 ≠ .array items := by
      simp [names]
    exact .scalar _ (hnames name hname).1 (hnames name hname).2
  · exact distinctKeys_readNumber h

/-- The values that are read with some fuel. -/
structure Distinct (fuel : Nat) : Prop where
  value : ∀ s v rest, readValue fuel s = .ok (v, rest) → v.DistinctKeys
  members : ∀ s members rest, readMembers fuel s = .ok (members, rest) →
    ∀ member ∈ members, member.2.DistinctKeys
  items : ∀ s items rest, readItems fuel s = .ok (items, rest) → ∀ item ∈ items, item.DistinctKeys

namespace Distinct

variable {fuel : Nat}

theorem value_succ (ih : Distinct fuel) (s : List Char) (v : Value) (rest : List Char)
    (h : readValue (fuel + 1) s = .ok (v, rest)) : v.DistinctKeys := by
  cases s with
  | nil => cases h
  | cons c tail =>
    rw [readValue] at h
    split at h
    · obtain ⟨⟨chars, after⟩, -, h⟩ := Loops.bind_eq_ok.1 h
      cases h
      exact Value.distinctKeys_string _
    · split at h
      · split at h
        · cases h
          exact .object [] List.nodup_nil (by simp)
        · obtain ⟨⟨members, after⟩, hmembers, h⟩ := Loops.bind_eq_ok.1 h
          cases h
          exact Value.distinctKeys_ofList (ih.members _ _ _ hmembers)
      · split at h
        · split at h
          · cases h
            exact .array [] (by simp)
          · obtain ⟨⟨items, after⟩, hitems, h⟩ := Loops.bind_eq_ok.1 h
            cases h
            exact .array items (ih.items _ _ _ hitems)
        · exact distinctKeys_readScalar h

theorem members_succ (ih : Distinct fuel) (s : List Char) (members : Members) (rest : List Char)
    (h : readMembers (fuel + 1) s = .ok (members, rest)) :
    ∀ member ∈ members, member.2.DistinctKeys := by
  unfold readMembers at h
  split at h
  · obtain ⟨⟨name, afterName⟩, -, h⟩ := Loops.bind_eq_ok.1 h
    dsimp only at h
    split at h
    · obtain ⟨⟨value, afterValue⟩, hvalue, h⟩ := Loops.bind_eq_ok.1 h
      have hfirst := ih.value _ _ _ hvalue
      dsimp only at h
      split at h
      · cases h
        simpa using hfirst
      · obtain ⟨⟨others, after⟩, hothers, h⟩ := Loops.bind_eq_ok.1 h
        cases h
        simpa using ⟨hfirst, fun key other hmem => ih.members _ _ _ hothers (key, other) hmem⟩
      · cases h
    · cases h
  · cases h

theorem items_succ (ih : Distinct fuel) (s : List Char) (items : List Value) (rest : List Char)
    (h : readItems (fuel + 1) s = .ok (items, rest)) : ∀ item ∈ items, item.DistinctKeys := by
  rw [readItems] at h
  obtain ⟨⟨value, afterValue⟩, hvalue, h⟩ := Loops.bind_eq_ok.1 h
  have hfirst := ih.value _ _ _ hvalue
  dsimp only at h
  split at h
  · cases h
    simpa using hfirst
  · obtain ⟨⟨others, after⟩, hothers, h⟩ := Loops.bind_eq_ok.1 h
    cases h
    simpa using ⟨hfirst, ih.items _ _ _ hothers⟩
  · cases h

end Distinct

/-- **The values of the reader** have every key once. -/
theorem distinct (fuel : Nat) : Distinct fuel := by
  induction fuel with
  | zero => exact ⟨nofun, nofun, nofun⟩
  | succ fuel ih => exact ⟨ih.value_succ, ih.members_succ, ih.items_succ⟩

end Reader

/-- **The document that a text writes** has every key of an object once. -/
theorem distinctKeys_of_read {text : String} {value : Value} (h : read text = .ok value) :
    value.DistinctKeys := by
  simp only [read] at h
  cases hread : Reader.readDocument text.toList with
  | error failure =>
    rw [hread] at h
    cases failure <;> cases h
  | ok found =>
    rw [hread] at h
    cases h
    unfold Reader.readDocument at hread
    split at hread
    · cases hread
    · obtain ⟨⟨v, after⟩, hvalue, hread⟩ := Loops.bind_eq_ok.1 hread
      dsimp only at hread
      split at hread
      · cases hread
        exact (Reader.distinct _).value _ _ _ hvalue
      · cases hread

end Json

end SampleTypes
