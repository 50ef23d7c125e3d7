import Mathlib.Data.List.Induction
import Mathlib.Data.List.Nodup
import SampleTypes.Assoc

/-!
# What associations bind

An association that arises from binding pairs one after another has every name once, and a name
has the value of its last pair. Where the names are distinct from the beginning, nothing is bound
twice, so the association is the list of pairs itself.

## Main results

* `mem_keys_ofList`, `nodup_keys_ofList`: the names of an association.
* `get?_ofList`: a name has the value of its last pair.
* `ofList_eq_self`: pairs with distinct names.
-/

namespace SampleTypes.Assoc

variable {α β : Type _}

@[simp] theorem keys_nil : keys ([] : List (String × α)) = [] := rfl

@[simp] theorem keys_cons (pair : String × α) (rest : List (String × α)) :
    keys (pair :: rest) = pair.1 :: keys rest := rfl

@[simp] theorem keys_append (front back : List (String × α)) :
    keys (front ++ back) = keys front ++ keys back := by
  simp [keys]

theorem keys_map {γ : Type _} (f : γ → String × α) (items : List γ) :
    keys (items.map f) = items.map fun item => (f item).1 := by
  rw [keys, List.map_map]
  rfl

theorem get?_cons (key : String) (pair : String × α) (rest : List (String × α)) :
    get? key (pair :: rest) = if pair.1 = key then some pair.2 else get? key rest := rfl

theorem get?_eq_none {key : String} {pairs : List (String × α)} :
    get? key pairs = none ↔ key ∉ keys pairs := by
  induction pairs with
  | nil => simp [get?]
  | cons pair rest ih =>
    by_cases h : pair.1 = key
    · simp [get?_cons, h]
    · simp [get?_cons, h, ih, Ne.symm h]

/-- A name that is bound is bound in some pair. -/
theorem mem_of_get? {key : String} {value : α} {pairs : List (String × α)}
    (h : get? key pairs = some value) : (key, value) ∈ pairs := by
  induction pairs with
  | nil => cases h
  | cons pair rest ih =>
    rcases pair with ⟨k, v⟩
    rw [get?_cons] at h
    split at h
    · rename_i hkey
      dsimp only at hkey h
      subst hkey
      obtain rfl := Option.some.inj h
      simp
    · exact List.mem_cons_of_mem _ (ih h)

theorem exists_get?_of_mem_keys {key : String} {pairs : List (String × α)}
    (h : key ∈ keys pairs) : ∃ value, get? key pairs = some value := by
  cases hget : get? key pairs with
  | some value => exact ⟨value, rfl⟩
  | none => exact absurd h (get?_eq_none.1 hget)

theorem mem_keys_of_get? {key : String} {value : α} {pairs : List (String × α)}
    (h : get? key pairs = some value) : key ∈ keys pairs :=
  List.mem_map_of_mem (mem_of_get? h)

/-- Where the names are distinct, every pair is found under its name. -/
theorem get?_of_mem {key : String} {value : α} {pairs : List (String × α)}
    (hnodup : (keys pairs).Nodup) (h : (key, value) ∈ pairs) : get? key pairs = some value := by
  induction pairs with
  | nil => cases h
  | cons pair rest ih =>
    rw [keys_cons, List.nodup_cons] at hnodup
    rw [get?_cons]
    rcases List.mem_cons.1 h with rfl | hrest
    · exact if_pos rfl
    · have hne : pair.1 ≠ key := by
        rintro rfl
        exact hnodup.1 (List.mem_map.2 ⟨_, hrest, rfl⟩)
      rw [if_neg hne]
      exact ih hnodup.2 hrest

theorem get?_map (f : String → α → β) (key : String) (pairs : List (String × α)) :
    get? key (pairs.map fun pair => (pair.1, f pair.1 pair.2)) =
      (get? key pairs).map (f key) := by
  induction pairs with
  | nil => rfl
  | cons pair rest ih =>
    by_cases h : pair.1 = key
    · subst h
      simp [get?_cons]
    · simp [get?_cons, h, ih]

/-- A new name goes to the end. -/
theorem put_of_notMem {key : String} {value : α} {pairs : List (String × α)}
    (h : key ∉ keys pairs) : put key value pairs = pairs ++ [(key, value)] := by
  induction pairs with
  | nil => rfl
  | cons pair rest ih =>
    rw [keys_cons, List.mem_cons, not_or] at h
    simp [put, Ne.symm h.1, ih h.2]

/-- Binding keeps the names distinct. -/
theorem nodup_keys_put {key : String} {value : α} {pairs : List (String × α)}
    (h : (keys pairs).Nodup) : (keys (put key value pairs)).Nodup := by
  rw [keys_put]
  split
  · exact h
  · rename_i hnew
    rw [List.nodup_append]
    refine ⟨h, List.nodup_singleton key, ?_⟩
    rintro other hother _ hkey rfl
    rw [List.mem_singleton.1 hkey] at hother
    exact hnew hother

theorem ofList_append_singleton (pairs : List (String × α)) (pair : String × α) :
    ofList (pairs ++ [pair]) = put pair.1 pair.2 (ofList pairs) := by
  simp [ofList]

theorem nodup_keys_ofList (pairs : List (String × α)) : (keys (ofList pairs)).Nodup := by
  induction pairs using List.reverseRecOn with
  | nil => exact List.nodup_nil
  | append_singleton pairs pair ih =>
    rw [ofList_append_singleton]
    exact nodup_keys_put ih

theorem mem_keys_ofList {key : String} {pairs : List (String × α)} :
    key ∈ keys (ofList pairs) ↔ key ∈ keys pairs := by
  induction pairs using List.reverseRecOn with
  | nil => simp [ofList]
  | append_singleton pairs pair ih =>
    rw [ofList_append_singleton, keys_put, keys_append, List.mem_append, ← ih]
    split
    · rename_i hknown
      constructor
      · exact Or.inl
      · rintro (h | h)
        · exact h
        · rw [keys_cons, keys_nil, List.mem_singleton] at h
          exact h ▸ hknown
    · simp

/-- **A name has the value of its last pair.** -/
theorem get?_ofList (key : String) (pairs : List (String × α)) :
    get? key (ofList pairs) =
      ((pairs.filter fun pair => pair.1 = key).getLast?).map Prod.snd := by
  induction pairs using List.reverseRecOn with
  | nil => rfl
  | append_singleton pairs pair ih =>
    rw [ofList_append_singleton, get?_put, ih, List.filter_append, List.getLast?_append]
    by_cases h : pair.1 = key <;> simp [h]

/-- **Pairs with distinct names** bind nothing twice. -/
theorem ofList_eq_self {pairs : List (String × α)} (h : (keys pairs).Nodup) :
    ofList pairs = pairs := by
  induction pairs using List.reverseRecOn with
  | nil => rfl
  | append_singleton pairs pair ih =>
    rw [keys_append, List.nodup_append] at h
    rw [ofList_append_singleton, ih h.1, put_of_notMem]
    intro hmem
    exact h.2.2 _ hmem pair.1 (by simp) rfl

end SampleTypes.Assoc
