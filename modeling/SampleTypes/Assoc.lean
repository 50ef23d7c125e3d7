/-!
# Ordered associations

Pairs of a name and a value in which the order of the names is part of the data. Binding a name
again changes its value and not its place.

## Main results

* `get?_put`: looking up after binding.
* `keys_put`: a new name goes to the end, a known one stays where it is.
-/

namespace SampleTypes.Assoc

variable {α : Type _}

/-- Binds `key` to `value`: a key that is there keeps its place, a new one goes to the end. -/
def put (key : String) (value : α) : List (String × α) → List (String × α)
  | [] => [(key, value)]
  | (k, v) :: rest => if k = key then (k, value) :: rest else (k, v) :: put key value rest

/-- The association that arises from binding the pairs one after another. -/
def ofList (pairs : List (String × α)) : List (String × α) :=
  pairs.foldl (fun bound pair => put pair.1 pair.2 bound) []

/-- The value bound to `key`. -/
def get? (key : String) : List (String × α) → Option α
  | [] => none
  | (k, v) :: rest => if k = key then some v else get? key rest

/-- The keys in order. -/
def keys (pairs : List (String × α)) : List String :=
  pairs.map Prod.fst

theorem get?_put (key other : String) (value : α) (pairs : List (String × α)) :
    get? other (put key value pairs) = if key = other then some value else get? other pairs := by
  induction pairs with
  | nil => simp [put, get?]
  | cons pair rest ih =>
    obtain ⟨k, v⟩ := pair
    by_cases h : k = key
    · subst h
      by_cases h' : k = other <;> simp [put, get?, h']
    · by_cases h' : k = other
      · subst h'
        simp [put, get?, h, Ne.symm h]
      · simp [put, get?, h, h', ih]

theorem keys_put (key : String) (value : α) (pairs : List (String × α)) :
    keys (put key value pairs) =
      if key ∈ keys pairs then keys pairs else keys pairs ++ [key] := by
  induction pairs with
  | nil => simp [put, keys]
  | cons pair rest ih =>
    obtain ⟨k, v⟩ := pair
    by_cases h : k = key
    · simp [put, keys, h]
    · simp only [keys] at ih
      by_cases h' : key ∈ List.map Prod.fst rest <;> simp [put, keys, h, h', ih, Ne.symm h]

end SampleTypes.Assoc
