/-!
# Places counted from either end

A place in a list is a whole number: from the front, or from the end if it is negative, where -1 is
the last place.

## Main results

* `place?_lt`: what counts as a place is one.
-/

namespace SampleTypes.Position

/-- The place in a list of the given size that an index counts to. -/
def place? (size : Nat) (index : Int) : Option Nat :=
  let place := if index < 0 then index + size else index
  if 0 ≤ place ∧ place < size then some place.toNat else none

theorem place?_lt {size : Nat} {index : Int} {place : Nat} (h : place? size index = some place) :
    place < size := by
  simp only [place?] at h
  split at h <;> split at h <;> grind

end SampleTypes.Position
