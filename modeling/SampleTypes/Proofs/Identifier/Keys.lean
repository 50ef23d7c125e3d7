import SampleTypes.Identifier

/-!
# Identifiers of keys

What is left of a key in its identifier. Upper case replaces the first character by one or more
characters, so an identifier is empty only if nothing was left of its key: the key was empty, or it
was the marker alone.

## Main results

* `ofKey_eq_empty`: the keys without an identifier.
-/

namespace SampleTypes

namespace Text.Upper

/-- What a look-up among the expansions finds stands there. -/
theorem mem_expansions_of_lookup {code : Nat} {image : List Nat}
    (h : expansions.lookup code = some image) : (code, image) ∈ expansions := by
  obtain ⟨before, after, hsplit, _⟩ := List.lookup_eq_some_iff.1 h
  rw [hsplit]
  simp

/-- No character disappears in upper case. -/
theorem codes_ne_nil (code : Nat) : codes code ≠ [] := by
  have hall : ∀ entry ∈ expansions, entry.2 ≠ [] := by decide
  unfold codes
  split
  · rename_i image h
    exact hall _ (mem_expansions_of_lookup h)
  · simp

theorem ofChar_ne_nil (c : Char) : ofChar c ≠ [] := by
  simpa [ofChar] using codes_ne_nil c.toNat

theorem capitalize_eq_empty {s : String} : capitalize s = "" ↔ s = "" := by
  unfold capitalize
  split
  · rename_i h
    simpa using h
  · rename_i c rest h
    have hne : s ≠ "" := by
      rintro rfl
      simp at h
    simp [hne, ofChar_ne_nil]

end Text.Upper

namespace Identifier

/-- A key has no identifier when it is empty or the marker alone. -/
theorem ofKey_eq_empty {key : String} : ofKey key = "" ↔ key = "" ∨ key = "@" := by
  unfold ofKey
  split
  · rename_i rest h
    have hkey : key = String.ofList ('@' :: rest) := by rw [← h, String.ofList_toList]
    subst hkey
    rw [Text.Upper.capitalize_eq_empty]
    cases rest <;> simp [String.ext_iff]
  · rename_i h
    rw [Text.Upper.capitalize_eq_empty]
    constructor
    · exact Or.inl
    · rintro (rfl | rfl)
      · rfl
      · exact absurd rfl (h [])

end Identifier

end SampleTypes
