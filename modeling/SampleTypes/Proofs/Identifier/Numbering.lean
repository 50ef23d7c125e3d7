import Mathlib.Data.List.Nodup
import Mathlib.Data.Nat.Find
import SampleTypes.Proofs.Identifier.Words

/-!
# The numbers of attributes

An attribute that cannot have the name it wants, because an earlier one of its type has it, gets the
first number from two on that makes a new name. The search for it cannot go on for long: the wanted
name and its numbered forms all differ, so there are more of them than earlier attributes as soon as
the number is that of the attribute itself.

Whatever is put behind a name, a low line or a number, keeps it a legal one, and no keyword has the
one or the other at its end, the low line itself apart.

## Main results

* `exists_firstFree`: the search ends, and where.
* `attributes_split`: each attribute, given those before it.
* `not_isKeyword_wanted`, `not_isKeyword_number`: attributes are no keywords.
* `attributes_are_legal_and_distinct`: all of it.
-/

namespace SampleTypes.Identifier

/-- The first number from two on that makes a new name of `base`. -/
structure FirstFree (base : String) (used : List String) (n : Nat) : Prop where
  two_le : 2 ≤ n
  free : base ++ toString n ∉ used
  inUse : ∀ m, 2 ≤ m → m < n → base ++ toString m ∈ used

/-- What an attribute that wants the name `base` is called behind those in `earlier`: so, if the name is
new, and else by the first number that makes a new one. The number is at most that of the attribute,
and the search stops at it by itself, however many tries it has. -/
structure GivenBehind (earlier : List String) (base name : String) : Prop where
  new : base ∉ earlier → name = base
  numbered : base ∈ earlier → ∃ n, FirstFree base earlier n ∧ n ≤ earlier.length + 1 ∧
    name = base ++ toString n ∧
    ∀ tries, earlier.length ≤ tries → Identifier.numbered base earlier tries 2 = name

/-- The words that no attribute may be. -/
def IsKeyword (name : String) : Prop :=
  name ∈ keywords ∨ name ∈ softKeywords

instance (name : String) : Decidable (IsKeyword name) :=
  inferInstanceAs (Decidable (_ ∨ _))

section

variable {base name : String} {used reserved identifiers before after : List String} {n : Nat}

/-! ## The search -/

theorem toString_injective {m n : Nat} (h : toString m = toString n) : m = n := by
  have hchars : Nat.toDigits 10 m = Nat.toDigits 10 n := by
    simpa only [Nat.toString_eq_repr, Nat.toList_repr] using congrArg String.toList h
  simpa using congrArg (fun digits => Nat.ofDigitChars 10 digits 0) hchars

theorem number_injective {m n : Nat} (h : base ++ toString m = base ++ toString n) : m = n := by
  rw [← String.toList_inj, String.toList_append, String.toList_append] at h
  exact toString_injective (String.toList_inj.1 (List.append_cancel_left h))

theorem number_ne (base : String) (n : Nat) : base ++ toString n ≠ base := by
  intro h
  have hlength := congrArg (fun name => name.toList.length) h
  have hpos := List.length_pos_of_ne_nil (number_ne_nil n)
  simp only [String.toList_append, List.length_append] at hlength
  omega

/-- A name with as many of its numbered forms, from two on. -/
def forms (base : String) (count : Nat) : List String :=
  base :: (List.range count).map fun i => base ++ toString (i + 2)

theorem nodup_forms (base : String) (count : Nat) : (forms base count).Nodup := by
  refine List.nodup_cons.2 ⟨fun hmem => ?_, ?_⟩
  · obtain ⟨i, -, hi⟩ := List.mem_map.1 hmem
    exact number_ne base (i + 2) hi
  · exact List.nodup_range.map fun i j hij => by simpa using number_injective hij

/-- A name and as many numbered forms as there are names in use are too many to be all in use. -/
theorem exists_free (hbase : base ∈ used) :
    ∃ n, 2 ≤ n ∧ n ≤ used.length + 1 ∧ base ++ toString n ∉ used := by
  by_contra hnone
  have hsubset : forms base used.length ⊆ used := by
    intro name hname
    rcases List.mem_cons.1 hname with rfl | hname
    · exact hbase
    · obtain ⟨i, hi, rfl⟩ := List.mem_map.1 hname
      have hlt := List.mem_range.1 hi
      by_contra hnew
      exact hnone ⟨i + 2, by omega, by omega, hnew⟩
  have hlength := (nodup_forms base used.length).length_le_of_subset hsubset
  rw [forms, List.length_cons, List.length_map, List.length_range] at hlength
  omega

/-- **The search ends**, at a number that is at most one more than there are names in use. -/
theorem exists_firstFree (hbase : base ∈ used) :
    ∃ n, FirstFree base used n ∧ n ≤ used.length + 1 := by
  obtain ⟨bound, hlow, hbound, hfree⟩ := exists_free hbase
  have hfound : ∃ n, 2 ≤ n ∧ base ++ toString n ∉ used := ⟨bound, hlow, hfree⟩
  refine ⟨Nat.find hfound, ⟨(Nat.find_spec hfound).1, (Nat.find_spec hfound).2, ?_⟩,
    Nat.le_trans (Nat.find_min' hfound ⟨hlow, hfree⟩) hbound⟩
  intro m hm hlt
  by_contra hnew
  exact Nat.find_min hfound hlt ⟨hm, hnew⟩

/-- With enough tries the search finds the first number that is free. -/
theorem numbered_eq {tries counter : Nat} (h : FirstFree base used n) (hlow : 2 ≤ counter)
    (hcounter : counter ≤ n) (htries : n ≤ counter + tries) :
    numbered base used tries counter = base ++ toString n := by
  induction tries generalizing counter with
  | zero =>
    obtain rfl : counter = n := by omega
    rfl
  | succ tries ih =>
    unfold numbered
    by_cases hn : counter = n
    · subst hn
      rw [if_neg h.free]
    · rw [if_pos (h.inUse counter hlow (by omega))]
      exact ih (by omega) (by omega) (by omega)

/-- Which names are in use counts, and not how they are listed. -/
theorem FirstFree.congr {used' : List String} (h : FirstFree base used n)
    (hsame : ∀ name, name ∈ used ↔ name ∈ used') : FirstFree base used' n where
  two_le := h.two_le
  free := fun hmem => h.free ((hsame _).2 hmem)
  inUse := fun m hlow hlt => (hsame _).1 (h.inUse m hlow hlt)

theorem unused_of_notMem (h : base ∉ used) : unused base used = base :=
  if_neg h

theorem unused_of_firstFree (hbase : base ∈ used) (h : FirstFree base used n)
    (hbound : n ≤ used.length + 1) : unused base used = base ++ toString n := by
  rw [unused, if_pos hbase]
  exact numbered_eq h (Nat.le_refl 2) h.two_le (by omega)

/-- A name that is not in use is not in use. -/
theorem unused_notMem (base : String) (used : List String) : unused base used ∉ used := by
  by_cases hbase : base ∈ used
  · obtain ⟨n, hfirst, hbound⟩ := exists_firstFree hbase
    rw [unused_of_firstFree hbase hfirst hbound]
    exact hfirst.free
  · rwa [unused_of_notMem hbase]

/-! ## One attribute after another -/

theorem nodup_attributesAfter (reserved used identifiers : List String) :
    (attributesAfter reserved used identifiers).Nodup ∧
      ∀ name ∈ attributesAfter reserved used identifiers, name ∉ used := by
  induction identifiers generalizing used with
  | nil => simp [attributesAfter]
  | cons identifier rest ih =>
    unfold attributesAfter
    dsimp only
    obtain ⟨hnodup, hnew⟩ := ih (unused (wanted reserved identifier) used :: used)
    refine ⟨List.nodup_cons.2 ⟨fun hmem => hnew _ hmem List.mem_cons_self, hnodup⟩, ?_⟩
    intro name hname
    rcases List.mem_cons.1 hname with rfl | hname
    · exact unused_notMem _ _
    · exact fun hused => hnew name hname (List.mem_cons_of_mem _ hused)

/-- **No two attributes agree.** -/
theorem nodup_attributes (reserved identifiers : List String) :
    (attributes reserved identifiers).Nodup :=
  (nodup_attributesAfter reserved [] identifiers).1

theorem attributesAfter_append (reserved used before after : List String) :
    attributesAfter reserved used (before ++ after) =
      attributesAfter reserved used before ++
        attributesAfter reserved ((attributesAfter reserved used before).reverse ++ used) after := by
  induction before generalizing used with
  | nil => rfl
  | cons identifier rest ih => simp [attributesAfter, ih]

theorem givenBehind_unused (base : String) (earlier : List String) :
    GivenBehind earlier base (unused base earlier.reverse) where
  new := fun hnew => unused_of_notMem (by simpa using hnew)
  numbered := by
    intro hused
    obtain ⟨n, hfirst, hbound⟩ := exists_firstFree hused
    have hreverse : FirstFree base earlier.reverse n := hfirst.congr (by simp)
    have hname := unused_of_firstFree (by simpa using hused) hreverse (by simpa using hbound)
    refine ⟨n, hfirst, hbound, hname, fun tries htries => ?_⟩
    rw [hname, numbered_eq hfirst (Nat.le_refl 2) hfirst.two_le (by omega)]

/-- **Each attribute, given those before it.** -/
theorem attributes_split (reserved before : List String) (identifier : String)
    (after : List String) :
    ∃ name later, attributes reserved (before ++ identifier :: after) =
        attributes reserved before ++ name :: later ∧
      GivenBehind (attributes reserved before) (wanted reserved identifier) name := by
  rw [attributes, attributesAfter_append, List.append_nil]
  exact ⟨_, _, rfl, givenBehind_unused _ _⟩

/-! ## Keywords -/

/-- No keyword ends with a digit, and none but the low line itself ends with a low line. -/
theorem not_isKeyword_of_getLast? {c : Char} (hlast : name.toList.getLast? = some c)
    (hc : isDigit c = true ∨ c = '_' ∧ name ≠ "_") : ¬ IsKeyword name := by
  have hdigits : ∀ word ∈ keywords ++ softKeywords,
      word.toList.getLast?.any isDigit = false := by decide
  have hlines : ∀ word ∈ keywords ++ softKeywords,
      word.toList.getLast? = some '_' → word = "_" := by decide
  intro hkeyword
  have hmem := List.mem_append.2 hkeyword
  rcases hc with hc | ⟨rfl, hname⟩
  · have hdigit := hdigits name hmem
    rw [hlast, Option.any_some, hc] at hdigit
    cases hdigit
  · exact hname (hlines name hmem hlast)

theorem not_isKeyword_lowLine (hname : name ≠ "") : ¬ IsKeyword (name ++ "_") := by
  refine not_isKeyword_of_getLast? (getLast?_append name (by decide)) (Or.inr ⟨rfl, fun h => ?_⟩)
  rw [← String.toList_inj, String.toList_append] at h
  exact hname (String.toList_eq_nil_iff.1 (List.append_left_eq_self.1 h))

theorem not_isKeyword_number (base : String) (n : Nat) : ¬ IsKeyword (base ++ toString n) := by
  have hlast := List.getLast?_eq_some_getLast (number_ne_nil n)
  refine not_isKeyword_of_getLast? ((getLast?_append base (number_ne_nil n)).trans hlast) ?_
  exact Or.inl (isDigit_of_mem_number (List.getLast_mem _))

theorem IsPlain.ne_empty (h : IsPlain name) : name ≠ "" := by
  obtain ⟨first, others, hchars, -⟩ := h
  rintro rfl
  cases hchars

/-- The name of a field taken alone is no keyword. -/
theorem not_isKeyword_attributeName (identifier : String) :
    ¬ IsKeyword (attributeName identifier) := by
  unfold attributeName
  dsimp only
  split
  · exact not_isKeyword_lowLine (isPlain_legal identifier).ne_empty
  · assumption

theorem isPlain_attributeName (identifier : String) : IsPlain (attributeName identifier) := by
  unfold attributeName
  dsimp only
  split
  · exact (isPlain_legal identifier).append (by simp)
  · exact isPlain_legal identifier

theorem not_isKeyword_wanted (reserved : List String) (identifier : String) :
    ¬ IsKeyword (wanted reserved identifier) := by
  unfold wanted
  dsimp only
  split
  · exact not_isKeyword_lowLine (isPlain_attributeName identifier).ne_empty
  · exact not_isKeyword_attributeName identifier

/-- **No attribute is a keyword.** -/
theorem not_isKeyword_attributes (reserved identifiers : List String) :
    ∀ name ∈ attributes reserved identifiers, ¬ IsKeyword name :=
  forall_attributes_of_wanted (fun identifier _ => not_isKeyword_wanted reserved identifier)
    fun _ _ => not_isKeyword_number _

end

/-- **Attributes are legal and distinct**, whatever the identifiers are and whatever is reserved. There
is one for each identifier, in order, and no two agree. Each is a letter with letters, digits and
low lines behind it, and no keyword. Given those before it, an attribute has the name that its
identifier wants or this name with a number, which is at most that of the attribute. -/
theorem attributes_are_legal_and_distinct (reserved identifiers : List String) :
    (attributes reserved identifiers).length = identifiers.length ∧
      (attributes reserved identifiers).Nodup ∧
      (∀ name ∈ attributes reserved identifiers,
        IsPlain name ∧ name ∉ keywords ∧ name ∉ softKeywords) ∧
      ∀ before identifier after, identifiers = before ++ identifier :: after →
        ∃ earlier name later, attributes reserved identifiers = earlier ++ name :: later ∧
          earlier.length = before.length ∧
          GivenBehind earlier (wanted reserved identifier) name := by
  refine ⟨length_attributes reserved identifiers, nodup_attributes reserved identifiers,
    fun name hname => ?_, ?_⟩
  · exact ⟨isPlain_attributes reserved identifiers name hname,
      not_or.1 (not_isKeyword_attributes reserved identifiers name hname)⟩
  · rintro before identifier after rfl
    obtain ⟨name, later, hsplit, hgiven⟩ := attributes_split reserved before identifier after
    exact ⟨_, name, later, hsplit, length_attributes reserved before, hgiven⟩

theorem attributes_are_legal_and_distinct_cases :
    attributes ["Name"] ["Name2", "name", "Name", "1", "Name", "class", "Name"] =
        ["Name2", "name", "Name_", "F1", "Name_2", "class_", "Name_3"] ∧
      IsPlain "Name_3" := by
  have hvalue : attributes ["Name"] ["Name2", "name", "Name", "1", "Name", "class", "Name"] =
      ["Name2", "name", "Name_", "F1", "Name_2", "class_", "Name_3"] := by decide
  obtain ⟨-, -, hplain, -⟩ := attributes_are_legal_and_distinct ["Name"]
    ["Name2", "name", "Name", "1", "Name", "class", "Name"]
  exact ⟨hvalue, (hplain "Name_3" (by rw [hvalue]; decide)).1⟩

end SampleTypes.Identifier
