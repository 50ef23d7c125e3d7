import SampleTypes.Proofs.Identifier.Keys

/-!
# How the attributes of a document start

The identifier of a key never starts with a small ASCII letter, because upper case is never one. An
attribute therefore starts with a capital ASCII letter: what else an identifier may start with is a
digit, a low line or a character that is replaced by one, and gets an `F` in front. What is put
behind a name to keep it apart from others does not change its start, so this holds whatever names
are reserved or in use.

## Main results

* `not_isSmall_capitalize`: upper case does not start with a small letter.
* `forall_attributes`: what holds of all attributes.
* `startsCapital_attributes`: the attributes of identifiers that do not start with a small letter.
-/

namespace SampleTypes

namespace Text.Upper

/-- The code point of a small ASCII letter. -/
def IsSmall (code : Nat) : Prop :=
  97 ≤ code ∧ code ≤ 122

/-- The image of a run stays clear of the small letters. -/
theorem not_isSmall_of_image? {run : Run} {code image : Nat} (hrun : run ∈ runs)
    (h : Run.image? code run = some image) : ¬ IsSmall image := by
  have hall : ∀ run ∈ runs, 122 < run.2.2.2 ∨ run.2.2.2 + (run.2.1 - run.1) < 97 := by
    decide +kernel
  rcases run with ⟨first, last, step, start⟩
  have hrange := hall _ hrun
  dsimp only at hrange
  by_cases hcode : first ≤ code ∧ code ≤ last ∧ (code - first) % step = 0
  · simp only [Run.image?, if_pos hcode, Option.some.injEq] at h
    unfold IsSmall
    omega
  · simp [Run.image?, if_neg hcode] at h

/-- The first code point of an upper case is not a small letter: the small letters are a run of
their own. -/
theorem not_isSmall_head_codes {code first : Nat} {rest : List Nat}
    (h : codes code = first :: rest) : ¬ IsSmall first := by
  have hexpansions : ∀ entry ∈ expansions, ∀ head ∈ entry.2.head?, 122 < head ∨ head < 97 := by
    decide +kernel
  unfold codes at h
  split at h
  · rename_i image hlookup
    have hclear := hexpansions _ (mem_expansions_of_lookup hlookup) first (by simp [h])
    unfold IsSmall
    omega
  · obtain ⟨hfirst, -⟩ := List.cons.inj h
    cases hfind : runs.findSome? (Run.image? code) with
    | some image =>
      obtain ⟨run, hrun, himage⟩ := List.exists_of_findSome?_eq_some hfind
      rw [hfind] at hfirst
      subst hfirst
      exact not_isSmall_of_image? hrun himage
    | none =>
      rw [hfind] at hfirst
      subst hfirst
      have hsmall := List.findSome?_eq_none_iff.1 hfind (97, 122, 1, 65) (by decide)
      rintro ⟨hlow, hhigh⟩
      rw [Option.getD_none] at hlow hhigh
      simp [Run.image?, hlow, hhigh, Nat.mod_one] at hsmall

/-- Upper case does not start with a small letter. -/
theorem not_isSmall_capitalize {s : String} {c : Char} {rest : List Char}
    (h : (capitalize s).toList = c :: rest) : ¬ IsSmall c.toNat := by
  unfold capitalize at h
  split at h
  · simp at h
  · rename_i original others _
    rw [String.toList_ofList, ofChar] at h
    cases hcodes : codes original.toNat with
    | nil => exact absurd hcodes (codes_ne_nil _)
    | cons first later =>
      rw [hcodes, List.map_cons, List.cons_append] at h
      obtain ⟨rfl, -⟩ := List.cons.inj h
      have hfirst := not_isSmall_head_codes hcodes
      by_cases hvalid : first.isValidChar
      · rw [Char.ofNat, dif_pos hvalid]
        exact hfirst
      · rw [Char.ofNat, dif_neg hvalid]
        unfold IsSmall
        decide

end Text.Upper

namespace Identifier

open Text.Upper (IsSmall)

/-- The name starts with a capital ASCII letter. -/
def startsCapital (name : String) : Bool :=
  match name.toList with
  | [] => false
  | c :: _ => 65 ≤ c.toNat && c.toNat ≤ 90

theorem not_isSmall_ofKey {key : String} {c : Char} {rest : List Char}
    (h : (ofKey key).toList = c :: rest) : ¬ IsSmall c.toNat := by
  unfold ofKey at h
  split at h <;> exact Text.Upper.not_isSmall_capitalize h

theorem startsCapital_append {name : String} (h : startsCapital name = true) (suffix : String) :
    startsCapital (name ++ suffix) = true := by
  unfold startsCapital at h ⊢
  rw [String.toList_append]
  cases hname : name.toList with
  | nil => simp [hname] at h
  | cons c rest => simpa [hname] using h

theorem isDigit_iff {c : Char} : isDigit c = true ↔ 48 ≤ c.toNat ∧ c.toNat ≤ 57 := by
  simp only [isDigit, Bool.and_eq_true, decide_eq_true_eq, Char.le_def, UInt32.le_iff_toNat_le]
  exact Iff.rfl

theorem isAlphanumeric_iff {c : Char} :
    isAlphanumeric c = true ↔
      ((97 ≤ c.toNat ∧ c.toNat ≤ 122) ∨ (65 ≤ c.toNat ∧ c.toNat ≤ 90)) ∨
        (48 ≤ c.toNat ∧ c.toNat ≤ 57) := by
  simp only [isAlphanumeric, Bool.or_eq_true, Bool.and_eq_true, decide_eq_true_eq, Char.le_def,
    UInt32.le_iff_toNat_le]
  exact Iff.rfl

/-! ## What stands behind a name -/

theorem number_ne_nil (n : Nat) : (toString n).toList ≠ [] := by
  rw [Nat.toString_eq_repr, Nat.toList_repr]
  exact Nat.toDigits_ne_nil

theorem isDigit_of_mem_number {c : Char} {n : Nat} (h : c ∈ (toString n).toList) :
    isDigit c = true := by
  rw [Nat.toString_eq_repr, Nat.toList_repr] at h
  have hdigit := Nat.isDigit_of_mem_toDigits (by decide) (by decide) h
  simp only [Char.isDigit, Bool.and_eq_true, decide_eq_true_eq, ge_iff_le,
    UInt32.le_iff_toNat_le] at hdigit
  exact isDigit_iff.2 hdigit

/-- A name ends like what is put behind it. -/
theorem getLast?_append (base : String) {suffix : String} (h : suffix.toList ≠ []) :
    (base ++ suffix).toList.getLast? = suffix.toList.getLast? := by
  rw [String.toList_append, List.getLast?_append, List.getLast?_eq_some_getLast h, Option.some_or]

/-! ## How a legal name starts -/

/-- The first character is kept if it is legal. -/
theorem legalChars_cons (c : Char) (rest : List Char) :
    ∃ first others, legalChars (c :: rest) = first :: others ∧
      (first = '_' ∨ first = c ∧ isAlphanumeric c = true) := by
  refine ⟨_, _, rfl, ?_⟩
  dsimp only
  split
  · rename_i hlegal
    rw [Bool.or_eq_true, decide_eq_true_iff] at hlegal
    rcases hlegal with halpha | hline
    · exact Or.inr ⟨rfl, halpha⟩
    · exact Or.inl hline
  · exact Or.inl rfl

/-- A legal name starts with a capital letter, if the identifier does not start with a small one. -/
theorem startsCapital_legal {identifier : String}
    (h : ∀ c rest, identifier.toList = c :: rest → ¬ IsSmall c.toNat) :
    startsCapital (legal identifier) = true := by
  unfold legal
  cases hchars : identifier.toList with
  | nil => decide
  | cons c rest =>
    obtain ⟨first, others, hlegal, hfirst⟩ := legalChars_cons c rest
    simp only [hlegal]
    split
    · decide
    · split
      · simp [startsCapital]
      · rename_i hplain
        rw [Bool.or_eq_true, decide_eq_true_iff, not_or, isDigit_iff] at hplain
        obtain ⟨rfl, halpha⟩ := hfirst.resolve_left hplain.2
        have hclear := h first rest hchars
        rw [isAlphanumeric_iff] at halpha
        unfold IsSmall at hclear
        simp only [startsCapital, String.toList_ofList, Bool.and_eq_true, decide_eq_true_eq]
        omega

/-! ## What attributes have in common -/

section

variable {P : String → Prop}

/-- A numbered name has what numbers do not take away. -/
theorem numbered_of {base : String} (hnumber : ∀ n : Nat, P (base ++ toString n))
    (used : List String) (tries counter : Nat) : P (numbered base used tries counter) := by
  induction tries generalizing counter with
  | zero => exact hnumber counter
  | succ tries ih =>
    unfold numbered
    split
    · exact ih (counter + 1)
    · exact hnumber counter

/-- What holds of the names that are wanted, with numbers and without, holds of attributes. -/
theorem forall_attributes_of_wanted {reserved identifiers : List String}
    (hwanted : ∀ identifier ∈ identifiers, P (wanted reserved identifier))
    (hnumber : ∀ identifier ∈ identifiers, ∀ n : Nat,
      P (wanted reserved identifier ++ toString n)) :
    ∀ name ∈ attributes reserved identifiers, P name := by
  have hafter : ∀ used, ∀ name ∈ attributesAfter reserved used identifiers, P name := by
    induction identifiers with
    | nil => simp [attributesAfter]
    | cons identifier rest ih =>
      rw [List.forall_mem_cons] at hwanted hnumber
      intro used name hname
      unfold attributesAfter at hname
      rcases List.mem_cons.1 hname with rfl | hname
      · unfold unused
        split
        · exact numbered_of hnumber.1 _ _ _
        · exact hwanted.1
      · exact ih hwanted.2 hnumber.2 _ name hname
  exact hafter []

/-- **What holds of legal names holds of attributes**, if low lines and numbers behind a name do not
take it away. -/
theorem forall_attributes {reserved identifiers : List String}
    (hlegal : ∀ identifier ∈ identifiers, P (legal identifier))
    (hline : ∀ name, P name → P (name ++ "_"))
    (hnumber : ∀ name, P name → ∀ n : Nat, P (name ++ toString n)) :
    ∀ name ∈ attributes reserved identifiers, P name := by
  have hwanted : ∀ identifier ∈ identifiers, P (wanted reserved identifier) := by
    intro identifier hidentifier
    have hname : P (attributeName identifier) := by
      unfold attributeName
      simp only
      split
      · exact hline _ (hlegal identifier hidentifier)
      · exact hlegal identifier hidentifier
    unfold wanted
    simp only
    split
    · exact hline _ hname
    · exact hname
  exact forall_attributes_of_wanted hwanted fun identifier hidentifier =>
    hnumber _ (hwanted identifier hidentifier)

end

/-- **Attributes start with a capital letter**, if no identifier starts with a small one. -/
theorem startsCapital_attributes {reserved identifiers : List String}
    (h : ∀ identifier ∈ identifiers, ∀ c rest, identifier.toList = c :: rest →
      ¬ IsSmall c.toNat) :
    ∀ name ∈ attributes reserved identifiers, startsCapital name = true :=
  forall_attributes (fun identifier hidentifier => startsCapital_legal (h identifier hidentifier))
    (fun _ hname => startsCapital_append hname _) fun _ hname _ => startsCapital_append hname _

end Identifier

end SampleTypes
