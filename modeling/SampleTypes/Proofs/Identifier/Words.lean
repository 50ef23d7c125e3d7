import SampleTypes.Proofs.Identifier.Attributes
import SampleTypes.Proofs.Source.Tokens

/-!
# Names are words

Whatever texts a plan is made of, the names of its classes and attributes are words of source: a letter
of ASCII with letters, digits and low lines behind it. Characters that cannot stand in a word are left
out of class names and replaced in attributes, and a start that is no letter is led by one.

## Main results

* `isPlain_className`: the name of a class.
* `isPlain_attributes`: the names of attributes.
* `isWord_of_isPlain`: what source makes of them.
-/

namespace SampleTypes.Identifier

/-- A letter of ASCII, with letters, digits and low lines behind it. -/
def IsPlain (name : String) : Prop :=
  ∃ first others, name.toList = first :: others ∧ isAlphanumeric first = true ∧
    isDigit first = false ∧ ∀ c ∈ others, isAlphanumeric c = true ∨ c = '_'

section

variable {name suffix identifier : String} {cs : List Char} {c : Char}

/-- More letters, digits and low lines may stand behind a plain name. -/
theorem IsPlain.append (h : IsPlain name)
    (hsuffix : ∀ c ∈ suffix.toList, isAlphanumeric c = true ∨ c = '_') :
    IsPlain (name ++ suffix) := by
  obtain ⟨first, others, hchars, hletter, hdigit, hothers⟩ := h
  refine ⟨first, others ++ suffix.toList, ?_, hletter, hdigit, fun c hc => ?_⟩
  · rw [String.toList_append, hchars, List.cons_append]
  · rcases List.mem_append.1 hc with hc | hc
    · exact hothers c hc
    · exact hsuffix c hc

/-! ## Attributes -/

theorem mem_legalChars (h : c ∈ legalChars cs) : isAlphanumeric c = true ∨ c = '_' := by
  obtain ⟨original, -, rfl⟩ := List.mem_map.1 h
  split
  · rename_i hkept
    simpa using hkept
  · exact Or.inr rfl

theorem isPlain_legal (identifier : String) : IsPlain (legal identifier) := by
  have hall : ∀ c ∈ legalChars identifier.toList, isAlphanumeric c = true ∨ c = '_' :=
    fun _ => mem_legalChars
  have hstandIn : IsPlain "F" := ⟨'F', [], by decide, by decide, by decide, by simp⟩
  unfold legal
  dsimp only
  split
  · exact hstandIn
  · split
    · exact hstandIn
    · rename_i c rest hchars
      rw [hchars] at hall
      split
      · exact ⟨'F', c :: rest, String.toList_ofList, by decide, by decide, hall⟩
      · rename_i hstart
        rw [Bool.or_eq_true, decide_eq_true_iff, not_or, Bool.not_eq_true] at hstart
        have hletter := (hall c List.mem_cons_self).resolve_right hstart.2
        exact ⟨c, rest, String.toList_ofList, hletter, hstart.1,
          fun other hother => hall other (List.mem_cons_of_mem _ hother)⟩

/-- **The names of attributes are plain.** -/
theorem isPlain_attributes (reserved identifiers : List String) :
    ∀ name ∈ attributes reserved identifiers, IsPlain name := by
  have hdigits : ∀ n : Nat, ∀ c ∈ (toString n).toList, isAlphanumeric c = true ∨ c = '_' :=
    fun n c hc =>
      Or.inl (isAlphanumeric_iff.2 (Or.inr (isDigit_iff.1 (isDigit_of_mem_number hc))))
  refine forall_attributes (fun identifier _ => isPlain_legal identifier) ?_ ?_
  · exact fun name hname => hname.append (by simp)
  · exact fun name hname n => hname.append (hdigits n)

/-! ## Classes -/

theorem isAlphanumeric_upperAscii (h : isAlphanumeric c = true) :
    isAlphanumeric (upperAscii c) = true := by
  unfold upperAscii
  split
  · rename_i hsmall
    have hlow : 97 ≤ c.toNat := hsmall.1
    have hhigh : c.toNat ≤ 122 := hsmall.2
    have hvalid : (c.toNat - 32).isValidChar := Or.inl (by omega)
    have hcode : (Char.ofNat (c.toNat - 32)).toNat = c.toNat - 32 := by
      rw [Char.ofNat, dif_pos hvalid]
      rfl
    rw [isAlphanumeric_iff, hcode]
    omega
  · exact h

theorem isAlphanumeric_of_mem_camel {fresh : Bool} (h : c ∈ camel fresh cs) :
    isAlphanumeric c = true := by
  induction cs generalizing fresh with
  | nil =>
    unfold camel at h
    cases h
  | cons first rest ih =>
    unfold camel at h
    split at h
    · rename_i hletter
      rcases List.mem_cons.1 h with rfl | h
      · split
        · exact isAlphanumeric_upperAscii hletter
        · exact hletter
      · exact ih h
    · exact ih h

/-- **The name of a class is plain.** -/
theorem isPlain_className (name : String) : IsPlain (className name) := by
  have hmodel : IsPlain "Model" :=
    ⟨'M', ['o', 'd', 'e', 'l'], by decide, by decide, by decide, by decide⟩
  have hall : ∀ c ∈ camel true name.toList, isAlphanumeric c = true :=
    fun _ => isAlphanumeric_of_mem_camel
  unfold className
  split
  · exact hmodel
  · rename_i c rest hchars
    rw [hchars] at hall
    dsimp only
    split
    · exact hmodel.append fun other hother => Or.inl (hall other (by simpa using hother))
    · rename_i hdigit
      have hbase : IsPlain (String.ofList (c :: rest)) :=
        ⟨c, rest, String.toList_ofList, hall c List.mem_cons_self, Bool.not_eq_true _ ▸ hdigit,
          fun other hother => Or.inl (hall other (List.mem_cons_of_mem _ hother))⟩
      split
      · exact hbase.append (by simp)
      · exact hbase

/-- A class name has letters and digits only, unless it is a keyword with a low line behind it. -/
theorem className_cases (name : String) :
    (∀ c ∈ (className name).toList, isAlphanumeric c = true) ∨
      ∃ keyword ∈ keywords, className name = keyword ++ "_" := by
  have hmodel : ∀ c ∈ "Model".toList, isAlphanumeric c = true := by decide
  have hall : ∀ c ∈ camel true name.toList, isAlphanumeric c = true :=
    fun _ => isAlphanumeric_of_mem_camel
  unfold className
  split
  · exact Or.inl hmodel
  · rename_i c rest hchars
    rw [hchars, ← String.toList_ofList (l := c :: rest)] at hall
    dsimp only
    split
    · refine Or.inl fun other hother => ?_
      rw [String.toList_append, List.mem_append] at hother
      exact hother.elim (hmodel other) (hall other)
    · split
      · rename_i hkeyword
        exact Or.inr ⟨_, hkeyword, rfl⟩
      · exact Or.inl hall

/-! ## Source -/

/-- **A plain name is a word of source.** -/
theorem isWord_of_isPlain (h : IsPlain name) : Source.Token.IsWord name := by
  obtain ⟨first, others, hchars, hletter, hdigit, hothers⟩ := h
  have hname : ∀ c, isAlphanumeric c = true →
      Source.Token.isNameChar c = true ∧ c.toNat < 128 := by
    intro c hc
    have hcode := isAlphanumeric_iff.1 hc
    rw [isAlphanumeric, Bool.or_eq_true, Bool.or_eq_true] at hc
    refine ⟨?_, by omega⟩
    rw [Source.Token.isNameChar, Bool.or_eq_true, Bool.or_eq_true, Bool.or_eq_true,
      Bool.or_eq_true]
    exact Or.inl (Or.inl hc)
  refine ⟨first, others, hchars, hdigit, fun c hc => ?_⟩
  rcases List.mem_cons.1 hc with rfl | hc
  · exact hname c hletter
  · rcases hothers c hc with halpha | rfl
    · exact hname c halpha
    · decide

end

end SampleTypes.Identifier
