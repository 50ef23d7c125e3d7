import SampleTypes.Proofs.Identifier.Attributes
import SampleTypes.Model

/-!
# The keys whose attribute has the refused name

The name that no attribute can have is an ordinary one: it is no keyword, starts with a capital letter
and is made of letters. So nothing on the way from a key to an attribute turns it into another name,
except that the name is reserved where a class has it. In the other direction each step leaves a
trace: a replaced character becomes a low line, a name in front of which something had to be put
starts with an `F`, and what is put behind a name ends in a low line or a digit. The refused name has
none of these, and it starts with a letter that is the upper case of two letters only.

## Main results

* `capitalize_eq_refusedName`, `ofKey_eq_refusedName`: four keys have the refused name as identifier.
* `mem_attributes_refusedName`: when it is among the attributes of some identifiers.
-/

namespace SampleTypes

open Model (refusedName)

namespace Text.Upper

/-- The capital `C` starts the upper case of itself and of its small letter only. -/
theorem code_of_codes_eq {code : Nat} {rest : List Nat} (h : codes code = 67 :: rest) :
    (code = 67 ∨ code = 99) ∧ rest = [] := by
  have hexpansions : ∀ entry ∈ expansions, entry.2.head? ≠ some 67 := by decide +kernel
  have hruns : ∀ run ∈ runs, run = (97, 122, 1, 65) ∨ 67 < run.2.2.2 ∨
      run.2.2.2 + (run.2.1 - run.1) < 67 := by
    decide +kernel
  unfold codes at h
  split at h
  · rename_i image hlookup
    exact absurd (by simp [h]) (hexpansions _ (mem_expansions_of_lookup hlookup))
  · obtain ⟨hfirst, hrest⟩ := List.cons.inj h
    refine ⟨?_, hrest.symm⟩
    cases hfind : runs.findSome? (Run.image? code) with
    | none =>
      rw [hfind] at hfirst
      exact Or.inl hfirst
    | some image =>
      obtain ⟨⟨first, last, step, start⟩, hrun, himage⟩ := List.exists_of_findSome?_eq_some hfind
      rw [hfind, Option.getD_some] at hfirst
      subst hfirst
      by_cases hcode : first ≤ code ∧ code ≤ last ∧ (code - first) % step = 0
      · simp only [Run.image?, if_pos hcode, Option.some.injEq] at himage
        rcases hruns _ hrun with heq | hclear
        · cases heq
          omega
        · dsimp only at hclear
          omega
      · simp [Run.image?, if_neg hcode] at himage

/-- Two texts become the refused name when they are capitalized. -/
theorem capitalize_eq_refusedName {s : String} :
    capitalize s = refusedName ↔ s = "config" ∨ s = "Config" := by
  constructor
  · intro h
    unfold capitalize at h
    split at h
    · exact absurd h (by decide)
    · rename_i c others hchars
      have h : ofChar c ++ others = ['C', 'o', 'n', 'f', 'i', 'g'] := by
        rw [← String.toList_ofList (l := ofChar c ++ others), h]
        decide
      cases hcodes : codes c.toNat with
      | nil => exact absurd hcodes (codes_ne_nil _)
      | cons first later =>
        rw [ofChar, hcodes, List.map_cons, List.cons_append] at h
        obtain ⟨hfirst, hothers⟩ := List.cons.inj h
        have hcode : first = 67 := by
          by_cases hvalid : first.isValidChar
          · have hvalue := congrArg Char.toNat hfirst
            rwa [Char.ofNat, dif_pos hvalid] at hvalue
          · rw [Char.ofNat, dif_neg hvalid] at hfirst
            exact absurd hfirst (by decide)
        subst hcode
        obtain ⟨hletter, rfl⟩ := code_of_codes_eq hcodes
        have hs : s = String.ofList (c :: others) := by rw [← hchars, String.ofList_toList]
        rw [hs, show others = ['o', 'n', 'f', 'i', 'g'] from hothers]
        rcases hletter with hcapital | hsmall
        · obtain rfl : c = 'C' := Char.toNat_inj.1 hcapital
          exact Or.inr rfl
        · obtain rfl : c = 'c' := Char.toNat_inj.1 hsmall
          exact Or.inl rfl
  · rintro (rfl | rfl) <;> decide

end Text.Upper

namespace Identifier

/-- The keys with the refused name as identifier. -/
def refusedKeys : List String :=
  ["config", "Config", "@config", "@Config"]

/-- **Four keys have the refused name as identifier.** -/
theorem ofKey_eq_refusedName {key : String} : ofKey key = refusedName ↔ key ∈ refusedKeys := by
  constructor
  · intro h
    unfold ofKey at h
    split at h
    · rename_i rest hchars
      have hkey : key = "@" ++ String.ofList rest := by
        rw [← String.toList_inj, hchars, String.toList_append, String.toList_ofList]
        simp
      rw [hkey]
      rcases Text.Upper.capitalize_eq_refusedName.1 h with heq | heq <;> rw [heq] <;> decide
    · rcases Text.Upper.capitalize_eq_refusedName.1 h with rfl | rfl <;> decide
  · intro h
    have hall : ∀ other ∈ refusedKeys, ofKey other = refusedName := by decide
    exact hall key h

/-! ## From identifiers to attributes -/

/-- The refused name ends in a `g`, so it is not reached by putting something else behind a name. -/
theorem append_ne_refusedName (base : String) {suffix : String} (hsuffix : suffix.toList ≠ [])
    (hletter : 'g' ∉ suffix.toList) : base ++ suffix ≠ refusedName := by
  intro h
  have hlast : suffix.toList.getLast? = some 'g' := by
    rw [← getLast?_append base hsuffix, h]
    decide
  exact hletter (List.mem_of_getLast? hlast)

theorem append_lowLine_ne_refusedName (base : String) : base ++ "_" ≠ refusedName :=
  append_ne_refusedName base (by decide) (by decide)

/-- Characters that are all kept are the same characters. -/
theorem eq_of_legalChars {cs legal : List Char} (h : legalChars cs = legal) (hline : '_' ∉ legal) :
    cs = legal := by
  have hkept : ∀ c ∈ cs, (if isAlphanumeric c || c = '_' then c else '_') = id c := by
    intro c hc
    split
    · rfl
    · rename_i hillegal
      refine absurd ?_ hline
      rw [← h]
      exact List.mem_map.2 ⟨c, hc, if_neg hillegal⟩
  rw [← h, legalChars, List.map_congr_left hkept, List.map_id]

/-- Only the refused name itself is made legal as the refused name. -/
theorem legal_eq_refusedName {identifier : String} :
    legal identifier = refusedName ↔ identifier = refusedName := by
  constructor
  · intro h
    unfold legal at h
    dsimp only at h
    split at h
    · exact absurd h (by decide)
    · split at h
      · exact absurd h (by decide)
      · rename_i c rest hchars
        split at h
        · have hstart := congrArg (fun name => name.toList.head?) h
          rw [String.toList_ofList] at hstart
          have hother : some 'F' ≠ refusedName.toList.head? := by decide
          exact absurd hstart hother
        · have hlegal : legalChars identifier.toList = refusedName.toList := by
            rw [hchars, ← h, String.toList_ofList]
          exact String.toList_inj.1 (eq_of_legalChars hlegal (by decide))
  · rintro rfl
    decide

/-- An identifier wants the refused name only if it is the refused name and no class has it. -/
theorem wanted_eq_refusedName {reserved : List String} {identifier : String} :
    wanted reserved identifier = refusedName ↔
      identifier = refusedName ∧ refusedName ∉ reserved := by
  have hplain : ¬ (refusedName ∈ keywords ∨ refusedName ∈ softKeywords) := by decide
  have hname : attributeName identifier = refusedName ↔ identifier = refusedName := by
    refine Iff.trans ?_ legal_eq_refusedName
    unfold attributeName
    by_cases hword : legal identifier ∈ keywords ∨ legal identifier ∈ softKeywords
    · rw [if_pos hword]
      refine iff_of_false (append_lowLine_ne_refusedName _) ?_
      intro heq
      rw [heq] at hword
      exact hplain hword
    · rw [if_neg hword]
  unfold wanted
  dsimp only
  split
  · rename_i hreserved
    refine iff_of_false (append_lowLine_ne_refusedName _) ?_
    rintro ⟨heq, hfree⟩
    exact hfree (hname.2 heq ▸ hreserved)
  · rename_i hfree
    rw [hname]
    constructor
    · intro heq
      refine ⟨heq, ?_⟩
      rwa [← hname.2 heq]
    · exact And.left

/-- No number is put behind a name to reach the refused name. -/
theorem numbered_ne_refusedName (base : String) (used : List String) (tries counter : Nat) :
    numbered base used tries counter ≠ refusedName := by
  have hdigits : ∀ n : Nat, base ++ toString n ≠ refusedName := by
    intro n
    refine append_ne_refusedName base (number_ne_nil n) fun hmem => ?_
    exact absurd (isDigit_of_mem_number hmem) (by decide)
  exact numbered_of (P := fun name => name ≠ refusedName) hdigits used tries counter

/-- **The refused name is among the attributes** exactly if it is one of the identifiers and no class
has it. -/
theorem mem_attributes_refusedName {reserved identifiers : List String} :
    refusedName ∈ attributes reserved identifiers ↔
      refusedName ∈ identifiers ∧ refusedName ∉ reserved := by
  -- The first identifier that wants the name gets it, because no earlier one did.
  have hafter : ∀ used, refusedName ∉ used →
      (refusedName ∈ attributesAfter reserved used identifiers ↔
        refusedName ∈ identifiers ∧ refusedName ∉ reserved) := by
    induction identifiers with
    | nil => simp [attributesAfter]
    | cons identifier rest ih =>
      intro used hused
      unfold attributesAfter
      by_cases hwanted : wanted reserved identifier = refusedName
      · obtain ⟨rfl, hfree⟩ := wanted_eq_refusedName.1 hwanted
        simp [hwanted, unused, hused, hfree]
      · have hother : unused (wanted reserved identifier) used ≠ refusedName := by
          unfold unused
          split
          · exact numbered_ne_refusedName _ _ _ _
          · exact hwanted
        rw [List.mem_cons, ih _ (by simp [hused, hother.symm]), List.mem_cons]
        rw [wanted_eq_refusedName] at hwanted
        constructor
        · rintro (heq | ⟨hmem, hfree⟩)
          · exact absurd heq.symm hother
          · exact ⟨Or.inr hmem, hfree⟩
        · rintro ⟨heq | hmem, hfree⟩
          · exact absurd ⟨heq.symm, hfree⟩ hwanted
          · exact Or.inr ⟨hmem, hfree⟩
  exact hafter [] List.not_mem_nil

end Identifier

end SampleTypes
