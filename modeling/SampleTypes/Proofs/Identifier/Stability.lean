import SampleTypes.Proofs.Identifier.Keys
import SampleTypes.Proofs.Identifier.Spelling
import SampleTypes.Proofs.Identifier.Words

/-!
# Names made of names

Both ways to make a name may be applied to a name that was made before.

A class name is in camel case, and camel case is left as it is; a low line behind a keyword is taken
away as a separator and put there again. So the class name of a class name is the name itself.

An identifier starts with a character in upper case already: what a letter becomes in upper case, be
it several characters, starts with one that is its own upper case. That rests on the table, in which
no image of a letter is a letter with an image. Only the marker stands in the way. One is dropped
each time, so a key with two markers in front loses the second one the next time; and nothing but
the marker becomes one in upper case.

## Main results

* `codes_of_codes`: the first character of an upper case is its own upper case.
* `ofKey_ofKey_iff`: which identifiers are stable.
* `className_className`: class names always are.
-/

namespace SampleTypes

namespace Text.Upper

/-! ## The table

Whether an image is a letter of the table again is decided for whole runs: the stretch in which a
run has its images does not meet another run, or their members alternate.
-/

/-- No image of the first run is a member of the second one. -/
def Run.Clear : Run → Run → Prop
  | (first, last, step, image), (otherFirst, otherLast, otherStep, _) =>
    image + (last - first) < otherFirst ∨ otherLast < image ∨
      ((step = 2 ∨ first = last) ∧ otherStep = 2 ∧ (image + otherFirst) % 2 = 1)

instance (run other : Run) : Decidable (Run.Clear run other) :=
  inferInstanceAs (Decidable (_ ∨ _ ∨ _))

theorem runs_clear : ∀ run ∈ runs, ∀ other ∈ runs, Run.Clear run other := by
  decide +kernel

theorem runs_clear_of_expansions : ∀ run ∈ runs, ∀ entry ∈ expansions,
    run.2.2.2 + (run.2.1 - run.1) < entry.1 ∨ entry.1 < run.2.2.2 := by
  decide +kernel

section

variable {code image first : Nat} {rest : List Nat} {run other : Run} {c d : Char}
  {others : List Char} {s : String}

/-- The image of a member of a run. -/
theorem Run.image?_eq_some (h : Run.image? code run = some image) :
    (run.1 ≤ code ∧ code ≤ run.2.1 ∧ (code - run.1) % run.2.2.1 = 0) ∧
      image = run.2.2.2 + (code - run.1) := by
  obtain ⟨first, last, step, start⟩ := run
  rw [Run.image?] at h
  split at h
  · rename_i hmember
    exact ⟨hmember, (Option.some.inj h).symm⟩
  · cases h

theorem Run.Clear.image?_eq_none (hclear : Run.Clear run other)
    (h : Run.image? code run = some image) : Run.image? image other = none := by
  obtain ⟨first, last, step, start⟩ := run
  obtain ⟨otherFirst, otherLast, otherStep, otherStart⟩ := other
  obtain ⟨⟨hfirst, hlast, hstep⟩, himage⟩ := Run.image?_eq_some h
  dsimp only at hfirst hlast hstep himage
  rw [Run.image?]
  refine if_neg ?_
  rintro ⟨hlow, hhigh, hmember⟩
  rcases hclear with habove | hbelow | ⟨heven, rfl, hodd⟩
  · omega
  · omega
  · have hparity : (code - first) % 2 = 0 := by
      rcases heven with rfl | rfl
      · exact hstep
      · omega
    omega

/-- The image of a letter has no image. -/
theorem codes_of_image? (hrun : run ∈ runs) (h : Run.image? code run = some image) :
    codes image = [image] := by
  obtain ⟨⟨hfirst, hlast, -⟩, himage⟩ := Run.image?_eq_some h
  have hlookup : expansions.lookup image = none := by
    rw [List.lookup_eq_none_iff]
    intro entry hentry
    have hclear := runs_clear_of_expansions run hrun entry hentry
    simp only [bne_iff_ne]
    omega
  have hfind : runs.findSome? (Run.image? image) = none :=
    List.findSome?_eq_none_iff.2 fun other hother =>
      (runs_clear run hrun other hother).image?_eq_none h
  rw [codes, hlookup, hfind]
  rfl

/-- **The upper case of a character starts with what is its own upper case**, and with the marker
for the marker only. -/
theorem codes_of_codes (h : codes code = first :: rest) :
    codes first = [first] ∧ (first = 64 → code = 64) := by
  have hexpansions : ∀ entry ∈ expansions, ∀ start ∈ entry.2.head?,
      codes start = [start] ∧ start ≠ 64 := by decide +kernel
  have hruns : ∀ run ∈ runs, 64 < run.2.2.2 := by decide +kernel
  have hcodes := h
  unfold codes at h
  split at h
  · rename_i image hlookup
    subst h
    obtain ⟨hfixed, hmarker⟩ := hexpansions _ (mem_expansions_of_lookup hlookup) first rfl
    exact ⟨hfixed, fun heq => absurd heq hmarker⟩
  · obtain ⟨hfirst, rfl⟩ := List.cons.inj h
    cases hfind : runs.findSome? (Run.image? code) with
    | none =>
      rw [hfind, Option.getD_none] at hfirst
      subst hfirst
      exact ⟨hcodes, id⟩
    | some image =>
      rw [hfind, Option.getD_some] at hfirst
      subst hfirst
      obtain ⟨run, hrun, himage⟩ := List.exists_of_findSome?_eq_some hfind
      refine ⟨codes_of_image? hrun himage, fun hmarker => ?_⟩
      have hstart := hruns run hrun
      have hvalue := (Run.image?_eq_some himage).2
      omega

/-! ## Characters and texts -/

/-- The upper case of a character is settled from its first character on. -/
theorem ofChar_of_ofChar (h : ofChar c = d :: others) : ofChar d = [d] ∧ (d = '@' → c = '@') := by
  cases hcodes : codes c.toNat with
  | nil => exact absurd hcodes (codes_ne_nil _)
  | cons first later =>
    rw [ofChar, hcodes, List.map_cons] at h
    obtain ⟨hd, -⟩ := List.cons.inj h
    obtain ⟨hfixed, hmarker⟩ := codes_of_codes hcodes
    by_cases hvalid : first.isValidChar
    · have hcode : d.toNat = first := by
        rw [← hd, Char.ofNat, dif_pos hvalid]
        rfl
      refine ⟨?_, fun hat => ?_⟩
      · rw [ofChar, hcode, hfixed, List.map_singleton, hd]
      · subst hat
        exact Char.toNat_inj.1 (hmarker hcode.symm)
    -- There is no such character, and what stands for it is settled as well.
    · rw [Char.ofNat, dif_neg hvalid] at hd
      subst hd
      exact ⟨by decide, fun hat => absurd hat (by decide)⟩

theorem toList_capitalize (h : s.toList = c :: others) :
    (capitalize s).toList = ofChar c ++ others := by
  unfold capitalize
  rw [h]
  exact String.toList_ofList

end

end Text.Upper

namespace Identifier

open Text.Upper (capitalize ofChar toList_capitalize ofChar_of_ofChar ofChar_ne_nil)

/-! ## Identifiers -/

/-- What remains of a key when one marker in front is dropped. -/
def withoutMarker : List Char → List Char
  | '@' :: rest => rest
  | cs => cs

section

variable {key : String} {rest : List Char} {c : Char}

theorem withoutMarker_of_ne (h : c ≠ '@') : withoutMarker (c :: rest) = c :: rest := by
  unfold withoutMarker
  split
  · rename_i heq
    exact absurd (List.cons.inj heq).1 h
  · rfl

theorem ofKey_eq (key : String) :
    ofKey key = capitalize (String.ofList (withoutMarker key.toList)) := by
  unfold ofKey
  split
  · rename_i rest h
    rw [h]
    rfl
  · rename_i h
    have hsame : withoutMarker key.toList = key.toList := by
      unfold withoutMarker
      split
      · rename_i rest heq
        exact absurd heq (h rest)
      · rfl
    rw [hsame, String.ofList_toList]

theorem ofKey_of_nil (h : withoutMarker key.toList = []) : ofKey key = "" := by
  rw [ofKey_eq, h]
  rfl

/-- The first character that remains goes to its upper case, the others stay. -/
theorem toList_ofKey (h : withoutMarker key.toList = c :: rest) :
    (ofKey key).toList = ofChar c ++ rest := by
  rw [ofKey_eq, h]
  exact toList_capitalize String.toList_ofList

/-- What starts without a marker is settled the first time. -/
theorem ofKey_ofKey_of_ne (h : withoutMarker key.toList = c :: rest) (hc : c ≠ '@') :
    ofKey (ofKey key) = ofKey key := by
  cases hupper : ofChar c with
  | nil => exact absurd hupper (ofChar_ne_nil c)
  | cons first more =>
    obtain ⟨hfixed, hmarker⟩ := ofChar_of_ofChar hupper
    have hfirst : first ≠ '@' := fun heq => hc (hmarker heq)
    have hkey : (ofKey key).toList = first :: (more ++ rest) := by
      rw [toList_ofKey h, hupper, List.cons_append]
    have hagain : withoutMarker (ofKey key).toList = first :: (more ++ rest) := by
      rw [hkey, withoutMarker_of_ne hfirst]
    rw [← String.toList_inj, toList_ofKey hagain, hfixed, hkey, List.singleton_append]

/-- A second marker is lost the second time. -/
theorem ofKey_ofKey_ne (h : withoutMarker key.toList = '@' :: rest) :
    ofKey (ofKey key) ≠ ofKey key := by
  have hkey : (ofKey key).toList = '@' :: rest := by
    rw [toList_ofKey h]
    rfl
  have hagain : withoutMarker (ofKey key).toList = rest := by
    rw [hkey]
    rfl
  intro hstable
  cases hrest : rest with
  | nil =>
    rw [ofKey_of_nil (hagain.trans hrest)] at hstable
    rw [← hstable] at hkey
    cases hkey
  | cons c others =>
    have hchars : ofChar c ++ others = '@' :: c :: others := by
      rw [← toList_ofKey (hagain.trans hrest), hstable, hkey, hrest]
    cases hupper : ofChar c with
    | nil => exact absurd hupper (ofChar_ne_nil c)
    | cons first more =>
      -- The upper case would start with the marker, and then be the marker alone.
      rw [hupper, List.cons_append] at hchars
      obtain ⟨rfl, hothers⟩ := List.cons.inj hchars
      obtain rfl := (ofChar_of_ofChar hupper).2 rfl
      obtain rfl : more = [] := (List.cons.inj hupper).2.symm
      exact absurd (congrArg List.length hothers) (by simp)

/-- **An identifier is stable** unless its key has two markers in front. -/
theorem ofKey_ofKey_iff (key : String) :
    ofKey (ofKey key) = ofKey key ↔ (withoutMarker key.toList).head? ≠ some '@' := by
  cases h : withoutMarker key.toList with
  | nil =>
    rw [ofKey_of_nil h]
    exact ⟨fun _ => nofun, fun _ => by decide⟩
  | cons c rest =>
    rw [List.head?_cons, Ne, Option.some.injEq]
    constructor
    · rintro hstable rfl
      exact ofKey_ofKey_ne h hstable
    · exact ofKey_ofKey_of_ne h

end

/-- **Which identifiers are stable, and which are empty.** Made of an identifier, an identifier is
the same exactly if what remains of the key behind one marker does not start with another; it is empty
for the empty key and the marker alone; and its first character stands in upper case, with all
characters of that. -/
theorem identifier_is_stable_iff (key : String) :
    (ofKey (ofKey key) = ofKey key ↔ (withoutMarker key.toList).head? ≠ some '@') ∧
      (ofKey key = "" ↔ key = "" ∨ key = "@") ∧
      ∀ c rest, withoutMarker key.toList = c :: rest → (ofKey key).toList = ofChar c ++ rest :=
  ⟨ofKey_ofKey_iff key, ofKey_eq_empty, fun _ _ => toList_ofKey⟩

example : ofKey "@ŉame" = "ʼName" ∧ ofKey "@@type" = "@type" := by decide

/-! ## Class names -/

section

variable {text other : String} {cs rest : List Char} {first : Char}

theorem upperAscii_upperAscii (c : Char) : upperAscii (upperAscii c) = upperAscii c := by
  by_cases hsmall : 'a' ≤ c ∧ c ≤ 'z'
  · have hlow : 97 ≤ c.toNat := hsmall.1
    have hhigh : c.toNat ≤ 122 := hsmall.2
    have hvalid : (c.toNat - 32).isValidChar := Or.inl (by omega)
    have hcode : (upperAscii c).toNat = c.toNat - 32 := by
      rw [upperAscii, if_pos hsmall, Char.ofNat, dif_pos hvalid]
      rfl
    have hcapital : ¬ ('a' ≤ upperAscii c ∧ upperAscii c ≤ 'z') := by
      rintro ⟨hlow', -⟩
      have hlow' : 97 ≤ (upperAscii c).toNat := hlow'
      omega
    rw [upperAscii, if_neg hcapital]
  · rw [upperAscii, upperAscii, if_neg hsmall, if_neg hsmall]

/-- The first character in camel case is a capital, or a digit. -/
theorem upperAscii_of_camel (h : camel true cs = first :: rest) : upperAscii first = first := by
  induction cs with
  | nil => cases h
  | cons c others ih =>
    rw [camel] at h
    split at h
    · rw [if_pos rfl] at h
      rw [← (List.cons.inj h).1, upperAscii_upperAscii]
    · exact ih h

/-- A word stays as it is. -/
theorem camel_of_letters (h : ∀ c ∈ cs, isAlphanumeric c = true) : camel false cs = cs := by
  induction cs with
  | nil => rfl
  | cons c others ih =>
    rw [List.forall_mem_cons] at h
    rw [camel, if_pos h.1, if_neg Bool.false_ne_true, ih h.2]

theorem camel_of_capital (h : ∀ c ∈ first :: rest, isAlphanumeric c = true)
    (hfirst : upperAscii first = first) : camel true (first :: rest) = first :: rest := by
  rw [List.forall_mem_cons] at h
  rw [camel, if_pos h.1, if_pos rfl, hfirst, camel_of_letters h.2]

/-- **Camel case is left as it is.** -/
theorem camel_camel (cs : List Char) : camel true (camel true cs) = camel true cs := by
  cases h : camel true cs with
  | nil => rfl
  | cons first rest =>
    refine camel_of_capital (fun c hc => ?_) (upperAscii_of_camel h)
    rw [← h] at hc
    exact isAlphanumeric_of_mem_camel hc

/-- A class name depends on the camel case only. -/
theorem className_congr (h : camel true text.toList = camel true other.toList) :
    className text = className other := by
  simp only [className, h]

/-- A stand-in with more letters and digits behind it is its own class name. -/
theorem className_standIn (h : ∀ c ∈ cs, isAlphanumeric c = true) :
    className ("Model" ++ String.ofList cs) = "Model" ++ String.ofList cs := by
  have hmodel : ∀ c ∈ "Model".toList, isAlphanumeric c = true := by decide
  have hkeywords : ∀ word ∈ keywords, word.toList.head? ≠ some 'M' := by decide
  have hchars : ("Model" ++ String.ofList cs).toList = 'M' :: ('o' :: 'd' :: 'e' :: 'l' :: cs) := by
    rw [String.toList_append, String.toList_ofList, String.toList_ofList]
    rfl
  have hcamel : camel true ("Model" ++ String.ofList cs).toList =
      'M' :: ('o' :: 'd' :: 'e' :: 'l' :: cs) := by
    rw [hchars]
    refine camel_of_capital (fun c hc => ?_) (by decide)
    rcases List.mem_append.1 (show c ∈ "Model".toList ++ cs from hc) with hc | hc
    · exact hmodel c hc
    · exact h c hc
  have hbase : String.ofList ('M' :: 'o' :: 'd' :: 'e' :: 'l' :: cs) =
      "Model" ++ String.ofList cs := by
    rw [← hchars, String.ofList_toList]
  have hfree : "Model" ++ String.ofList cs ∉ keywords := by
    intro hmem
    refine hkeywords _ hmem ?_
    rw [hchars]
    rfl
  rw [className, hcamel]
  dsimp only
  rw [hbase, if_neg (by decide), if_neg hfree]

/-- **Class names are stable.** -/
theorem className_className (name : String) : className (className name) = className name := by
  have hletters : ∀ c ∈ camel true name.toList, isAlphanumeric c = true :=
    fun _ => isAlphanumeric_of_mem_camel
  cases h : camel true name.toList with
  | nil =>
    have hname : className name = "Model" := by rw [className, h]
    rw [hname]
    decide
  | cons first rest =>
    by_cases hdigit : isDigit first = true
    · have hname : className name = "Model" ++ String.ofList (first :: rest) := by
        simp only [className, h, if_pos hdigit]
      rw [hname]
      exact className_standIn (h ▸ hletters)
    -- A low line behind a keyword is a separator, so the camel case is the same again.
    · refine className_congr ?_
      have hbase : camel true (String.ofList (first :: rest)).toList = camel true name.toList := by
        rw [String.toList_ofList, ← h, camel_camel]
      by_cases hkeyword : String.ofList (first :: rest) ∈ keywords
      · have hname : className name = String.ofList (first :: rest) ++ "_" := by
          simp only [className, h, if_neg hdigit, if_pos hkeyword]
        rw [hname, String.toList_append, ← hbase]
        exact camel_concat (by decide) true _
      · have hname : className name = String.ofList (first :: rest) := by
          simp only [className, h, if_neg hdigit, if_neg hkeyword]
        rw [hname, hbase]

end

end Identifier

end SampleTypes
