import Mathlib.Tactic.MkIffOfInductiveProp
import SampleTypes.Proofs.Command.Targets
import SampleTypes.Proofs.Identifier.Spelling
import SampleTypes.Proofs.Rendering.Repositories
import SampleTypes.Proofs.Source.ReservedWords

/-!
# Stems as names of modules

The generated file of a declared model goes by its stem, the class name in snake case, and whoever
uses the model imports the class from a module of this name. A stem looks like the name of a module:
it starts with a small letter, and small letters, digits and low lines come behind it.

That it is no keyword is another matter. A class name is kept from being one, but a keyword in small
letters is no class name anyway; it comes into being when the class name is put into small letters
afterwards. A stem without a low line comes from a class name in which no capital stands behind a
small letter or a digit, so the names in question are those with a few capitals in front.

## Main results

* `isStem_stem`: how stems look.
* `snakeCase_eq_iff`: which class names have a stem in small letters.
* `stem_mem_keywords_iff`: which models have a keyword for a stem.
* `importable_stems_iff`: when the entity types of declared models can be imported.
* `stem_of_class_is_keyword`: a model that cannot be imported.
-/

namespace SampleTypes

open Identifier (keywords className IsPlain upperAscii isAlphanumeric Spells)

namespace DeclaredModel

/-- An ASCII letter in lower case. -/
def isSmall (c : Char) : Bool :=
  'a' ≤ c && c ≤ 'z'

/-- A small letter, with small letters, digits and low lines behind it. -/
def IsStem (name : String) : Prop :=
  ∃ first others, name.toList = first :: others ∧ isSmall first = true ∧
    ∀ c ∈ others, isLowerOrDigit c = true ∨ c = '_'

/-- A word with its first letters in capitals. -/
def capitals (count : Nat) (word : List Char) : List Char :=
  (word.take count).map upperAscii ++ word.drop count

/-! ## Characters -/

/-- What a small letter is, and what its capital is. -/
@[mk_iff]
structure SmallFacts (c : Char) : Prop where
  low : isLowerOrDigit c = true
  notUpper : isUpper c = false
  notDigit : Identifier.isDigit c = false
  toLower : c.toLower = c
  capital : isUpper (upperAscii c) = true
  capital_notLow : isLowerOrDigit (upperAscii c) = false
  capital_notDigit : Identifier.isDigit (upperAscii c) = false
  capital_toLower : (upperAscii c).toLower = c

/-- What a letter or digit becomes in the other case, and where it may stand in an identifier. -/
@[mk_iff]
structure LetterFacts (c : Char) : Prop where
  upper : Identifier.isDigit (upperAscii c) = true ∨ isUpper (upperAscii c) = true
  lower : isLowerOrDigit c.toLower = true
  cases : isUpper c = true ∧ isSmall c.toLower = true ∧ upperAscii c.toLower = c ∨
    isUpper c = false ∧ c.toLower = c
  start : Identifier.isDigit c = false → Text.CharClass.isIdentifierStart c = true
  rest : Text.CharClass.isIdentifierRest c = true
  small : isSmall c = true → SmallFacts c

instance (c : Char) : Decidable (SmallFacts c) :=
  decidable_of_iff' _ (smallFacts_iff c)

instance (c : Char) : Decidable (LetterFacts c) :=
  decidable_of_iff' _ (letterFacts_iff c)

section

variable {cs word : List Char} {c : Char} {count : Nat} {m : DeclaredModel}

/-- All of this is decided once, in a table of ASCII. -/
theorem letterFacts (hc : isAlphanumeric c = true) : LetterFacts c := by
  have htable : ∀ code < 128, isAlphanumeric (Char.ofNat code) = true →
      LetterFacts (Char.ofNat code) := by decide +kernel
  have hcode : c.toNat < 128 := by
    have hranges := Identifier.isAlphanumeric_iff.1 hc
    omega
  exact Source.Token.forall_ascii (fun c => isAlphanumeric c = true → LetterFacts c) htable hcode hc

theorem isAlphanumeric_of_isSmall (hc : isSmall c = true) : isAlphanumeric c = true := by
  rw [isAlphanumeric, ← isSmall, hc]
  rfl

theorem smallFacts (hc : isSmall c = true) : SmallFacts c :=
  (letterFacts (isAlphanumeric_of_isSmall hc)).small hc

/-! ## How stems look -/

/-- In camel case the first word starts with a capital, or with a digit. -/
theorem head_camel {rest : List Char} (h : Identifier.camel true cs = c :: rest) :
    Identifier.isDigit c = true ∨ isUpper c = true := by
  induction cs with
  | nil => cases h
  | cons first others ih =>
    rw [Identifier.camel] at h
    by_cases hletter : isAlphanumeric first = true
    · rw [if_pos hletter, if_pos rfl] at h
      rw [← (List.cons.inj h).1]
      exact (letterFacts hletter).upper
    · rw [if_neg hletter] at h
      exact ih h

/-- **A class name starts with a capital.** -/
theorem head_className (name : String) :
    ∃ first others, (className name).toList = first :: others ∧ isUpper first = true := by
  have hmodel : isUpper 'M' = true := by decide
  unfold className
  split
  · exact ⟨_, _, rfl, hmodel⟩
  · rename_i c rest hchars
    dsimp only
    split
    · exact ⟨'M', _, String.toList_append, hmodel⟩
    · rename_i hdigit
      have hcapital : isUpper c = true := (head_camel hchars).resolve_left hdigit
      split
      · refine ⟨c, rest ++ ['_'], ?_, hcapital⟩
        rw [String.toList_append, String.toList_ofList]
        rfl
      · exact ⟨c, rest, String.toList_ofList, hcapital⟩

/-- What comes of the first character of a class name. -/
theorem snakeCase_cons (c : Char) (cs : List Char) :
    ∃ more, snakeCase (c :: cs) = c.toLower :: more := by
  cases cs with
  | nil => exact ⟨[], rfl⟩
  | cons next rest =>
    rw [snakeCase]
    split
    · exact ⟨_, rfl⟩
    · exact ⟨_, rfl⟩

/-- **Every stem looks like the name of a module.** -/
theorem isStem_stem (m : DeclaredModel) : IsStem m.stem := by
  obtain ⟨first, others, hchars, hcapital⟩ := head_className m.name
  obtain ⟨start, more, hplain, hletter, -, hrest⟩ := Identifier.isPlain_className m.name
  obtain ⟨rfl, rfl⟩ := List.cons.inj (hchars.symm.trans hplain)
  obtain ⟨tail, htail⟩ := snakeCase_cons first others
  have hstem : m.stem.toList = first.toLower :: tail := by
    rw [stem, String.toList_ofList, hchars, htail]
  have hsmall : isSmall first.toLower = true := by
    rcases (letterFacts hletter).cases with ⟨-, hsmall, -⟩ | ⟨hother, -⟩
    · exact hsmall
    · rw [hcapital] at hother
      cases hother
  refine ⟨_, tail, hstem, hsmall, fun c hc => ?_⟩
  have hmem : c ∈ snakeCase (first :: others) := htail ▸ List.mem_cons_of_mem _ hc
  rcases mem_snakeCase hmem with rfl | ⟨original, horiginal, rfl⟩
  · exact Or.inr rfl
  · rcases List.mem_cons.1 horiginal with rfl | horiginal
    · exact Or.inl (letterFacts hletter).lower
    · rcases hrest original horiginal with halpha | rfl
      · exact Or.inl (letterFacts halpha).lower
      · exact Or.inr (by decide)

/-! ## Stems in small letters -/

theorem capitals_zero (word : List Char) : capitals 0 word = word := rfl

theorem capitals_succ (count : Nat) (c : Char) (word : List Char) :
    capitals (count + 1) (c :: word) = upperAscii c :: capitals count word := rfl

/-- Small letters are their own snake case, and so is a word of them with its first letters in
capitals, but for these. -/
theorem snakeCase_capitals (hword : ∀ c ∈ word, isSmall c = true) (count : Nat) :
    snakeCase (capitals count word) = word := by
  induction word generalizing count with
  | nil =>
    cases count <;> rfl
  | cons c rest ih =>
    obtain ⟨hc, hrest⟩ := List.forall_mem_cons.1 hword
    have hfacts := smallFacts hc
    cases count with
    | zero =>
      have hinner := ih hrest 0
      rw [capitals_zero] at hinner ⊢
      cases rest with
      | nil => rw [snakeCase, hfacts.toLower]
      | cons next more =>
        have hnext := (smallFacts (hrest next List.mem_cons_self)).notUpper
        rw [snakeCase, hnext, Bool.and_false, if_neg Bool.false_ne_true, hinner, hfacts.toLower]
    | succ count =>
      have hinner := ih hrest count
      rw [capitals_succ]
      cases hmore : capitals count rest with
      | nil =>
        rw [hmore] at hinner
        rw [snakeCase, hfacts.capital_toLower, ← hinner]
        rfl
      | cons next more =>
        rw [snakeCase, hfacts.capital_notLow, Bool.false_and, if_neg Bool.false_ne_true, ← hmore,
          hinner, hfacts.capital_toLower]

/-- Where no low line comes in, no capital stands behind a small letter or a digit. -/
theorem snakeCase_cons_of_clear (h : '_' ∉ snakeCase (c :: cs)) :
    snakeCase (c :: cs) = c.toLower :: snakeCase cs ∧
      (isLowerOrDigit c = true → ∀ next ∈ cs.head?, isUpper next = false) := by
  cases cs with
  | nil => exact ⟨rfl, nofun⟩
  | cons next rest =>
    rw [snakeCase] at h ⊢
    by_cases hturn : (isLowerOrDigit c && isUpper next) = true
    · rw [if_pos hturn] at h
      exact absurd (List.mem_cons_of_mem _ List.mem_cons_self) h
    · rw [if_neg hturn]
      refine ⟨rfl, fun hlow other hother => ?_⟩
      cases hother
      rwa [hlow, Bool.true_and, Bool.not_eq_true] at hturn

/-- **Which class names have a stem in small letters**: those with a few capitals in front. -/
theorem snakeCase_eq_iff (hcs : ∀ c ∈ cs, isAlphanumeric c = true ∨ c = '_')
    (hword : ∀ c ∈ word, isSmall c = true) :
    snakeCase cs = word ↔ ∃ count ≤ word.length, cs = capitals count word := by
  refine ⟨fun h => ?_, fun ⟨count, _, h⟩ => h ▸ snakeCase_capitals hword count⟩
  induction cs generalizing word with
  | nil =>
    subst h
    exact ⟨0, Nat.le_refl _, rfl⟩
  | cons c rest ih =>
    obtain ⟨hc, hrest⟩ := List.forall_mem_cons.1 hcs
    have hclear : '_' ∉ snakeCase (c :: rest) :=
      fun hmem => absurd (hword '_' (h ▸ hmem)) (by decide)
    obtain ⟨hcons, hturn⟩ := snakeCase_cons_of_clear hclear
    rw [hcons] at h
    subst h
    obtain ⟨hsmall, hmore⟩ := List.forall_mem_cons.1 hword
    obtain ⟨count, hcount, hcapitals⟩ := ih hrest hmore rfl
    have halpha : isAlphanumeric c = true := by
      rcases hc with halpha | rfl
      · exact halpha
      · exact absurd hsmall (by decide)
    rcases (letterFacts halpha).cases with ⟨-, -, hback⟩ | ⟨-, hsame⟩
    · refine ⟨count + 1, Nat.succ_le_succ hcount, ?_⟩
      rw [capitals_succ, hback, ← hcapitals]
    -- Behind a small letter there is no capital, so none is left.
    · have hnone : rest = snakeCase rest := by
        have hlow : isLowerOrDigit c = true := hsame ▸ (letterFacts halpha).lower
        cases count with
        | zero => exact hcapitals
        | succ count =>
          cases hsnake : snakeCase rest with
          | nil =>
            rw [hsnake] at hcapitals
            exact hcapitals
          | cons d ds =>
            rw [hsnake] at hcapitals hmore
            have hupper := (smallFacts (hmore d List.mem_cons_self)).capital
            have hnot := hturn hlow (upperAscii d) (by rw [hcapitals, capitals_succ]; rfl)
            rw [hupper] at hnot
            cases hnot
      refine ⟨0, Nat.zero_le _, ?_⟩
      rw [capitals_zero, hsame, ← hnone]

/-! ## Keywords -/

/-- The keywords that are put in small letters. -/
def smallKeywords : List String :=
  keywords.filter fun word => word.toList.all isSmall

/-- A stem that is a keyword is one in small letters. -/
theorem mem_smallKeywords {name : String} (h : IsStem name) :
    name ∈ keywords ↔ name ∈ smallKeywords := by
  have hall : ∀ word ∈ keywords, word.toList.head?.any isSmall = true → word ∈ smallKeywords := by
    decide +kernel
  refine ⟨fun hname => hall name hname ?_, fun hname => (List.mem_filter.1 hname).1⟩
  obtain ⟨first, others, hchars, hsmall, -⟩ := h
  rw [hchars]
  exact hsmall

theorem isSmall_of_mem_smallKeywords {name : String} (h : name ∈ smallKeywords) :
    ∀ c ∈ name.toList, isSmall c = true :=
  List.all_eq_true.1 (List.mem_filter.1 h).2

theorem isAlphanumeric_of_mem_capitals (hword : ∀ c ∈ word, isSmall c = true)
    (h : c ∈ capitals count word) : isAlphanumeric c = true := by
  rcases List.mem_append.1 h with htaken | hleft
  · obtain ⟨small, hsmall, rfl⟩ := List.mem_map.1 htaken
    have hletter := isAlphanumeric_of_isSmall (hword small (List.mem_of_mem_take hsmall))
    exact Identifier.isAlphanumeric_upperAscii hletter
  · exact isAlphanumeric_of_isSmall (hword c (List.mem_of_mem_drop hleft))

/-- A keyword with capitals in front is the class name of exactly what spells it: it is no keyword,
because none with a capital in front becomes one in small letters. -/
theorem className_capitals_iff {name : String} (h : name ∈ smallKeywords)
    (hcount : count < name.toList.length) (text : String) :
    className text = String.ofList (capitals (count + 1) name.toList) ↔
      Spells text (String.ofList (capitals (count + 1) name.toList)) := by
  have htable : ∀ word ∈ keywords, word.toList.head? ≠ some 'm' ∧
      (word.toList.head?.any isUpper = true → String.ofList (snakeCase word.toList) ∉ keywords) := by
    decide +kernel
  have hsmall := isSmall_of_mem_smallKeywords h
  have hname : name ∈ keywords := (List.mem_filter.1 h).1
  have hletters : ∀ c ∈ capitals (count + 1) name.toList, isAlphanumeric c = true :=
    fun c => isAlphanumeric_of_mem_capitals hsmall
  have hback := snakeCase_capitals hsmall (count + 1)
  have hchars : (String.ofList (capitals (count + 1) name.toList)).toList =
      capitals (count + 1) name.toList := String.toList_ofList
  obtain ⟨first, others, hfirst⟩ := List.exists_cons_of_length_pos (Nat.zero_lt_of_lt hcount)
  have hfacts : SmallFacts first := smallFacts (hsmall first (hfirst ▸ List.mem_cons_self))
  have hcapitals : capitals (count + 1) name.toList =
      upperAscii first :: capitals count others := by
    rw [hfirst, capitals_succ]
  apply Identifier.className_eq_iff
  · rintro ⟨rest, hrest⟩
    rw [hchars, hcapitals] at hrest
    have hhead : 'M' = upperAscii first := (List.cons.inj hrest).1
    have hm : 'm' = first := (congrArg Char.toLower hhead).trans hfacts.capital_toLower
    refine (htable name hname).1 ?_
    rw [hfirst, hm]
    rfl
  · intro hkeyword
    have hnot := (htable _ hkeyword).2
    rw [hchars, hback, String.ofList_toList, hcapitals] at hnot
    exact hnot hfacts.capital hname
  · intro hlast
    rw [hchars] at hlast
    exact absurd (hletters '_' (List.mem_of_getLast? hlast)) (by decide)
  · rw [hchars, hcapitals]
    exact hfacts.capital_notDigit
  · rw [Ne, ← String.toList_eq_nil_iff, hchars, hcapitals]
    exact List.cons_ne_nil _ _

/-- **Which models have a keyword for a stem**: those whose name spells the keyword with one capital
in front, or with more. -/
theorem stem_mem_keywords_iff (m : DeclaredModel) :
    m.stem ∈ keywords ↔ ∃ word ∈ smallKeywords, ∃ count < word.toList.length,
      Spells m.name (String.ofList (capitals (count + 1) word.toList)) := by
  obtain ⟨first, others, hchars, hcapital⟩ := head_className m.name
  have hplain : ∀ c ∈ (className m.name).toList, isAlphanumeric c = true ∨ c = '_' := by
    obtain ⟨start, rest, hplain, hletter, -, hrest⟩ := Identifier.isPlain_className m.name
    rw [hplain, List.forall_mem_cons]
    exact ⟨Or.inl hletter, hrest⟩
  have hstem : ∀ word : String, m.stem = word ↔
      snakeCase (className m.name).toList = word.toList := by
    intro word
    rw [← String.toList_inj, stem, String.toList_ofList]
  rw [mem_smallKeywords (isStem_stem m)]
  constructor
  · intro hkeyword
    have hsmall := isSmall_of_mem_smallKeywords hkeyword
    obtain ⟨count, hcount, hname⟩ := (snakeCase_eq_iff hplain hsmall).1 ((hstem m.stem).1 rfl)
    cases count with
    | zero =>
      rw [hchars, capitals_zero] at hname
      have hfirst := (smallFacts (hsmall first (hname ▸ List.mem_cons_self))).notUpper
      rw [hcapital] at hfirst
      cases hfirst
    | succ count =>
      refine ⟨m.stem, hkeyword, count, hcount, (className_capitals_iff hkeyword hcount _).1 ?_⟩
      rw [← hname, String.ofList_toList]
  · rintro ⟨word, hword, count, hcount, hspells⟩
    have hname := (className_capitals_iff hword hcount _).2 hspells
    have hchars : (className m.name).toList = capitals (count + 1) word.toList := by
      rw [hname, String.toList_ofList]
    have hsnake := (snakeCase_eq_iff hplain (isSmall_of_mem_smallKeywords hword)).2
      ⟨count + 1, hcount, hchars⟩
    rwa [(hstem word).2 hsnake]

/-! ## Importing the classes -/

theorem IsStem.isPlain {name : String} (h : IsStem name) : IsPlain name := by
  obtain ⟨first, others, hchars, hsmall, hothers⟩ := h
  refine ⟨first, others, hchars, isAlphanumeric_of_isSmall hsmall, (smallFacts hsmall).notDigit,
    fun c hc => (hothers c hc).imp_left fun hlow => ?_⟩
  rw [isLowerOrDigit, Bool.or_eq_true] at hlow
  rw [isAlphanumeric, Bool.or_eq_true, Bool.or_eq_true]
  exact hlow.imp_left Or.inl

/-- A plain name is an identifier. -/
theorem isIdentifier_of_isPlain {name : String} (h : IsPlain name) :
    Text.CharClass.isIdentifier name = true := by
  obtain ⟨first, others, hchars, hletter, hdigit, hothers⟩ := h
  have hrest : ∀ c ∈ others, Text.CharClass.isIdentifierRest c = true := by
    intro c hc
    rcases hothers c hc with halpha | rfl
    · exact (letterFacts halpha).rest
    · decide
  rw [Text.CharClass.isIdentifier, hchars]
  dsimp only
  rw [(letterFacts hletter).start hdigit, List.all_eq_true.2 hrest, Bool.true_and]

/-- **A class name is no keyword.** -/
theorem className_notMem_keywords (name : String) : className name ∉ keywords := by
  have hends : ∀ word ∈ keywords, word.toList.getLast? ≠ some '_' := by decide
  have hmodel : ∀ word ∈ keywords, word.toList.head? ≠ some 'M' := by decide
  unfold className
  split
  · decide
  · dsimp only
    split
    · intro hmem
      refine hmodel _ hmem ?_
      rw [String.toList_append]
      rfl
    · split
      · intro hmem
        refine hends _ hmem ?_
        rw [String.toList_append, List.getLast?_append]
        rfl
      · assumption

/-- The class of a model without a module, whose stem is no keyword, can be imported. -/
theorem legal_entityType (hmodule : m.moduleName = "") (h : m.stem ∉ keywords) :
    m.entityType.Legal where
  name := ⟨isIdentifier_of_isPlain (Identifier.isPlain_className m.name),
    className_notMem_keywords m.name⟩
  moduleName := by
    refine Or.inr ⟨m.stem, [], ?_, ?_⟩
    · rw [entityType, if_pos hmodule]
      simp
    · rw [List.forall_mem_singleton]
      exact ⟨isIdentifier_of_isPlain (isStem_stem m).isPlain, h⟩

end

end DeclaredModel

namespace Scaffold

open DeclaredModel (entityType stem)

variable {models : List DeclaredModel} {m : DeclaredModel}

/-- The classes of a module that is called by a keyword cannot be imported. -/
theorem check_of_keyword {i : Import} (hi : i ∈ importsOf (models.map entityType))
    (hkeyword : i.source ∈ keywords) : i.check = .error .brokenStatement := by
  have hlisting := listing_importsOf (models.map entityType)
  have hclasses : ∀ name ∈ i.names, Source.Token.ReadsAsName name := by
    intro name hname
    obtain ⟨other, -, hother⟩ := List.mem_map.1 ((hlisting.mem_names i hi name).1 hname)
    have hclass : className other.name = name := congrArg EntityType.name hother
    rw [← hclass]
    exact Source.Token.readsAsName_of_isWord
      (Identifier.isWord_of_isPlain (Identifier.isPlain_className other.name))
  obtain ⟨-, t, ht, hsource⟩ := (hlisting.mem_sources i.source).1 (List.mem_map_of_mem hi)
  have hsome : t.name ∈ i.names := by
    rw [hlisting.mem_names i hi, ← hsource]
    exact ht
  obtain ⟨name, names, hlist⟩ := List.exists_cons_of_ne_nil (List.ne_nil_of_mem hsome)
  rw [hlist, List.forall_mem_cons] at hclasses
  have hparts : ∀ part ∈ ([] : List String), Source.Token.ReadsAsName part := nofun
  obtain ⟨expected, hrefused⟩ :=
    Source.checkStatement_reserved hkeyword hparts hclasses.1 hclasses.2
  have htext : i.text = "from " ++ ".".intercalate [i.source] ++ " import " ++
      ", ".intercalate (name :: names) := by
    rw [Import.text, hlist, String.intercalate_singleton]
  rw [Import.check, htext, hrefused]

/-- **When declared models can be imported**: a module for models without modules is written if
and only if no stem is a keyword. -/
theorem render_models_iff (hmodule : ∀ m ∈ models, m.moduleName = "") :
    (∃ text, render (models.map entityType) = .ok text) ↔ ∀ m ∈ models, m.stem ∉ keywords := by
  constructor
  · rintro ⟨text, hrender⟩ m hm hkeyword
    obtain ⟨_, hcheck, -⟩ := Loops.bind_eq_ok.1 hrender
    obtain ⟨_, himports, -⟩ := Loops.bind_eq_ok.1 hcheck
    have hsource : m.stem ∈ (importsOf (models.map entityType)).map Import.source := by
      refine ((listing_importsOf _).mem_sources m.stem).2
        ⟨fun hempty => ?_, m.entityType, List.mem_map_of_mem hm, if_pos (hmodule m hm)⟩
      rw [hempty] at hkeyword
      exact absurd hkeyword (by decide)
    obtain ⟨i, hi, hstem⟩ := List.mem_map.1 hsource
    have hfail := check_of_keyword hi (hstem ▸ hkeyword)
    rw [Loops.forM_eq_ok_iff.1 himports i hi] at hfail
    cases hfail
  · intro hstems
    refine ⟨_, render_of_legal fun t ht => ?_⟩
    obtain ⟨m, hm, rfl⟩ := List.mem_map.1 ht
    exact DeclaredModel.legal_entityType (hmodule m hm) (hstems m hm)

/-- **Stems as names of modules.** Every stem looks like the name of a module. It is a keyword for
exactly the models whose name spells a keyword of small letters with one capital in front, or with
more. And for models that say nothing of a module, so that their classes are imported from stems,
the module of their repositories is written if and only if no stem is a keyword. -/
theorem importable_stems_iff (models : List DeclaredModel) :
    (∀ m ∈ models, DeclaredModel.IsStem m.stem ∧
      (m.stem ∈ keywords ↔ ∃ word ∈ DeclaredModel.smallKeywords, ∃ count < word.toList.length,
        Spells m.name (String.ofList (DeclaredModel.capitals (count + 1) word.toList)))) ∧
    ((∀ m ∈ models, m.moduleName = "") →
      ((∃ text, render (models.map entityType) = .ok text) ↔ ∀ m ∈ models, m.stem ∉ keywords)) :=
  ⟨fun m _ => ⟨DeclaredModel.isStem_stem m, DeclaredModel.stem_mem_keywords_iff m⟩,
    render_models_iff⟩

/-- A model that is called like a keyword, and says nothing of a module. -/
def classModel : DeclaredModel := { name := "class", moduleName := "", text := "{}" }

theorem importable_stems_iff_class :
    (∀ m ∈ [classModel], m.moduleName = "") ∧ classModel.stem ∈ keywords ∧
      ¬ ∃ text, render ([classModel].map entityType) = .ok text := by
  have hmodule : ∀ m ∈ [classModel], m.moduleName = "" := by decide
  obtain ⟨hstems, hrender⟩ := importable_stems_iff [classModel]
  have hkeyword : classModel.stem ∈ keywords :=
    (hstems classModel List.mem_cons_self).2.2 ⟨"class", by decide, 0, by decide, by decide⟩
  exact ⟨hmodule, hkeyword,
    fun hwritten => (hrender hmodule).1 hwritten classModel List.mem_cons_self hkeyword⟩

/-- The model is accepted. Its stem is a keyword, and the import of its class is no statement. -/
theorem stem_of_class_is_keyword :
    DeclaredModel.ofConfiguration {} (.ofText ".")
        [("models", .list [.table [("name", .text "class"), ("json", .text "{}")]])] =
          .ok [classModel] ∧
      classModel.stem = "class" ∧ classModel.stem ∈ keywords ∧
      importsOf [classModel.entityType] = [{ source := "class", names := ["Class"] }] ∧
      ∃ expected, Source.checkStatement "from class import Class" =
        .error (.noReading (.unexpected expected)) := by
  have hclass : Source.Token.ReadsAsName "Class" :=
    Source.Token.readsAsName_of_isWord (by decide)
  have hword : "class" ∈ Source.reservedWords := by decide
  have hnone : ∀ text ∈ ([] : List String), Source.Token.ReadsAsName text := nofun
  obtain ⟨expected, hrefused⟩ := Source.checkStatement_reserved hword hnone hclass hnone
  exact ⟨by rfl, by decide, by decide, by decide +kernel, expected, hrefused⟩

end Scaffold

end SampleTypes
