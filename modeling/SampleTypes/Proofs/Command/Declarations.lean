import Mathlib.Data.List.Forall2
import Mathlib.Data.List.TakeWhile
import SampleTypes.Declaration
import SampleTypes.Proofs.Loops

/-!
# Which declarations are read

What an entry of the declared models has to say is stated apart from how it is read: a name that
is not blank, perhaps a module, and one document, inline or in a sample file. An entry that does not
say all this is refused for the first of a few reasons, and for each entry there is either a model or
a reason.

So a list of declarations is read as a whole, one model for each entry in order, or the first entry
that is refused decides what is told; what stands behind it plays no part.

## Main results

* `trim_eq_empty`: the names that are blank.
* `ofEntry_eq_ok`, `ofEntry_eq_error`: one entry.
* `ofEntries_eq_ok`, `ofEntries_eq_error`: the entries of a list.
* `declarations_are_read_all_or_none`: the declared models of a configuration.
-/

namespace SampleTypes

open Files (FileSystem Path)

/-! ## Blank texts -/

namespace Text.Blank

variable {p : Char → Bool} {cs : List Char} {c : Char}

theorem trimBoth_eq_nil : trimBoth p cs = [] ↔ ∀ c ∈ cs, p c = true := by
  rw [trimBoth, List.reverse_eq_nil_iff, List.dropWhile_eq_nil_iff]
  simp only [List.mem_reverse]
  constructor
  · intro h c hc
    rw [← List.takeWhile_append_dropWhile (p := p) (l := cs), List.mem_append] at hc
    rcases hc with hc | hc
    · exact List.mem_takeWhile_imp hc
    · exact h c hc
  · intro h c hc
    exact h c ((List.dropWhile_sublist p).subset hc)

/-- A text has a character that is not blank. -/
def HasText (s : String) : Prop :=
  ∃ c ∈ s.toList, isBlank c = false

/-- **Nothing is left of a text** exactly if it has blank characters only. -/
theorem trim_eq_empty {s : String} : trim s = "" ↔ ¬ HasText s := by
  rw [trim, String.ofList_eq_empty_iff, trimBoth_eq_nil]
  simp [HasText]

end Text.Blank

/-! ## Samples -/

/-- The text of a sample file, with what is told if it cannot be read. -/
def sampleText (fs : FileSystem) (path : Path) : Except Fault String :=
  match fs.readText path with
  | .ok text => .ok text
  | .error .nullInPath => .error (.file .nullInPath)
  | .error cause => .error (.unreadableSample path.text cause)

namespace DeclaredModel

open Text.Blank (HasText trim trim_eq_empty)

/-! ## What an entry says -/

/-- An entry says a text under a key. -/
def Says (entry : Section) (key text : String) : Prop :=
  Assoc.get? key entry = some (.text text)

/-- An entry has a name. -/
def IsNamed (entry : Section) : Prop :=
  ∃ name, Says entry "name" name ∧ HasText name

/-- The module that an entry puts its model in, which is nothing if it says nothing of it. -/
inductive InModule (entry : Section) : String → Prop where
  | unsaid (h : Assoc.get? "module" entry = none) : InModule entry ""
  | said {moduleName : String} (h : Says entry "module" moduleName) : InModule entry moduleName

/-- The document of an entry: a text that it holds itself, or that of the sample file that it names.
It says one of both. With the text goes the path where it was found. -/
inductive HasDocument (fs : FileSystem) (root : Path) (entry : Section) :
    (text source : String) → Prop where
  | inline {text : String} (hjson : Says entry "json" text)
    (halone : ∀ sample, ¬ Says entry "sample" sample) : HasDocument fs root entry text ""
  | sample {sample text : String} (hsample : Says entry "sample" sample) (hsome : sample ≠ "")
    (halone : ∀ inline, ¬ Says entry "json" inline)
    (hread : fs.readText (samplePath root sample) = .ok text) :
    HasDocument fs root entry text (samplePath root sample).text

/-- An entry declares a model. -/
inductive Declares (fs : FileSystem) (root : Path) : Setting → DeclaredModel → Prop where
  | intro {entry : Section} {name moduleName text source : String}
    (hname : Says entry "name" name) (hsome : HasText name) (hmodule : InModule entry moduleName)
    (hdocument : HasDocument fs root entry text source) :
    Declares fs root (.table entry)
      { name := trim name, moduleName := moduleName, text := text, source := source }

/-- Why the entry at a place of the list declares no model, with what is told about it. -/
inductive Refused (fs : FileSystem) (root : Path) (index : Nat) : Setting → Fault → Prop where
  | notATable {setting : Setting} (h : ∀ entry, setting ≠ .table entry) :
    Refused fs root index setting (.badDeclaration (.notATable index))
  | unnamed {entry : Section} (hname : ¬ IsNamed entry) :
    Refused fs root index (.table entry) (.badDeclaration (.unnamed index))
  | moduleNotText {entry : Section} (hname : IsNamed entry)
    (hmodule : ∀ moduleName, ¬ InModule entry moduleName) :
    Refused fs root index (.table entry) (.badDeclaration (.moduleNotText index))
  | twoSources {entry : Section} {moduleName inline sample : String} (hname : IsNamed entry)
    (hmodule : InModule entry moduleName) (hjson : Says entry "json" inline)
    (hsample : Says entry "sample" sample) :
    Refused fs root index (.table entry) (.badDeclaration (.twoSources index))
  | noSource {entry : Section} {moduleName : String} (hname : IsNamed entry)
    (hmodule : InModule entry moduleName) (hjson : ∀ inline, ¬ Says entry "json" inline)
    (hsample : ∀ sample, Says entry "sample" sample → sample = "") :
    Refused fs root index (.table entry) (.badDeclaration (.noSource index))
  | unreadable {entry : Section} {moduleName sample : String} {cause : Fault}
    (hname : IsNamed entry) (hmodule : InModule entry moduleName)
    (hjson : ∀ inline, ¬ Says entry "json" inline) (hsample : Says entry "sample" sample)
    (hsome : sample ≠ "") (hread : sampleText fs (samplePath root sample) = .error cause) :
    Refused fs root index (.table entry) cause

/-- The model of an entry with a sample, with the text of the sample. -/
def ofSample (path : Path) (name moduleName text : String) : DeclaredModel :=
  { name := Text.Blank.trim name, moduleName := moduleName, text := text, source := path.text }

section

variable {fs : FileSystem} {root : Path} {index : Nat} {entry : Section} {setting : Setting}
  {entries : List Setting} {name moduleName text : String} {m : DeclaredModel}
  {models : List DeclaredModel} {cause : Fault}

theorem Says.unique {key other : String} (h : Says entry key text) (h' : Says entry key other) :
    text = other := by
  have heq := Option.some.inj (h.symm.trans h')
  cases heq
  rfl

/-! ## One entry -/

theorem sampleText_eq_ok {path : Path} :
    sampleText fs path = .ok text ↔ fs.readText path = .ok text := by
  unfold sampleText
  cases fs.readText path with
  | ok other => simp
  | error cause => cases cause <;> simp

theorem ofParts_inline (hjson : Says entry "json" text)
    (halone : ∀ sample, ¬ Says entry "sample" sample) (index : Nat) (name moduleName : String) :
    ofParts fs root index entry name moduleName =
      .ok { name := trim name, moduleName := moduleName, text := text } := by
  unfold ofParts
  split
  · rename_i hsample
    exact absurd hsample (halone _)
  · rename_i hinline _
    obtain rfl := hjson.unique hinline
    rfl
  · rename_i hinline
    exact absurd hjson (hinline _)
  · rename_i hinline _ _
    exact absurd hjson (hinline _)

theorem ofParts_twoSources {inline sample : String} (hjson : Says entry "json" inline)
    (hsample : Says entry "sample" sample) (index : Nat) (name moduleName : String) :
    ofParts fs root index entry name moduleName = .error (.badDeclaration (.twoSources index)) := by
  rw [Says] at hjson hsample
  simp only [ofParts, hjson, hsample]

theorem ofParts_sample {sample : String} (hjson : ∀ inline, ¬ Says entry "json" inline)
    (hsample : Says entry "sample" sample) (hsome : sample ≠ "") (index : Nat)
    (name moduleName : String) :
    ofParts fs root index entry name moduleName =
      (sampleText fs (samplePath root sample)).map
        (ofSample (samplePath root sample) name moduleName) := by
  unfold ofParts sampleText
  split
  · rename_i hinline _
    exact absurd hinline (hjson _)
  · rename_i hinline _
    exact absurd hinline (hjson _)
  · rename_i heq _
    obtain rfl := hsample.unique heq
    dsimp only
    rw [if_neg hsome]
    cases fs.readText (samplePath root sample) with
    | ok text => rfl
    | error cause => cases cause <;> rfl
  · rename_i hnone _
    exact absurd hsample (hnone _)

theorem ofParts_noSource (hjson : ∀ inline, ¬ Says entry "json" inline)
    (hsample : ∀ sample, Says entry "sample" sample → sample = "") (index : Nat)
    (name moduleName : String) :
    ofParts fs root index entry name moduleName = .error (.badDeclaration (.noSource index)) := by
  unfold ofParts
  split
  · rename_i hinline _
    exact absurd hinline (hjson _)
  · rename_i hinline _
    exact absurd hinline (hjson _)
  · rename_i heq _
    dsimp only
    rw [if_pos (hsample _ heq)]
  · rfl

/-- An entry with a name and a module is read by its parts. -/
theorem ofEntry_of_inModule (hname : Says entry "name" name) (hsome : HasText name)
    (hmodule : InModule entry moduleName) (index : Nat) :
    ofEntry fs root index (.table entry) = ofParts fs root index entry name moduleName := by
  have hblank : trim name ≠ "" := fun hempty => trim_eq_empty.1 hempty hsome
  rw [Says] at hname
  cases hmodule with
  | unsaid hmodule => simp only [ofEntry, hname, if_neg hblank, hmodule]
  | said hmodule =>
    rw [Says] at hmodule
    simp only [ofEntry, hname, if_neg hblank, hmodule]

theorem ofEntry_of_declares (h : Declares fs root setting m) (index : Nat) :
    ofEntry fs root index setting = .ok m := by
  cases h with
  | intro hname hsome hmodule hdocument =>
    rw [ofEntry_of_inModule hname hsome hmodule]
    cases hdocument with
    | inline hjson halone => exact ofParts_inline hjson halone _ _ _
    | sample hsample hfilled halone hread =>
      rw [ofParts_sample halone hsample hfilled, sampleText_eq_ok.2 hread]
      rfl

theorem ofEntry_of_refused (h : Refused fs root index setting cause) :
    ofEntry fs root index setting = .error cause := by
  cases h with
  | notATable h =>
    unfold ofEntry
    split
    · exact absurd rfl (h _)
    · rfl
  | unnamed hname =>
    unfold ofEntry
    dsimp only
    split
    · rename_i name hsays
      rw [if_pos (trim_eq_empty.2 fun hsome => hname ⟨name, hsays, hsome⟩)]
    · rfl
  | moduleNotText hname hmodule =>
    obtain ⟨name, hsays, hsome⟩ := hname
    have hblank : trim name ≠ "" := fun hempty => trim_eq_empty.1 hempty hsome
    rw [Says] at hsays
    simp only [ofEntry, hsays, if_neg hblank]
    split
    · rename_i hunsaid
      exact absurd (.unsaid hunsaid) (hmodule _)
    · rename_i hsaid
      exact absurd (.said hsaid) (hmodule _)
    · rfl
  | twoSources hname hmodule hjson hsample =>
    obtain ⟨name, hsays, hsome⟩ := hname
    rw [ofEntry_of_inModule hsays hsome hmodule, ofParts_twoSources hjson hsample]
  | noSource hname hmodule hjson hsample =>
    obtain ⟨name, hsays, hsome⟩ := hname
    rw [ofEntry_of_inModule hsays hsome hmodule, ofParts_noSource hjson hsample]
  | unreadable hname hmodule hjson hsample hfilled hread =>
    obtain ⟨name, hsays, hsome⟩ := hname
    rw [ofEntry_of_inModule hsays hsome hmodule, ofParts_sample hjson hsample hfilled, hread]
    rfl

/-- An entry declares a model, or there is a reason why not. -/
theorem declares_or_refused (fs : FileSystem) (root : Path) (index : Nat) (setting : Setting) :
    (∃ m, Declares fs root setting m) ∨ ∃ cause, Refused fs root index setting cause := by
  by_cases htable : ∃ entry, setting = .table entry
  · obtain ⟨entry, rfl⟩ := htable
    by_cases hnamed : IsNamed entry
    · obtain ⟨name, hname, hsome⟩ := id hnamed
      by_cases hmodule : ∃ moduleName, InModule entry moduleName
      · obtain ⟨moduleName, hmodule⟩ := hmodule
        by_cases hjson : ∃ inline, Says entry "json" inline
        · obtain ⟨inline, hjson⟩ := hjson
          by_cases hsample : ∃ sample, Says entry "sample" sample
          · obtain ⟨sample, hsample⟩ := hsample
            exact Or.inr ⟨_, .twoSources hnamed hmodule hjson hsample⟩
          · exact Or.inl ⟨_, .intro hname hsome hmodule (.inline hjson (not_exists.1 hsample))⟩
        · have hjson := not_exists.1 hjson
          by_cases hsample : ∃ sample, Says entry "sample" sample ∧ sample ≠ ""
          · obtain ⟨sample, hsample, hfilled⟩ := hsample
            cases hread : sampleText fs (samplePath root sample) with
            | ok text =>
              exact Or.inl ⟨_, .intro hname hsome hmodule
                (.sample hsample hfilled hjson (sampleText_eq_ok.1 hread))⟩
            | error cause =>
              exact Or.inr ⟨_, .unreadable hnamed hmodule hjson hsample hfilled hread⟩
          · refine Or.inr ⟨_, .noSource hnamed hmodule hjson fun sample hsays => ?_⟩
            by_contra hfilled
            exact hsample ⟨sample, hsays, hfilled⟩
      · exact Or.inr ⟨_, .moduleNotText hnamed (not_exists.1 hmodule)⟩
    · exact Or.inr ⟨_, .unnamed hnamed⟩
  · exact Or.inr ⟨_, .notATable (not_exists.1 htable)⟩

/-- **The model of an entry** is the one that it declares. -/
theorem ofEntry_eq_ok : ofEntry fs root index setting = .ok m ↔ Declares fs root setting m := by
  refine ⟨fun h => ?_, fun h => ofEntry_of_declares h index⟩
  rcases declares_or_refused fs root index setting with ⟨declared, hdeclares⟩ | ⟨cause, hrefused⟩
  · rw [ofEntry_of_declares hdeclares] at h
    cases h
    exact hdeclares
  · rw [ofEntry_of_refused hrefused] at h
    cases h

/-- **What is told about an entry** is why it is refused. -/
theorem ofEntry_eq_error :
    ofEntry fs root index setting = .error cause ↔ Refused fs root index setting cause := by
  refine ⟨fun h => ?_, ofEntry_of_refused⟩
  rcases declares_or_refused fs root index setting with ⟨declared, hdeclares⟩ | ⟨told, hrefused⟩
  · rw [ofEntry_of_declares hdeclares] at h
    cases h
  · rw [ofEntry_of_refused hrefused] at h
    cases h
    exact hrefused

/-! ## Lists of entries -/

/-- **A list of entries is read** as one model for each, in order. -/
theorem ofEntries_eq_ok :
    ofEntries fs root index entries = .ok models ↔
      List.Forall₂ (Declares fs root) entries models := by
  induction entries generalizing index models with
  | nil =>
    constructor
    · intro h
      cases h
      exact .nil
    · intro h
      cases h
      rfl
  | cons setting rest ih =>
    constructor
    · intro h
      obtain ⟨m, hm, h⟩ := Loops.bind_eq_ok.1 h
      obtain ⟨others, hothers, h⟩ := Loops.bind_eq_ok.1 h
      cases h
      exact .cons (ofEntry_eq_ok.1 hm) (ih.1 hothers)
    · intro h
      cases h with
      | cons hm hrest =>
        exact Loops.bind_eq_ok.2
          ⟨_, ofEntry_eq_ok.2 hm, Loops.bind_eq_ok.2 ⟨_, ih.2 hrest, rfl⟩⟩

/-- **A list of entries is refused** for the first entry that declares no model. -/
theorem ofEntries_eq_error :
    ofEntries fs root index entries = .error cause ↔
      ∃ before setting after, entries = before ++ setting :: after ∧
        (∀ other ∈ before, ∃ m, Declares fs root other m) ∧
        Refused fs root (index + before.length) setting cause := by
  induction entries generalizing index with
  | nil =>
    constructor
    · nofun
    · rintro ⟨before, setting, after, h, -⟩
      cases before <;> cases h
  | cons setting rest ih =>
    have hplace : ∀ before : List Setting,
        index + 1 + before.length = index + (setting :: before).length := by
      intro before
      rw [List.length_cons]
      omega
    constructor
    · intro h
      rcases Loops.bind_eq_error.1 h with hfirst | ⟨m, hm, h⟩
      · exact ⟨[], setting, rest, rfl, by simp, ofEntry_eq_error.1 hfirst⟩
      · rcases Loops.bind_eq_error.1 h with hrest | ⟨models, -, h⟩
        · obtain ⟨before, other, after, rfl, hbefore, hrefused⟩ := ih.1 hrest
          refine ⟨setting :: before, other, after, rfl, ?_, ?_⟩
          · exact List.forall_mem_cons.2 ⟨⟨m, ofEntry_eq_ok.1 hm⟩, hbefore⟩
          · rwa [← hplace]
        · cases h
    · rintro ⟨before, other, after, hsplit, hbefore, hrefused⟩
      cases before with
      | nil =>
        cases hsplit
        exact Loops.bind_eq_error.2 (Or.inl (ofEntry_eq_error.2 hrefused))
      | cons first before =>
        cases hsplit
        obtain ⟨⟨m, hm⟩, hbefore⟩ := List.forall_mem_cons.1 hbefore
        have hrest : ofEntries fs root (index + 1) (before ++ other :: after) = .error cause :=
          ih.2 ⟨before, other, after, rfl, hbefore, by rwa [hplace]⟩
        exact Loops.bind_eq_error.2
          (Or.inr ⟨m, ofEntry_eq_ok.2 hm, Loops.bind_eq_error.2 (Or.inl hrest)⟩)

/-- Some models go with the entries exactly if each entry declares one. -/
theorem exists_declared_iff :
    (∃ models, List.Forall₂ (Declares fs root) entries models) ↔
      ∀ setting ∈ entries, ∃ m, Declares fs root setting m := by
  induction entries with
  | nil => exact ⟨fun _ => by simp, fun _ => ⟨[], .nil⟩⟩
  | cons setting rest ih =>
    rw [List.forall_mem_cons, ← ih]
    constructor
    · rintro ⟨models, h⟩
      cases h with
      | cons hm hrest => exact ⟨⟨_, hm⟩, _, hrest⟩
    · rintro ⟨⟨m, hm⟩, models, hrest⟩
      exact ⟨m :: models, .cons hm hrest⟩

end

/-- **Declarations are read all or not at all.** For any list of entries and any files, the models
that are read are those that the entries declare, one for each in order, and there are such exactly
if every entry declares one. Otherwise the first entry that declares none is refused, for its reason
and with its place, whatever stands behind it. -/
theorem declarations_are_read_all_or_none {config : Section} {entries : List Setting}
    (h : Assoc.get? "models" config = some (.list entries)) (fs : FileSystem) (root : Path) :
    (∀ models, ofConfiguration fs root config = .ok models ↔
        List.Forall₂ (Declares fs root) entries models) ∧
      ((∃ models, ofConfiguration fs root config = .ok models) ↔
        ∀ setting ∈ entries, ∃ m, Declares fs root setting m) ∧
      ∀ cause, ofConfiguration fs root config = .error cause ↔
        ∃ before setting after, entries = before ++ setting :: after ∧
          (∀ other ∈ before, ∃ m, Declares fs root other m) ∧
          Refused fs root before.length setting cause := by
  have hread : ofConfiguration fs root config = ofEntries fs root 0 entries := by
    rw [ofConfiguration, h]
  refine ⟨fun models => ?_, ?_, fun cause => ?_⟩
  · rw [hread, ofEntries_eq_ok]
  · simp only [hread, ofEntries_eq_ok]
    exact exists_declared_iff
  · rw [hread, ofEntries_eq_error]
    simp only [Nat.zero_add]

/-- A project with a sample that holds `{}`. -/
def siteProject : FileSystem := { root := [("site.json", .file ⟨#[123, 125]⟩)] }

/-- An entry with an inline document, and with blanks around its name. -/
def personEntry : Section := [("name", .text " Person "), ("json", .text "{}")]

/-- An entry with a sample. What it says under `json` is no text, so it is not read. -/
def siteEntry : Section :=
  [("json", .int 1), ("name", .text "Site"), ("module", .text "app"), ("sample", .text "site.json")]

/-- An entry with both, though the path of its sample is empty. -/
def planEntry : Section := [("name", .text "Plan"), ("json", .text "{}"), ("sample", .text "")]

theorem personEntry_declares : Declares siteProject {} (.table personEntry)
    { name := "Person", moduleName := "", text := "{}", source := "" } := by
  have halone : ∀ sample, ¬ Says personEntry "sample" sample := by
    simp [Says, personEntry, Assoc.get?]
  have htrim : trim " Person " = "Person" := by decide
  rw [← htrim]
  exact .intro rfl ⟨'P', by decide, by decide⟩ (.unsaid rfl) (.inline rfl halone)

theorem siteEntry_declares : Declares siteProject {} (.table siteEntry)
    { name := "Site", moduleName := "app", text := "{}", source := "site.json" } := by
  have halone : ∀ inline, ¬ Says siteEntry "json" inline := by
    simp [Says, siteEntry, Assoc.get?]
  have hread : siteProject.readText (samplePath {} "site.json") = .ok "{}" :=
    Loops.toOption_eq_some.1 (by decide +kernel)
  have hsource : (samplePath {} "site.json").text = "site.json" := by decide +kernel
  have htrim : trim "Site" = "Site" := by decide
  rw [← htrim, ← hsource]
  exact .intro rfl ⟨'S', by decide, by decide⟩ (.said rfl) (.sample rfl (by decide) halone hread)

theorem planEntry_refused (index : Nat) :
    Refused siteProject {} index (.table planEntry) (.badDeclaration (.twoSources index)) :=
  .twoSources ⟨"Plan", rfl, 'P', by decide, by decide⟩ (.unsaid rfl)
    (show Says planEntry "json" "{}" from rfl) (show Says planEntry "sample" "" from rfl)

/-- The first two of these entries are read. The third is refused, and the fourth, which is no
table, is not looked at. -/
theorem declarations_are_read_all_or_none_mixed :
    ofConfiguration siteProject {}
        [("models", .list [.table personEntry, .table siteEntry])] =
        .ok [{ name := "Person", moduleName := "", text := "{}", source := "" },
          { name := "Site", moduleName := "app", text := "{}", source := "site.json" }] ∧
      ofConfiguration siteProject {}
        [("models", .list [.table personEntry, .table siteEntry, .table planEntry, .bool true])] =
        .error (.badDeclaration (.twoSources 2)) := by
  constructor
  · exact ((declarations_are_read_all_or_none rfl siteProject {}).1 _).2
      (.cons personEntry_declares (.cons siteEntry_declares .nil))
  · refine ((declarations_are_read_all_or_none rfl siteProject {}).2.2 _).2
      ⟨[.table personEntry, .table siteEntry], .table planEntry, [.bool true], rfl, ?_,
        planEntry_refused 2⟩
    exact List.forall_mem_cons.2
      ⟨⟨_, personEntry_declares⟩, List.forall_mem_singleton.2 ⟨_, siteEntry_declares⟩⟩

end DeclaredModel

end SampleTypes
