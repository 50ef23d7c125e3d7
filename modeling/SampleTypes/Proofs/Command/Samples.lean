import Mathlib.Data.List.DropRight
import SampleTypes.Proofs.Command.Declarations
import SampleTypes.Proofs.Command.Words
import SampleTypes.Proofs.Files.Paths
import SampleTypes.Proofs.Identifier.Spelling

/-!
# Declared samples

A model that names a sample has the plan that the sample itself has under the class name of the
model: the same file is read, its refusals are told in the same words, and the place that messages
name is the file and not the model. For the last point the text of a path must say something, and
it does for every path that comes from a text.

Which entries have such a model is said of the entry alone: it is well formed, and what its sample
holds, or whether there is one, plays no part. If a model with a sample is declared, its entry was
well formed.

## Main results

* `className_trim`: blanks around a name do not show in its class name.
* `text_samplePath_ne`: the text of the path of a sample.
* `names_of_ofConfiguration`: the entry of a model with a sample.
* `Names.declared`: the models of a configuration with one entry, and their plan.
-/

namespace SampleTypes

open Files (FileSystem Path)

/-! ## Class names -/

namespace Identifier

theorem isAlphanumeric_of_isBlank {c : Char} (h : Text.Blank.isBlank c = true) :
    isAlphanumeric c = false := by
  rw [← Bool.not_eq_true, isAlphanumeric_iff]
  simp [Text.Blank.isBlank, Text.Blank.ranges] at h
  omega

/-- What stands in front of the first letter or digit says nothing. -/
theorem camel_dropWhile {p : Char → Bool} (h : ∀ c, p c = true → isAlphanumeric c = false)
    (cs : List Char) : camel true (cs.dropWhile p) = camel true cs := by
  induction cs with
  | nil => rfl
  | cons c rest ih =>
    cases hc : p c with
    | true => rw [List.dropWhile_cons_of_pos hc, ih, camel, if_neg (by simp [h c hc])]
    | false => rw [List.dropWhile_cons_of_neg (by simp [hc])]

/-- What stands behind the last letter or digit says nothing either. -/
theorem camel_rdropWhile {p : Char → Bool} (h : ∀ c, p c = true → isAlphanumeric c = false)
    (fresh : Bool) (cs : List Char) : camel fresh (cs.rdropWhile p) = camel fresh cs := by
  induction cs using List.reverseRecOn with
  | nil => rw [List.rdropWhile_nil]
  | append_singleton front c ih =>
    cases hc : p c with
    | true => rw [List.rdropWhile_concat_pos p front c hc, ih, camel_concat (h c hc)]
    | false => rw [List.rdropWhile_concat_neg p front c (by simp [hc])]

/-- **Blanks around a name do not show in its class name.** -/
theorem className_trim (name : String) : className (Text.Blank.trim name) = className name := by
  have hcamel : camel true (Text.Blank.trim name).toList = camel true name.toList := by
    rw [Text.Blank.trim, String.toList_ofList,
      ← camel_dropWhile (fun _ => isAlphanumeric_of_isBlank) name.toList]
    exact camel_rdropWhile (fun _ => isAlphanumeric_of_isBlank) true _
  simp only [className, hcamel]

end Identifier

/-! ## The path of a sample -/

theorem DeclaredModel.isCanonical_samplePath {root : Path} (h : root.IsCanonical)
    (sample : String) : (samplePath root sample).IsCanonical :=
  h.join (Path.isCanonical_ofText sample)

namespace Command

/-- The shared options of a request are those of its words taken apart. -/
theorem exists_parsed_of_requestOf {command : String} {words : List String} {request : Request}
    (h : requestOf command words = .ok request) : ∃ p : Parsed, request.common = p.common := by
  unfold requestOf at h
  split at h
  · obtain ⟨p, -, h⟩ := Loops.bind_eq_ok.1 h
    split at h
    · cases h
    · obtain ⟨_, -, h⟩ := Loops.bind_eq_ok.1 h
      split at h
      · cases h
        exact ⟨p, rfl⟩
      · cases h
  · split at h
    · obtain ⟨p, -, h⟩ := Loops.bind_eq_ok.1 h
      split at h
      · cases h
        exact ⟨p, rfl⟩
      · cases h
    · split at h
      · obtain ⟨p, -, h⟩ := Loops.bind_eq_ok.1 h
        obtain ⟨_, -, h⟩ := Loops.bind_eq_ok.1 h
        cases h
        exact ⟨p, rfl⟩
      · cases h

/-- The directory of the project comes from a text. -/
theorem isCanonical_root {words : List String} {request : Request}
    (h : Request.ofWords words = .ok request) : request.common.root.IsCanonical := by
  have hparsed : ∃ p : Parsed, request.common = p.common := by
    unfold Request.ofWords at h
    split at h
    · exact exists_parsed_of_requestOf h
    · split at h
      · cases h
      · exact exists_parsed_of_requestOf h
    · cases h
  obtain ⟨p, hcommon⟩ := hparsed
  rw [hcommon]
  show ((p.path? "root").getD {}).IsCanonical
  unfold Parsed.path?
  cases p.value? "root" with
  | none => exact Path.isCanonical_ofText ""
  | some s => exact Path.isCanonical_ofText s

/-- The text of the path of a sample says something. -/
theorem text_samplePath_ne {words : List String} {request : Request}
    (h : Request.ofWords words = .ok request) (sample : String) :
    (DeclaredModel.samplePath request.common.root sample).text ≠ "" :=
  (DeclaredModel.isCanonical_samplePath (isCanonical_root h) sample).text_ne

end Command

/-! ## The models of one entry -/

theorem planOfFile_eq (fs : FileSystem) (discriminator root : String) (path : Path) :
    planOfFile fs discriminator root path =
      (sampleText fs path).bind (synthesize discriminator root path.text) := by
  unfold planOfFile sampleText
  cases fs.readText path with
  | ok text => rfl
  | error cause => cases cause <;> rfl

namespace DeclaredModel

open Text.Blank (trim_eq_empty)

/-- An entry of the declared models is well formed: it has a name that is not blank, and a sample
file under a name that is not empty; a module may be said. -/
structure Names (entry : Section) (name sample : String) : Prop where
  name_eq : Assoc.get? "name" entry = some (.text name)
  name_ne : Text.Blank.trim name ≠ ""
  module_eq : Assoc.get? "module" entry = none ∨
    ∃ moduleName, Assoc.get? "module" entry = some (.text moduleName)
  json_ne : ∀ inline, Assoc.get? "json" entry ≠ some (.text inline)
  sample_eq : Assoc.get? "sample" entry = some (.text sample)
  sample_ne : sample ≠ ""

variable {entry config : Section} {name sample : String}

/-- Such an entry declares the model of its sample, unless that cannot be read. -/
theorem Names.ofEntry (h : Names entry name sample) (fs : FileSystem) (root : Path) (index : Nat) :
    ∃ moduleName, DeclaredModel.ofEntry fs root index (.table entry) =
      (sampleText fs (samplePath root sample)).map
        (ofSample (samplePath root sample) name moduleName) := by
  have hmodule : ∃ moduleName, InModule entry moduleName := by
    rcases h.module_eq with hmodule | ⟨moduleName, hmodule⟩
    · exact ⟨"", .unsaid hmodule⟩
    · exact ⟨moduleName, .said hmodule⟩
  obtain ⟨moduleName, hmodule⟩ := hmodule
  refine ⟨moduleName, ?_⟩
  rw [ofEntry_of_inModule h.name_eq (trim_eq_empty.not_left.1 h.name_ne) hmodule,
    ofParts_sample h.json_ne h.sample_eq h.sample_ne]

/-- An entry that declares a model with a sample is well formed. -/
theorem names_of_ofEntry {fs : FileSystem} {root : Path} {index : Nat} {setting : Setting}
    {m : DeclaredModel} (h : DeclaredModel.ofEntry fs root index setting = .ok m)
    (hsource : m.source ≠ "") :
    ∃ entry name sample, setting = .table entry ∧ Names entry name sample ∧
      m.name = Text.Blank.trim name ∧ m.source = (samplePath root sample).text := by
  obtain ⟨hname, hsome, hmodule, hdocument⟩ := ofEntry_eq_ok.1 h
  cases hdocument with
  | inline => exact absurd rfl hsource
  | sample hsample hfilled halone hread =>
    refine ⟨_, _, _, rfl,
      ⟨hname, trim_eq_empty.not_left.2 hsome, ?_, halone, hsample, hfilled⟩, rfl, rfl⟩
    cases hmodule with
    | unsaid hmodule => exact Or.inl hmodule
    | said hmodule => exact Or.inr ⟨_, hmodule⟩

/-- **One model with a sample** is declared by one entry, which is well formed. -/
theorem names_of_ofConfiguration {fs : FileSystem} {root : Path} {m : DeclaredModel}
    (h : ofConfiguration fs root config = .ok [m]) (hsource : m.source ≠ "") :
    ∃ entry name sample, Assoc.get? "models" config = some (.list [.table entry]) ∧
      Names entry name sample ∧ m.name = Text.Blank.trim name ∧
      m.source = (samplePath root sample).text := by
  unfold ofConfiguration at h
  split at h
  · cases h
  · rename_i entries hmodels
    obtain ⟨setting, rfl⟩ := List.length_eq_one_iff.1 (length_ofEntries h).symm
    obtain ⟨declared, hdeclared, h⟩ := Loops.bind_eq_ok.1 h
    cases h
    obtain ⟨entry, name, sample, rfl, hnames⟩ := names_of_ofEntry hdeclared hsource
    exact ⟨entry, name, sample, hmodels, hnames⟩
  · cases h

/-- **The models of a configuration with one entry.** Either the sample has a text, and there is one
model, with the plan that the sample has under the class name; or the entry and the sample are
refused in the same words. -/
theorem Names.declared (h : Names entry name sample) (fs : FileSystem) {root : Path}
    (hmodels : Assoc.get? "models" config = some (.list [.table entry]))
    (hsource : (samplePath root sample).text ≠ "") (discriminator : String) :
    (∃ m : DeclaredModel, ofConfiguration fs root config = .ok [m] ∧ m.name = Text.Blank.trim name ∧
        m.plan discriminator = planOfFile fs discriminator (Identifier.className name)
          (samplePath root sample)) ∨
      ∃ cause, ofConfiguration fs root config = .error cause ∧
        planOfFile fs discriminator (Identifier.className name) (samplePath root sample) =
          .error cause := by
  obtain ⟨moduleName, hentry⟩ := h.ofEntry fs root 0
  simp only [ofConfiguration, hmodels, ofEntries, hentry, planOfFile_eq]
  cases htext : sampleText fs (samplePath root sample) with
  | error cause => exact Or.inr ⟨cause, rfl, rfl⟩
  | ok text =>
    refine Or.inl ⟨ofSample (samplePath root sample) name moduleName text, rfl, rfl, ?_⟩
    show synthesize discriminator (Identifier.className (Text.Blank.trim name))
      (if (samplePath root sample).text = "" then Text.Blank.trim name
        else (samplePath root sample).text) text = _
    rw [if_neg hsource, Identifier.className_trim]
    rfl

end DeclaredModel

end SampleTypes
