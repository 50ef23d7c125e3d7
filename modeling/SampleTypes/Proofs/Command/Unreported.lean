import SampleTypes.Command.Run
import SampleTypes.Proofs.Command.Declarations
import SampleTypes.Proofs.Loops

/-!
# Input that is not reported

Most of what can be wrong with the input of a command is told to the user. What is not comes from
few places: a configuration that is no text, a whole number with more digits than are read, a path
with the character NUL, source code that can be read and is unsound, a source file without a name
below the project, and names or modules of entities that make no sound statement.

For each step that reads input this module says exactly for which input its fault is one of these.

## Main results

* `Configuration.load_eq_error`, `synthesize_eq_unreported`: the configuration and the samples.
* `DeclaredModel.fault_of_ofConfiguration`: the declarations.
* `Discovery.discover_eq_error`: the first source file that ends the search.
* `Scaffold.render_eq_error`: the first import or class that is not sound.
-/

namespace SampleTypes

open Files (FileSystem Path)

/-! ## Texts -/

theorem Files.FileSystem.readText_eq_nullInPath {fs : FileSystem} {p : Path} :
    fs.readText p = .error .nullInPath ↔ p.hasNull = true := by
  unfold FileSystem.readText FileSystem.readOctets
  cases hnull : p.hasNull with
  | true => simp [bind, Except.bind]
  | false =>
    simp only [Bool.false_eq_true, if_false, iff_false]
    have htext : ∀ octets : ByteArray, ((Text.Utf8.readText octets.data.toList).mapError
        FileFault.notText) ≠ .error .nullInPath := by
      intro octets
      cases Text.Utf8.readText octets.data.toList with
      | ok text => nofun
      | error refusal => nofun
    intro h
    rcases hfound : fs.find p with dead | (octets | _ | entries)
    · rw [hfound] at h
      cases h
    · rw [hfound] at h
      exact htext octets h
    · rw [hfound] at h
      exact htext .empty h
    · rw [hfound] at h
      cases h

/-! ## The configuration -/

section

variable {fs : FileSystem} {root p : Path} {asked : Option Path} {cause : Fault} {text : String}
  {config : Section} {discriminator rootName source : String}

/-- **A configuration without an answer**: it is no text, or has a whole number that is too long. -/
theorem Configuration.load_eq_error (h : (location root asked).hasNull = false) :
    load fs root asked = .error cause ↔
      (∃ refusal, fs.readText (location root asked) = .error (.notText refusal) ∧
          cause = .file (.notText refusal)) ∨
        ∃ text digits, fs.readText (location root asked) = .ok text ∧
          Toml.read text = .error (.longInteger digits) ∧ cause = .longInteger digits := by
  unfold load ofText
  cases htext : fs.readText (location root asked) with
  | ok text => 
    rcases hread : Toml.read text with (_ | digits) | config
    · simp [hread]
    · simp [hread, eq_comm]
    · simp [hread]
  | error refusal =>
    cases refusal with
    | os cause => simp
    | notText refusal => simp [eq_comm]
    | nullInPath =>
      rw [FileSystem.readText_eq_nullInPath.1 htext] at h
      cases h

/-! ## Samples -/

/-- **A sample whose fault is not reported** has a whole number that is too long. -/
theorem synthesize_eq_unreported :
    synthesize discriminator rootName source text = .error cause ∧ cause.isReported = false ↔
      ∃ digits, Json.read text = .error (.longInteger digits) ∧ cause = .longInteger digits := by
  unfold synthesize readSample
  rcases Json.read text with (⟨why, line, column⟩ | digits) | document
  · constructor
    · rintro ⟨h, hunreported⟩
      cases h
      cases hunreported
    · rintro ⟨digits, h, -⟩
      cases h
  · constructor
    · rintro ⟨h, -⟩
      cases h
      exact ⟨digits, rfl, rfl⟩
    · rintro ⟨digits, h, rfl⟩
      cases h
      exact ⟨rfl, rfl⟩
  · constructor
    · rintro ⟨h, hunreported⟩
      cases document <;> cases h <;> cases hunreported
    · rintro ⟨digits, h, -⟩
      cases h

theorem planOfFile_of_error {refusal : FileFault} (h : fs.readText p = .error refusal)
    (hnot : refusal ≠ .nullInPath) :
    planOfFile fs discriminator rootName p = .error (.unreadableSample p.text refusal) := by
  unfold planOfFile
  rw [h]
  cases refusal with
  | nullInPath => exact absurd rfl hnot
  | os cause => rfl
  | notText cause => rfl

theorem planOfFile_eq_unreported (h : p.hasNull = false) :
    planOfFile fs discriminator rootName p = .error cause ∧ cause.isReported = false ↔
      ∃ text digits, fs.readText p = .ok text ∧ Json.read text = .error (.longInteger digits) ∧
        cause = .longInteger digits := by
  cases htext : fs.readText p with
  | ok text =>
    unfold planOfFile
    rw [htext]
    simp [synthesize_eq_unreported]
  | error refusal =>
    have hnot : refusal ≠ .nullInPath := by
      rintro rfl
      rw [FileSystem.readText_eq_nullInPath.1 htext] at h
      cases h
    rw [planOfFile_of_error htext hnot]
    constructor
    · rintro ⟨hcause, hunreported⟩
      cases hcause
      cases hunreported
    · rintro ⟨_, _, ⟨⟩, -⟩

end

/-! ## Declarations -/

namespace DeclaredModel

section

variable {fs : FileSystem} {root : Path} {index : Nat} {setting : Setting}
  {entries : List Setting} {config : Section} {cause : Fault}

theorem fault_of_sampleText {path : Path} (h : sampleText fs path = .error cause)
    (hunreported : cause.isReported = false) : cause = .file .nullInPath := by
  unfold sampleText at h
  split at h
  · cases h
  · cases h
    rfl
  · cases h
    cases hunreported

theorem fault_of_refused (h : Refused fs root index setting cause)
    (hunreported : cause.isReported = false) : cause = .file .nullInPath := by
  cases h with
  | unreadable _ _ _ _ _ hread => exact fault_of_sampleText hread hunreported
  | notATable => cases hunreported
  | unnamed => cases hunreported
  | moduleNotText => cases hunreported
  | twoSources => cases hunreported
  | noSource => cases hunreported

theorem fault_of_ofEntries (h : ofEntries fs root index entries = .error cause)
    (hunreported : cause.isReported = false) : cause = .file .nullInPath := by
  obtain ⟨before, setting, after, -, -, hrefused⟩ := ofEntries_eq_error.1 h
  exact fault_of_refused hrefused hunreported

/-- **A declaration whose fault is not reported** has a sample with a path that no file can have. -/
theorem fault_of_ofConfiguration (h : ofConfiguration fs root config = .error cause)
    (hunreported : cause.isReported = false) : cause = .file .nullInPath := by
  unfold ofConfiguration at h
  split at h
  · cases h
  · exact fault_of_ofEntries h hunreported
  · cases h
    cases hunreported

end

end DeclaredModel

/-! ## Source files -/

namespace Discovery

section

variable {fs : FileSystem} {root p : Path} {base : String} {found : Findings} {cause : Fault}
  {paths : List Path}

/-- Why a source file ends the search. -/
inductive Blocks (fs : FileSystem) (root p : Path) : Fault → Prop where
  | nullInPath (h : p.hasNull = true) : Blocks fs root p (.file .nullInPath)
  /-- The file can be read, and what it says is unsound. -/
  | unsound {text : String} {defect : Source.Defect} (htext : fs.readText p = .ok text)
      (h : Source.statementsOf text = .error (.unsound defect)) : Blocks fs root p (.unsound defect)
  /-- The file is sound, and has no name below the project. -/
  | nameless {text : String} {body : List Source.Statement} (htext : fs.readText p = .ok text)
      (hbody : Source.statementsOf text = .ok body) (h : relativeParts fs.working root p = []) :
      Blocks fs root p .namelessPath

/-- Looking into a file fails if the file ends the search, whatever has been found. -/
theorem look_eq_error : look fs root base found p = .error cause ↔ Blocks fs root p cause := by
  constructor
  · intro h
    unfold look at h
    split at h
    · rename_i htext
      cases h
      exact .nullInPath (FileSystem.readText_eq_nullInPath.1 htext)
    · cases h
    · rename_i text htext
      split at h
      · cases h
      · rename_i defect hdefect
        cases h
        exact .unsound htext hdefect
      · rename_i body hbody
        rcases Loops.bind_eq_error.1 h with hname | ⟨owner, -, h⟩
        · unfold moduleName at hname
          split at hname
          · rename_i hparts
            cases hname
            exact .nameless htext hbody hparts
          · cases hname
        · cases h
  · rintro (hnull | ⟨htext, hdefect⟩ | ⟨htext, hbody, hparts⟩)
    · unfold look
      rw [FileSystem.readText_eq_nullInPath.2 hnull]
    · unfold look
      simp only [htext, hdefect]
    · have hname : moduleName fs.working root p = .error .namelessPath := by
        unfold moduleName
        rw [hparts]
      unfold look
      simp only [htext, hbody, hname]
      rfl

/-- **The search ends at the first file that ends it.** -/
theorem discover_eq_error : discover fs root base paths = .error cause ↔
    ∃ front p back, filesOfPaths fs paths = front ++ p :: back ∧
      (∀ q ∈ front, ∀ other, ¬ Blocks fs root q other) ∧ Blocks fs root p cause := by
  have hlook : ∀ found p cause, look fs root base found p = .error cause ↔ Blocks fs root p cause :=
    fun _ _ _ => look_eq_error
  exact Loops.foldlM_eq_error_iff hlook

end

end Discovery

/-! ## Repositories -/

namespace Scaffold

variable {types : List EntityType} {i : Import} {c : RepositoryClass} {cause : Fault}

/-- Why no module can be written for entity types. -/
inductive Unwritable (types : List EntityType) : Fault → Prop where
  /-- An import that is no statement. -/
  | noStatement {front back : List Import} {i : Import} {reading : Source.ReadingFault}
      (hsplit : importsOf types = front ++ i :: back) (hfront : ∀ j ∈ front, j.check = .ok ())
      (h : Source.checkStatement i.text = .error (.noReading reading)) :
      Unwritable types .brokenStatement
  /-- An import that is a statement and unsound. -/
  | unsound {front back : List Import} {i : Import} {defect : Source.Defect}
      (hsplit : importsOf types = front ++ i :: back) (hfront : ∀ j ∈ front, j.check = .ok ())
      (h : Source.checkStatement i.text = .error (.unsound defect)) :
      Unwritable types (.unsound defect)
  /-- A class with a name that may not stand in code. -/
  | name {front back : List RepositoryClass} {c : RepositoryClass} {defect : Source.Defect}
      (himports : ∀ i ∈ importsOf types, i.check = .ok ())
      (hsplit : classesOf types = front ++ c :: back) (hfront : ∀ d ∈ front, d.check = .ok ())
      (h : c.check = .error (.unsound defect)) : Unwritable types (.unsound defect)

theorem Import.check_eq_error : i.check = .error cause ↔
    (∃ reading, Source.checkStatement i.text = .error (.noReading reading) ∧
        cause = .brokenStatement) ∨
      ∃ defect, Source.checkStatement i.text = .error (.unsound defect) ∧
        cause = .unsound defect := by
  unfold Import.check
  rcases Source.checkStatement i.text with (reading | defect) | done
  · simp [eq_comm]
  · simp [eq_comm]
  · simp

theorem fault_of_checkName {name : String} (h : checkName name = .error cause) :
    ∃ defect, cause = .unsound defect := by
  unfold checkName at h
  split at h
  · cases h
    exact ⟨_, rfl⟩
  · split at h
    · cases h
    · cases h
      exact ⟨_, rfl⟩

theorem fault_of_check (h : c.check = .error cause) : ∃ defect, cause = .unsound defect := by
  rcases Loops.bind_eq_error.1 h with hname | ⟨_, -, hentity⟩
  · exact fault_of_checkName hname
  · exact fault_of_checkName hentity

/-- **No module is written** exactly if an import is no sound statement, or else a class has a
name that may not stand in code. -/
theorem render_eq_error : render types = .error cause ↔ Unwritable types cause := by
  have hrender : render types = .error cause ↔
      (importsOf types).forM Import.check = .error cause ∨
        (importsOf types).forM Import.check = .ok ⟨⟩ ∧
          (classesOf types).forM RepositoryClass.check = .error cause := by
    show (((importsOf types).forM Import.check >>= fun _ =>
      (classesOf types).forM RepositoryClass.check) >>= fun _ =>
        Except.ok (Module.ofTypes types).text) = .error cause ↔ _
    cases (importsOf types).forM Import.check with
    | error fault => simp [bind, Except.bind]
    | ok done =>
      cases (classesOf types).forM RepositoryClass.check with
      | error fault => simp [bind, Except.bind]
      | ok done => simp [bind, Except.bind]
  rw [hrender, Loops.forM_eq_error_iff, Loops.forM_eq_ok_iff, Loops.forM_eq_error_iff]
  constructor
  · rintro (⟨front, i, back, hsplit, hfront, h⟩ | ⟨himports, front, c, back, hsplit, hfront, h⟩)
    · rcases Import.check_eq_error.1 h with ⟨reading, hreading, rfl⟩ | ⟨defect, hdefect, rfl⟩
      · exact .noStatement hsplit hfront hreading
      · exact .unsound hsplit hfront hdefect
    · obtain ⟨defect, rfl⟩ := fault_of_check h
      exact .name himports hsplit hfront h
  · rintro (⟨hsplit, hfront, h⟩ | ⟨hsplit, hfront, h⟩ | ⟨himports, hsplit, hfront, h⟩)
    · exact Or.inl ⟨_, _, _, hsplit, hfront, Import.check_eq_error.2 (Or.inl ⟨_, h, rfl⟩)⟩
    · exact Or.inl ⟨_, _, _, hsplit, hfront, Import.check_eq_error.2 (Or.inr ⟨_, h, rfl⟩)⟩
    · exact Or.inr ⟨himports, _, _, _, hsplit, hfront, h⟩

end Scaffold

end SampleTypes
