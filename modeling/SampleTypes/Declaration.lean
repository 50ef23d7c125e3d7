import SampleTypes.Configuration

/-!
# Declared models

The models that a configuration declares, each with its document: inline, or in a sample file
relative to the project. Declarations are read all or not at all; the first one that is wrong
decides what is reported.
-/

namespace SampleTypes

open Files (FileSystem Path)

/-- A declared model with the text of its sample. -/
structure DeclaredModel where
  name : String
  /-- The module that the model is said to live in, or nothing. -/
  moduleName : String
  text : String
  /-- The path of the sample, or nothing if it is inline. -/
  source : String := ""
  deriving DecidableEq, Repr

/-- A class that gets a repository: its name and the module that it is imported from. -/
structure EntityType where
  name : String
  moduleName : String
  deriving DecidableEq, Repr

namespace DeclaredModel

/-- An ASCII letter in upper case. -/
def isUpper (c : Char) : Bool :=
  'A' ≤ c && c ≤ 'Z'

/-- An ASCII letter in lower case, or a digit. -/
def isLowerOrDigit (c : Char) : Bool :=
  ('a' ≤ c && c ≤ 'z') || ('0' ≤ c && c ≤ '9')

/-- A camel-case name with its words in lower case and low lines between them. -/
def snakeCase : List Char → List Char
  | a :: b :: rest =>
    if isLowerOrDigit a && isUpper b then a.toLower :: '_' :: snakeCase (b :: rest)
    else a.toLower :: snakeCase (b :: rest)
  | [a] => [a.toLower]
  | [] => []

/-- The name of the generated file, without its ending. -/
def stem (m : DeclaredModel) : String :=
  String.ofList (snakeCase (Identifier.className m.name).toList)

/-- The class of the model as one that gets a repository. -/
def entityType (m : DeclaredModel) : EntityType :=
  { name := Identifier.className m.name
    moduleName := if m.moduleName = "" then m.stem else m.moduleName }

/-- The file of a sample, seen from the project's directory. -/
def samplePath (root : Path) (sample : String) : Path :=
  root.join (Path.ofText sample)

/-- The model that an entry with a name and a module declares. -/
def ofParts (fs : FileSystem) (root : Path) (index : Nat) (entry : Section)
    (name moduleName : String) : Except Fault DeclaredModel :=
  let name := Text.Blank.trim name
  match Assoc.get? "json" entry, Assoc.get? "sample" entry with
  | some (.text _), some (.text _) => .error (.badDeclaration (.twoSources index))
  | some (.text inline), _ => .ok { name := name, moduleName := moduleName, text := inline }
  | _, some (.text sample) =>
    if sample = "" then .error (.badDeclaration (.noSource index))
    else
      let path := samplePath root sample
      match fs.readText path with
      | .ok text =>
        .ok { name := name, moduleName := moduleName, text := text, source := path.text }
      | .error .nullInPath => .error (.file .nullInPath)
      | .error cause => .error (.unreadableSample path.text cause)
  | _, _ => .error (.badDeclaration (.noSource index))

/-- The model that an entry declares. -/
def ofEntry (fs : FileSystem) (root : Path) (index : Nat) : Setting → Except Fault DeclaredModel
  | .table entry =>
    match Assoc.get? "name" entry with
    | some (.text name) =>
      if Text.Blank.trim name = "" then .error (.badDeclaration (.unnamed index))
      else
        match Assoc.get? "module" entry with
        | none => ofParts fs root index entry name ""
        | some (.text moduleName) => ofParts fs root index entry name moduleName
        | some _ => .error (.badDeclaration (.moduleNotText index))
    | _ => .error (.badDeclaration (.unnamed index))
  | _ => .error (.badDeclaration (.notATable index))

/-- The models that entries declare, counted from `index` on. -/
def ofEntries (fs : FileSystem) (root : Path) (index : Nat) :
    List Setting → Except Fault (List DeclaredModel)
  | [] => .ok []
  | entry :: rest => do
    let model ← ofEntry fs root index entry
    let models ← ofEntries fs root (index + 1) rest
    return model :: models

/-- The models that a configuration declares. -/
def ofConfiguration (fs : FileSystem) (root : Path) (config : Section) :
    Except Fault (List DeclaredModel) :=
  match Assoc.get? "models" config with
  | none => .ok []
  | some (.list entries) => ofEntries fs root 0 entries
  | some _ => .error (.badDeclaration .notAnArray)

theorem length_ofEntries {fs : FileSystem} {root : Path} {entries : List Setting} {index : Nat}
    {models : List DeclaredModel} (h : ofEntries fs root index entries = .ok models) :
    models.length = entries.length := by
  induction entries generalizing index models with
  | nil =>
    simp only [ofEntries, Except.ok.injEq] at h
    simp [← h]
  | cons entry rest ih =>
    simp only [ofEntries, bind, Except.bind] at h
    split at h
    · simp at h
    · split at h
      · simp at h
      · rename_i heq
        simp only [pure, Except.pure, Except.ok.injEq] at h
        simp [← h, ih heq]

end DeclaredModel

/-- The plan of a declared model, under its class name. -/
def DeclaredModel.plan (discriminator : String) (m : DeclaredModel) : Except Fault Plan :=
  synthesize discriminator (Identifier.className m.name)
    (if m.source = "" then m.name else m.source) m.text

/-- The plan of a sample file. -/
def planOfFile (fs : FileSystem) (discriminator root : String) (path : Path) :
    Except Fault Plan :=
  match fs.readText path with
  | .ok text => synthesize discriminator root path.text text
  | .error .nullInPath => .error (.file .nullInPath)
  | .error cause => .error (.unreadableSample path.text cause)

end SampleTypes
