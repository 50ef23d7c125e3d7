import SampleTypes.Declaration
import SampleTypes.Source.Entities
import SampleTypes.Source.Reading

/-!
# Finding entity classes

The source files below some paths, the modules that they are imported as, and the entity classes
that they hold. In every directory the files come first and then the subdirectories, each in order;
a few directories that never hold sources of the project are left out. A file that cannot be read
or has no reading is reported and skipped; one that has an unsound reading ends the search.
-/

namespace SampleTypes.Discovery

open Files (FileSystem Path Entry)

/-- The directories that are not entered. -/
def excludedNames : List String := ["__pycache__", ".git", ".venv", "venv", "build", "dist"]

/-- The ending of source files. -/
def sourceEnding : String := ".py"

/-- A name that ends like a source file's. -/
def isSourceName (name : String) : Bool :=
  sourceEnding.toList.isSuffixOf name.toList

/-- The entries of a directory in the order of their names. -/
def inOrder {α : Type} (entries : List (String × α)) : List (String × α) :=
  entries.mergeSort fun one other => decide (one.1 ≤ other.1)

/-- The source files among the entries of a directory. -/
def ownFiles (entries : List (String × Entry)) : List String :=
  entries.filterMap fun
    | (_, .directory _) => none
    | (name, _) => if isSourceName name then some name else none

mutual

/-- The paths of all source files below an entry, seen from it. -/
def below : Entry → List (List String)
  | .directory entries =>
    (Text.Order.sort (ownFiles entries)).map (fun name => [name]) ++
      ((inOrder (belowEach entries)).flatMap fun (name, paths) => paths.map (name :: ·))
  | _ => []

/-- For each subdirectory that is entered, the paths of the source files below it. -/
def belowEach : List (String × Entry) → List (String × List (List String))
  | [] => []
  | (name, entry) :: rest =>
    match entry with
    | .directory entries =>
      if name ∈ excludedNames then belowEach rest
      else (name, below (.directory entries)) :: belowEach rest
    | _ => belowEach rest

end

/-- The source files that a path stands for: all below a directory, or the path itself. -/
def filesOfPath (fs : FileSystem) (p : Path) : List Path :=
  match fs.isDirectory p, fs.find p with
  | true, .ok entry => (below entry).map fun parts => { p with parts := p.parts ++ parts }
  | _, _ => if p.ending = sourceEnding then [p] else []

/-- The source files that several paths stand for, one path after another. -/
def filesOfPaths (fs : FileSystem) (paths : List Path) : List Path :=
  paths.flatMap (filesOfPath fs)

/-! ## Modules -/

/-- The parts of a file's path below the project's directory; of a file elsewhere its name. -/
def relativeParts (working : List String) (root p : Path) : List String :=
  match Path.below? (root.resolve working) (p.resolve working) with
  | some parts => parts
  | none => if p.name = "" then [] else [p.name]

/-- The parts without the ending of the last one. -/
def withoutEnding : List String → List String
  | [] => []
  | [last] => [String.ofList (Path.splitEnding last.toList).1]
  | part :: rest => part :: withoutEnding rest

/-- The parts of a module's name: a package goes by its directory, and the source directory of a
project is not part of the name. -/
def moduleParts (parts : List String) : List String :=
  let parts := withoutEnding parts
  let parts := if parts.getLast? = some "__init__" then parts.dropLast else parts
  if parts.head? = some "src" then parts.drop 1 else parts

/-- The name under which a file is imported. -/
def moduleName (working : List String) (root p : Path) : Except Fault String :=
  match relativeParts working root p with
  | [] => .error .namelessPath
  | parts => .ok (".".intercalate (moduleParts parts))

/-! ## Classes -/

/-- Why a file was skipped. -/
inductive Skip where
  | unreadable (cause : FileFault)
  | noReading (cause : Source.ReadingFault)
  deriving DecidableEq, Repr

/-- The wording of a skipped file. -/
def Skip.message : Skip → String
  | .unreadable cause => "read failed: " ++ cause.message
  | .noReading cause => "LibCST parse failed: " ++ cause.message

/-- What was found: the entity classes, and the files that were skipped. -/
structure Findings where
  types : List EntityType := []
  skipped : List (Path × Skip) := []
  deriving Repr

/-- The warnings about skipped files. -/
def Findings.warnings (f : Findings) : List String :=
  f.skipped.map fun (path, skip) => path.text ++ ": " ++ skip.message

/-- Looks into one file. -/
def look (fs : FileSystem) (root : Path) (base : String) (found : Findings) (p : Path) :
    Except Fault Findings :=
  match fs.readText p with
  | .error .nullInPath => .error (.file .nullInPath)
  | .error cause => .ok { found with skipped := found.skipped ++ [(p, .unreadable cause)] }
  | .ok text =>
    match Source.statementsOf text with
    | .error (.noReading cause) =>
      .ok { found with skipped := found.skipped ++ [(p, .noReading cause)] }
    | .error (.unsound cause) => .error (.unsound cause)
    | .ok body => do
      let owner ← moduleName fs.working root p
      let types := (Source.entityNames base body).map fun name => ⟨name, owner⟩
      return { found with types := found.types ++ types }

/-- Looks into all files that the paths stand for. -/
def discover (fs : FileSystem) (root : Path) (base : String) (paths : List Path) :
    Except Fault Findings :=
  (filesOfPaths fs paths).foldlM (look fs root base) {}

end SampleTypes.Discovery
