import SampleTypes.Fault
import SampleTypes.Files.Path
import SampleTypes.Text.Order
import SampleTypes.Text.Utf8

/-!
# A file system as a value

Directories, files and one kind of special file that swallows what is written to it. Reading and
writing are functions on the whole tree, so what a command does to files is the difference of two
values. A path leads along the parts from the root or from the working directory; a part of two
points leads back.
-/

namespace SampleTypes.Files

/-- What a name in a directory stands for. -/
inductive Entry where
  | file (octets : ByteArray)
  /-- Reads as empty, and keeps nothing. -/
  | sink
  | directory (entries : List (String × Entry))
  deriving Inhabited

/-- A tree of files with a working directory. -/
structure FileSystem where
  root : List (String × Entry) := []
  working : List String := []

namespace Entry

/-- The entry of a directory with the given name. -/
def child? (name : String) : List (String × Entry) → Option Entry
  | [] => none
  | (n, entry) :: rest => if n = name then some entry else child? name rest

/-- The directory with an entry in place of the one of the same name, or one more. -/
def putChild (name : String) (entry : Entry) : List (String × Entry) → List (String × Entry)
  | [] => [(name, entry)]
  | (n, e) :: rest => if n = name then (n, entry) :: rest else (n, e) :: putChild name entry rest

/-- The entry at a resolved path below a directory. -/
def at? : List String → Entry → Option Entry
  | [], e => some e
  | name :: path, .directory entries => (child? name entries).bind (at? path)
  | _ :: _, _ => none

/-- Puts an entry at a resolved path below a directory. The directories on the way are there. -/
def putAt (entry : Entry) : List String → List (String × Entry) → List (String × Entry)
  | [], entries => entries
  | [name], entries => putChild name entry entries
  | name :: path, entries =>
    match child? name entries with
    | some (.directory inner) => putChild name (.directory (putAt entry path inner)) entries
    | _ => entries

mutual

/-- All files of an entry, with their paths. -/
def files (path : List String) : Entry → List (List String × ByteArray)
  | .file octets => [(path, octets)]
  | .sink => []
  | .directory entries => filesOf path entries

/-- All files of the entries of a directory, with their paths. -/
def filesOf (path : List String) : List (String × Entry) → List (List String × ByteArray)
  | [] => []
  | (name, entry) :: rest => files (path ++ [name]) entry ++ filesOf path rest

end

end Entry

namespace FileSystem

/-- Why a path leads nowhere. -/
inductive Dead where
  | missing
  | notDirectory
  deriving DecidableEq, Repr

/-- The refusal of a path that leads nowhere. -/
def Dead.error (p : Path) : Dead → OsError
  | .missing => .notFound p.text
  | .notDirectory => .notDirectory p.text

/-- The entry at a resolved path. -/
def entryAt? (fs : FileSystem) (path : List String) : Option Entry :=
  Entry.at? path (.directory fs.root)

/-- Follows parts from a resolved path on. Every part is looked up in a directory. -/
def follow (fs : FileSystem) : (here : List String) → List String → Except Dead (List String)
  | here, [] => .ok here
  | here, part :: rest =>
    match fs.entryAt? here with
    | some (.directory entries) =>
      if part = ".." then fs.follow here.dropLast rest
      else
        match Entry.child? part entries with
        | some _ => fs.follow (here ++ [part]) rest
        | none => .error .missing
    | some _ => .error .notDirectory
    | none => .error .missing

/-- Where a path starts. -/
def origin (fs : FileSystem) (p : Path) : List String :=
  if p.isAbsolute then [] else fs.working

/-- The resolved path and the entry that a path leads to. -/
def find (fs : FileSystem) (p : Path) : Except Dead Entry := do
  let place ← fs.follow (fs.origin p) p.parts
  match fs.entryAt? place with
  | some entry => return entry
  | none => .error .missing

/-- Whether a path leads to a directory. -/
def isDirectory (fs : FileSystem) (p : Path) : Bool :=
  match fs.find p with
  | .ok (.directory _) => !p.hasNull
  | _ => false

/-- The octets of the file that a path leads to. -/
def readOctets (fs : FileSystem) (p : Path) : Except FileFault ByteArray :=
  if p.hasNull then .error .nullInPath
  else
    match fs.find p with
    | .ok (.file octets) => .ok octets
    | .ok .sink => .ok .empty
    | .ok (.directory _) => .error (.os (.isDirectory p.text))
    | .error dead => .error (.os (dead.error p))

/-- The text of the file that a path leads to, with line feeds as its line endings. -/
def readText (fs : FileSystem) (p : Path) : Except FileFault String := do
  let octets ← fs.readOctets p
  (Text.Utf8.readText octets.data.toList).mapError .notText

/-- Where a new entry under a path would stand: a name in an existing directory, or the entry that
is there. -/
def place (fs : FileSystem) (p : Path) : Except Dead (List String × Option Entry) := do
  match p.parts.getLast? with
  | none => return (fs.origin p, fs.entryAt? (fs.origin p))
  | some last =>
    let here ← fs.follow (fs.origin p) p.parts.dropLast
    match fs.entryAt? here with
    | some (.directory entries) =>
      if last = ".." then return (here.dropLast, fs.entryAt? here.dropLast)
      else return (here ++ [last], Entry.child? last entries)
    | some _ => .error .notDirectory
    | none => .error .missing

/-- The tree with an entry at a resolved path. -/
def put (fs : FileSystem) (path : List String) (entry : Entry) : FileSystem :=
  { fs with root := Entry.putAt entry path fs.root }

/-- Makes one directory, whose parent must be there. -/
def makeDirectory (fs : FileSystem) (p : Path) : Except OsError FileSystem :=
  match fs.place p with
  | .ok (path, none) => .ok (fs.put path (.directory []))
  | .ok (_, some _) => .error (.exists p.text)
  | .error dead => .error (dead.error p)

/-- Makes a directory with all that are missing above it. One that is there already is left
alone. The length of the path bounds the number of directories to make; those made before a refusal
stay. -/
def makeDirectories (fs : FileSystem) (p : Path) : (steps : Nat) → FileSystem × Except OsError Unit
  | 0 => (fs, .error (.notFound p.text))
  | steps + 1 =>
    match fs.makeDirectory p with
    | .ok made => (made, .ok ())
    | .error (.notFound text) =>
      if p.parts.isEmpty then (fs, .error (.notFound text))
      else
        match fs.makeDirectories p.parent steps with
        | (above, .error cause) => (above, .error cause)
        | (above, .ok ()) =>
          match above.makeDirectory p with
          | .ok made => (made, .ok ())
          | .error cause => (above, if above.isDirectory p then .ok () else .error cause)
    | .error cause => (fs, if fs.isDirectory p then .ok () else .error cause)

/-- Writes octets to the file that a path leads to, which is made if its directory is there. -/
def writeOctets (fs : FileSystem) (p : Path) (octets : ByteArray) : Except OsError FileSystem :=
  match fs.place p with
  | .ok (path, none) => .ok (fs.put path (.file octets))
  | .ok (path, some (.file _)) => .ok (fs.put path (.file octets))
  | .ok (_, some .sink) => .ok fs
  | .ok (_, some (.directory _)) => .error (.isDirectory p.text)
  | .error dead => .error (dead.error p)

/-- Writes a text to a file, with all directories above it. -/
def writeText (fs : FileSystem) (p : Path) (s : String) : FileSystem × Except FileFault Unit :=
  if p.parent.hasNull then (fs, .error .nullInPath)
  else
    match fs.makeDirectories p.parent (p.parts.length + 1) with
    | (made, .error cause) => (made, .error (.os cause))
    | (made, .ok ()) =>
      if p.hasNull then (made, .error .nullInPath)
      else
        match made.writeOctets p s.toUTF8 with
        | .ok written => (written, .ok ())
        | .error cause => (made, .error (.os cause))

/-- The files below the working directory, with their paths from there. -/
def workingFiles (fs : FileSystem) : List (List String × ByteArray) :=
  match fs.entryAt? fs.working with
  | some entry => Entry.files [] entry
  | none => []

end FileSystem

end SampleTypes.Files
