import SampleTypes.Command.Places

/-!
# The program

The outer layer: it takes the part of the disk that the command line is about as a value, runs the
command on it, prints what the command printed, writes the files that the command left different,
and ends with its exit code.
-/

namespace SampleTypes.Program

open Files (Entry FileSystem Path)

/-- What is printed when the command line is not understood. -/
def usage : String := "Usage: ldsynth (synth | build | scaffold) [OPTIONS] [ARGS]..."

/-- The exit code when a command did not come to its end. -/
def failureCode : UInt8 := 1

/-- A place on the disk: a name in the directory at a resolved path. -/
def diskPlace (directory : List String) (name : String) : IO.FS.DirEntry :=
  { root := "/" ++ "/".intercalate directory, fileName := name }

/-- What stands at a place, with all that is below it. Inside, links to directories are not
followed. -/
partial def readEntry (place : IO.FS.DirEntry) : IO Entry := do
  match (← place.path.metadata).type with
  | .dir =>
    let children ← (← place.path.readDir).toList.mapM fun child => do
      let linked := (← child.path.symlinkMetadata).type == .symlink && (← child.path.isDir)
      return (child.fileName, ← if linked then pure (.directory []) else readEntry child)
    return .directory children
  | .file => return .file (← IO.FS.readBinFile place.path)
  | _ => return .sink

/-- Takes over what stands under a name in a directory. What cannot be read counts as missing. -/
def takeOver (fs : FileSystem) (here : List String) (name : String) : IO FileSystem := do
  match ← (readEntry (diskPlace here name)).toBaseIO with
  | .ok entry => return fs.put (here ++ [name]) entry
  | .error _ => return fs

/-- Takes over the directories that lead to a place and what stands there. -/
def lookFrom (fs : FileSystem) (here : List String) : List String → IO FileSystem
  | [] => return fs
  | [name] => takeOver fs here name
  | name :: rest => do
    let there := here ++ [name]
    if ← (diskPlace here name).path.isDir then
      let known := (fs.entryAt? there).getD (.directory [])
      lookFrom (fs.put there known) there rest
    else takeOver fs here name

/-- Takes over what a path leads to. -/
def look (fs : FileSystem) (p : Path) : IO FileSystem :=
  lookFrom fs [] (p.resolve fs.working)

/-- The files that a request is about. -/
def filesFor (working : List String) (request : Command.Request) : IO FileSystem := do
  let known ← look { working := working } request.configurationPlace
  let config := Configuration.load known request.common.root request.common.config
  (request.places (config.toOption.getD [])).foldlM look known

/-- Writes the files that are new or different. -/
def writeChanges (old new : FileSystem) : IO Unit := do
  let before := Entry.filesOf [] old.root
  for (path, octets) in Entry.filesOf [] new.root do
    unless before.contains (path, octets) do
      IO.FS.createDirAll (diskPlace path.dropLast "").root
      IO.FS.writeBinFile (diskPlace path.dropLast (path.getLast?.getD "")).path octets

/-- Prints and writes what a command leaves behind; answers the exit code. -/
def deliver (old : FileSystem) (report : Command.Report) : IO UInt8 := do
  writeChanges old report.files
  IO.print report.stdout
  IO.eprint report.stderr
  match report.ending with
  | .exit code => return code.toUInt8
  | .misuse =>
    IO.eprintln usage
    return Command.errorCode.toUInt8
  | .fault cause =>
    IO.eprintln cause.message
    return failureCode

end SampleTypes.Program

open SampleTypes in
/-- Runs the command that the words of the command line ask for. -/
def main (words : List String) : IO UInt32 := do
  let working := (← IO.currentDir).components.filter (· ≠ "")
  let files ←
    match Command.Request.ofWords words with
    | .ok request => Program.filesFor working request
    | .error _ => pure { working := working }
  return (← Program.deliver files (Command.run files words)).toUInt32
