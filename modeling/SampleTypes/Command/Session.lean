import SampleTypes.Fault
import SampleTypes.Files.FileSystem

/-!
# A run of a command

While a command runs it has the files, what it has printed so far, and the possibility to stop: with
an exit code, or because of a fault that it does not catch. Files and output stay as they are when
it stops.

Output does not go to a terminal, so terminal escapes are taken out of everything printed.
-/

namespace SampleTypes.Command

open Files (FileSystem Path)

/-- Why a command stops before its end. -/
inductive Stop where
  | exit (code : Nat)
  | fault (cause : Fault)
  deriving Repr

/-- What a running command works on. -/
structure Session where
  files : FileSystem
  stdout : List Char := []
  stderr : List Char := []

/-- An action of a command. -/
abbrev Action := ExceptT Stop (StateM Session)

/-- The exit code for fatal warnings. -/
def warningsCode : Nat := 1

/-- The exit code for errors. -/
def errorCode : Nat := 2

/-- The letter that ends a terminal escape. -/
def isEscapeEnd (c : Char) : Bool :=
  ('a' ≤ c && c ≤ 'z') || ('A' ≤ c && c ≤ 'Z')

/-- The characters between the start and the end of a terminal escape. -/
def isEscapeInside (c : Char) : Bool :=
  ('0' ≤ c && c ≤ '9') || c = ';' || c = '?'

/-- The text after a terminal escape, read after its first two characters. -/
def afterEscape? (s : List Char) : Option (List Char) :=
  match s.dropWhile isEscapeInside with
  | c :: rest => if isEscapeEnd c then some rest else none
  | [] => none

/-- The text without terminal escapes. Each step takes a character at least. -/
def stripEscapes : (fuel : Nat) → List Char → List Char
  | 0, s => s
  | _ + 1, [] => []
  | fuel + 1, c :: rest =>
    match c, rest with
    | '\x1b', '[' :: inside =>
      match afterEscape? inside with
      | some after => stripEscapes fuel after
      | none => c :: stripEscapes fuel rest
    | _, _ => c :: stripEscapes fuel rest

/-- A printed text: without terminal escapes. -/
def printed (s : String) : List Char :=
  stripEscapes s.length s.toList

namespace Action

/-- Prints a text on standard output. -/
def print (s : String) : Action Unit :=
  modify fun session => { session with stdout := session.stdout ++ printed s }

/-- Prints a line on standard error. -/
def complain (line : String) : Action Unit :=
  modify fun session => { session with stderr := session.stderr ++ printed (line ++ "\n") }

/-- The files as they are now. -/
def files : Action FileSystem :=
  return (← get).files

/-- Reports an error and stops. -/
def fail {α : Type} (message : String) : Action α := do
  complain ("error: " ++ message)
  throw (.exit errorCode)

/-- The result of a step whose faults leave the command. -/
def expect {α : Type} (result : Except Fault α) : Action α :=
  match result with
  | .ok a => return a
  | .error cause => throw (.fault cause)

/-- The result of a step whose reported faults are told to the user. -/
def report {α : Type} (result : Except Fault α) : Action α :=
  match result with
  | .ok a => return a
  | .error cause => if cause.isReported then fail cause.message else throw (.fault cause)

/-- Prints warnings and counts them. -/
def warn (lead : String) (warnings : List String) : Action Nat := do
  warnings.forM fun warning => complain ("warning: " ++ lead ++ warning)
  return warnings.length

/-- The target that stands for standard output. -/
def stdoutName : String := "-"

/-- The text with a line feed at its end. -/
def withLineEnd (s : String) : String :=
  if s.toList.getLast? = some '\n' then s else s ++ "\n"

/-- Writes a text to a file, with the directories above it. -/
def writeFile (target : Path) (s : String) : Action Unit := do
  let session ← get
  let (files, result) := session.files.writeText target s
  set { session with files := files }
  expect (result.mapError Fault.file)

/-- Writes output to its target: a file, or standard output if there is none. -/
def emit (target : Option Path) (s : String) : Action Unit :=
  match target with
  | none => print (withLineEnd s)
  | some path => if path.text = stdoutName then print (withLineEnd s) else writeFile path s

end Action

/-- How a command ended. -/
inductive Ending where
  | exit (code : Nat)
  /-- The command line was not understood. -/
  | misuse
  | fault (cause : Fault)
  deriving Repr

/-- What a command leaves behind. -/
structure Report where
  ending : Ending
  stdout : String := ""
  stderr : String := ""
  files : FileSystem

/-- Runs an action on some files. -/
def Action.run (action : Action Unit) (fs : FileSystem) : Report :=
  let (result, session) := StateT.run (ExceptT.run action) { files := fs }
  { ending :=
      match result with
      | .ok () => .exit 0
      | .error (.exit code) => .exit code
      | .error (.fault cause) => .fault cause
    stdout := String.ofList session.stdout
    stderr := String.ofList session.stderr
    files := session.files }

end SampleTypes.Command
