import SampleTypes.Files.Path

/-!
# Command lines

What the words of a command line ask for. Options are written `--name value`, `--name=value`, or in
one letter `-o value` and `-ovalue`; after two dashes alone there are none. Of an option that is
given more than once the last one counts.

A command line that is not understood has no request, and how it is refused is not decided here.
Paths are looked at before anything is done, so one that no file can have ends the matter at once.
-/

namespace SampleTypes.Command

open Files (Path)

/-- What an option does with the words after it. -/
inductive Arity where
  /-- It takes the next word as its value. -/
  | value
  /-- It sets its key to a truth value. -/
  | flag (setting : Bool)
  deriving DecidableEq, Repr

/-- An option: how it is written, what it is about, and what it takes. -/
structure OptionSpec where
  spelling : String
  key : String
  arity : Arity
  deriving DecidableEq, Repr

/-- A command line taken apart. -/
structure Parsed where
  values : List (String × String) := []
  flags : List (String × Bool) := []
  positional : List String := []
  deriving DecidableEq, Repr

namespace Parsed

/-- The value given for a key. -/
def value? (key : String) (p : Parsed) : Option String :=
  (p.values.reverse.find? fun pair => pair.1 = key).map Prod.snd

/-- The truth value given for a key. -/
def flag? (key : String) (p : Parsed) : Option Bool :=
  (p.flags.reverse.find? fun pair => pair.1 = key).map Prod.snd

/-- The path given for a key. -/
def path? (key : String) (p : Parsed) : Option Path :=
  (p.value? key).map Path.ofText

/-- One more value. -/
def addValue (key value : String) (p : Parsed) : Parsed :=
  { p with values := p.values ++ [(key, value)] }

/-- One more truth value. -/
def addFlag (key : String) (setting : Bool) (p : Parsed) : Parsed :=
  { p with flags := p.flags ++ [(key, setting)] }

/-- More words that are no options. -/
def addPositional (words : List String) (p : Parsed) : Parsed :=
  { p with positional := p.positional ++ words }

end Parsed

/-- The option with a spelling. -/
def findOption (specs : List OptionSpec) (spelling : String) : Option OptionSpec :=
  specs.find? fun spec => spec.spelling = spelling

/-- A word cut at its first equals sign. -/
def splitEquals (word : String) : String × Option String :=
  let cs := word.toList
  match cs.dropWhile (· ≠ '=') with
  | [] => (word, none)
  | _ :: rest => (String.ofList (cs.takeWhile (· ≠ '=')), some (String.ofList rest))

/-- Takes the value of an option: the one attached to it, else the next word. -/
def takeValue (spec : OptionSpec) (attached : Option String) (rest : List String) (p : Parsed) :
    Option (Parsed × List String) :=
  match attached, rest with
  | some value, rest => some (p.addValue spec.key value, rest)
  | none, value :: rest => some (p.addValue spec.key value, rest)
  | none, [] => none

/-- Options of one letter, written together after one dash. The first that takes a value takes the
letters behind it, or the next word. -/
def shortOptions (specs : List OptionSpec) :
    List Char → List String → Parsed → Option (Parsed × List String)
  | [], rest, p => some (p, rest)
  | c :: letters, rest, p =>
    match findOption specs (String.ofList ['-', c]) with
    | none => none
    | some spec =>
      match spec.arity with
      | .flag setting => shortOptions specs letters rest (p.addFlag spec.key setting)
      | .value =>
        takeValue spec (if letters.isEmpty then none else some (String.ofList letters)) rest p

/-- Takes one option and its value. -/
def takeOption (specs : List OptionSpec) (word : String) (rest : List String) (p : Parsed) :
    Option (Parsed × List String) :=
  let (spelling, attached) := splitEquals word
  match findOption (specs.filter fun spec => "--".toList.isPrefixOf spec.spelling.toList)
      spelling with
  | some spec =>
    match spec.arity, attached with
    | .value, attached => takeValue spec attached rest p
    | .flag setting, none => some (p.addFlag spec.key setting, rest)
    | .flag _, some _ => none
  | none =>
    if "--".toList.isPrefixOf word.toList then none
    else shortOptions specs (word.toList.drop 1) rest p

/-- A word that is written as an option. -/
def isOption (word : String) : Bool :=
  word.toList.head? = some '-' && 1 < word.length

/-- Takes a command line apart. Every step takes a word at least, so the number of words is enough
`fuel`. -/
def takeApart (specs : List OptionSpec) : (fuel : Nat) → List String → Parsed → Option Parsed
  | _, [], p => some p
  | 0, _ :: _, _ => none
  | fuel + 1, word :: rest, p =>
    if word = "--" then some (p.addPositional rest)
    else if isOption word then
      match takeOption specs word rest p with
      | some (p, rest) => takeApart specs fuel rest p
      | none => none
    else takeApart specs fuel rest (p.addPositional [word])

/-! ## Requests -/

/-- The options that all commands share. -/
structure Common where
  /-- The project's directory. -/
  root : Path := {}
  /-- The configuration file, if another one is asked for. -/
  config : Option Path := none
  deriving DecidableEq, Repr

/-- A request for the types of one sample. -/
structure SynthRequest where
  sample : Path
  name : Option String
  kind : Option String
  output : Option Path
  failOnWarnings : Option Bool
  deriving DecidableEq, Repr

/-- A request for all declared models. -/
structure BuildRequest where
  outDir : Option Path
  kind : Option String
  failOnWarnings : Option Bool
  deriving DecidableEq, Repr

/-- A request for repositories. -/
structure ScaffoldRequest where
  paths : List Path
  base : Option String
  includeModels : Bool
  output : Option Path
  asJson : Bool
  deriving DecidableEq, Repr

/-- What a command line asks for. -/
inductive Request where
  | synth (common : Common) (request : SynthRequest)
  | build (common : Common) (request : BuildRequest)
  | scaffold (common : Common) (request : ScaffoldRequest)
  deriving DecidableEq, Repr

/-- The options about where the project is. -/
def commonOptions : List OptionSpec :=
  [⟨"--root", "root", .value⟩, ⟨"--config", "config", .value⟩]

/-- The options about fatal warnings. -/
def warningOptions : List OptionSpec :=
  [⟨"--fail-on-warnings", "fail", .flag true⟩, ⟨"--no-fail-on-warnings", "fail", .flag false⟩]

/-- The options about where output goes. -/
def outputOptions : List OptionSpec :=
  [⟨"--output", "output", .value⟩, ⟨"-o", "output", .value⟩]

/-- The options for one sample. -/
def synthOptions : List OptionSpec :=
  [⟨"--name", "name", .value⟩, ⟨"--kind", "kind", .value⟩] ++ outputOptions ++ commonOptions ++
    warningOptions

/-- The options for declared models. -/
def buildOptions : List OptionSpec :=
  [⟨"--out-dir", "out-dir", .value⟩, ⟨"--kind", "kind", .value⟩] ++ commonOptions ++
    warningOptions

/-- The options for repositories. -/
def scaffoldOptions : List OptionSpec :=
  [⟨"--base", "base", .value⟩, ⟨"--include-models", "models", .flag true⟩,
   ⟨"--no-include-models", "models", .flag false⟩, ⟨"--json", "json", .flag true⟩] ++
    outputOptions ++ commonOptions

/-- Why a command line asks for nothing. -/
inductive Refusal where
  /-- The command line was not understood. -/
  | misuse
  /-- A path holds the character NUL. -/
  | nullInPath
  deriving DecidableEq, Repr

/-- The shared options of a command line. -/
def Parsed.common (p : Parsed) : Common :=
  { root := (p.path? "root").getD {}, config := p.path? "config" }

/-- The options whose values are paths. -/
def pathKeys : List String := ["root", "config", "output", "out-dir"]

/-- Refuses paths that no file can have. -/
def refuseNull (paths : List Path) : Except Refusal Unit :=
  if paths.any Path.hasNull then .error .nullInPath else .ok ()

/-- The words of a command taken apart, with sound paths as the values of options. -/
def takeOptions (specs : List OptionSpec) (words : List String) : Except Refusal Parsed :=
  match takeApart specs words.length words {} with
  | none => .error .misuse
  | some p => do
    refuseNull (pathKeys.filterMap p.path?)
    return p

/-- The request for the types of one sample. -/
def synthOf (words : List String) : Except Refusal Request := do
  let p ← takeOptions synthOptions words
  match p.positional.map Path.ofText with
  | [] => throw .misuse
  | sample :: more =>
    refuseNull [sample]
    if more.isEmpty then
      return .synth p.common
        { sample := sample, name := p.value? "name", kind := p.value? "kind",
          output := p.path? "output", failOnWarnings := p.flag? "fail" }
    else throw .misuse

/-- The request for all declared models. -/
def buildOf (words : List String) : Except Refusal Request := do
  let p ← takeOptions buildOptions words
  if p.positional.isEmpty then
    return .build p.common
      { outDir := p.path? "out-dir", kind := p.value? "kind", failOnWarnings := p.flag? "fail" }
  else throw .misuse

/-- The request for repositories. -/
def scaffoldOf (words : List String) : Except Refusal Request := do
  let p ← takeOptions scaffoldOptions words
  let paths := p.positional.map Path.ofText
  refuseNull paths
  return .scaffold p.common
    { paths := paths, base := p.value? "base", includeModels := (p.flag? "models").getD false,
      output := p.path? "output", asJson := (p.flag? "json").getD false }

/-- The request of a command with its words. -/
def requestOf (command : String) (words : List String) : Except Refusal Request :=
  if command = "synth" then synthOf words
  else if command = "build" then buildOf words
  else if command = "scaffold" then scaffoldOf words
  else .error .misuse

/-- What the words of a command line ask for. In front of the command two dashes say nothing, and
there are no options. -/
def Request.ofWords : List String → Except Refusal Request
  | "--" :: command :: words => requestOf command words
  | command :: words => if isOption command then .error .misuse else requestOf command words
  | [] => .error .misuse

end SampleTypes.Command
