import SampleTypes.Command.Arguments
import SampleTypes.Command.Session
import SampleTypes.Discovery
import SampleTypes.Rendering
import SampleTypes.Scaffold

/-!
# The commands

Three commands: `synth` writes the types of one sample, `build` those of every declared model, and
`scaffold` the repositories of entity classes. Options of the command line come before those of
the configuration. Warnings are printed as they arise; whether they are fatal is decided when all
output is written.
-/

namespace SampleTypes.Command

open Files (FileSystem Path)

/-- An option of the command line as a setting. -/
def given (text : Option String) : Setting :=
  match text with
  | some s => .text s
  | none => .unset

/-- A switch of the command line as a setting. -/
def switched (setting : Option Bool) : Setting :=
  match setting with
  | some b => .bool b
  | none => .unset

/-- The configuration that the shared options lead to. -/
def configuration (common : Common) : Action Section := do
  Action.expect (Configuration.load (← Action.files) common.root common.config)

/-- The form of output that is asked for. -/
def outputForm (settings : Section) : Action OutputForm :=
  let asked := (Assoc.get? "kind" settings).getD (.text OutputForm.classModule.name)
  let form :=
    match asked with
    | .text name => OutputForm.ofName? name
    | _ => none
  match form with
  | some form => return form
  | none => do
    let shown ← Action.expect asked.shown?
    Action.fail ("unknown kind " ++ shown ++ "; expected one of " ++
      ", ".intercalate (OutputForm.all.map OutputForm.name))

/-- Ends with the code for warnings if there were any and they are fatal. -/
def settleWarnings (settings : Section) (warned : Nat) : Action Unit :=
  if warned ≠ 0 ∧ Settings.failOnWarnings (.table settings) then throw (.exit warningsCode)
  else return ()

/-- The part of a text before its first point. -/
def beforePoint (s : String) : String :=
  String.ofList (s.toList.takeWhile (· ≠ '.'))

/-- The name of the root type: the one asked for, or one made from the name of the sample. -/
def rootName (request : SynthRequest) : String :=
  match request.name with
  | some name =>
    if name = "" then Identifier.className (beforePoint request.sample.name) else name
  | none => Identifier.className (beforePoint request.sample.name)

/-- Writes the types of one sample. -/
def synth (common : Common) (request : SynthRequest) : Action Unit := do
  let defaults := Configuration.synthesisPart (← configuration common)
  let settings := Section.merge
    [("kind", given request.kind), ("fail_on_warnings", switched request.failOnWarnings)] defaults
  let form ← outputForm settings
  let plan ← Action.report (planOfFile (← Action.files) (Settings.discriminator (.table defaults))
    (rootName request) request.sample)
  let warned ← Action.warn "" plan.warnings
  let output ← Action.expect (plan.render form)
  Action.emit request.output output
  settleWarnings settings warned

/-- The directory for generated files. -/
def outputDirectory (root : Path) (settings : Section) : Except Fault Path :=
  ((Assoc.get? "out_dir" settings).getD (.text "generated")).plain?.map fun name =>
    root.join (Path.ofText name)

/-- The generated file of a declared model. -/
def targetOf (directory : Path) (form : OutputForm) (m : DeclaredModel) : Path :=
  directory.join (Path.ofText (m.stem ++ form.suffix))

/-- Writes the types of one declared model; answers the number of warnings. -/
def buildModel (discriminator : String) (form : OutputForm) (directory : Path)
    (m : DeclaredModel) : Action Nat := do
  let plan ← Action.report (m.plan discriminator)
  let warned ← Action.warn (m.name ++ ": ") plan.warnings
  let target := targetOf directory form m
  let output ← Action.expect (plan.render form)
  Action.emit (some target) output
  Action.print ("Wrote " ++ m.name ++ ": " ++ target.text ++ "\n")
  return warned

/-- Writes the types of declared models one after another; answers the number of warnings. -/
def buildModels (discriminator : String) (form : OutputForm) (directory : Path) :
    List DeclaredModel → Action Nat
  | [] => return 0
  | m :: models => do
    let warned ← buildModel discriminator form directory m
    let others ← buildModels discriminator form directory models
    return warned + others

/-- Writes the types of every declared model. -/
def build (common : Common) (request : BuildRequest) : Action Unit := do
  let config ← configuration common
  let defaults := Configuration.synthesisPart config
  let settings := Section.merge
    [("kind", given request.kind), ("out_dir", given (request.outDir.map Path.text)),
     ("fail_on_warnings", switched request.failOnWarnings)] defaults
  let form ← outputForm settings
  let directory ← Action.expect (outputDirectory common.root settings)
  let models ← Action.report (DeclaredModel.ofConfiguration (← Action.files) common.root config)
  if models.isEmpty then Action.print "No models declared; nothing to build.\n"
  else
    let warned ← buildModels (Settings.discriminator (.table defaults)) form directory models
    settleWarnings settings warned

/-- The paths to scan: those asked for, or those configured. -/
def scanPaths (root : Path) (asked : List Path) (defaults : Section) : List Path :=
  if asked.isEmpty then
    (Settings.scaffoldPaths (.table defaults)).map fun p => root.join (Path.ofText p)
  else asked

/-- The types and their module as a document. -/
def scaffoldDocument (types : List EntityType) (source : String) (warnings : List String) :
    Json.Value :=
  .object
    [("types", .array (types.map fun t =>
      .object [("name", .string t.name), ("module", .string t.moduleName)])),
     ("source", .string source), ("warnings", Transport.texts warnings)]

/-- Writes repositories for entity classes. -/
def scaffold (common : Common) (request : ScaffoldRequest) : Action Unit := do
  let defaults := Configuration.scaffoldPart (← configuration common)
  let settings := Section.merge [("base", given request.base)] defaults
  let base ← Action.expect ((Assoc.get? "base" settings).getD (.text Scaffold.defaultBase)).plain?
  let found ← Action.expect (Discovery.discover (← Action.files) common.root base
    (scanPaths common.root request.paths defaults))
  discard (Action.warn "" found.warnings)
  let declared ←
    if request.includeModels then do
      let config ← configuration common
      Action.report (DeclaredModel.ofConfiguration (← Action.files) common.root config)
    else pure []
  let types := found.types ++ declared.map DeclaredModel.entityType
  let source ← Action.expect (Scaffold.render types)
  let output :=
    if request.asJson then (scaffoldDocument types source found.warnings).indented ++ "\n"
    else source
  Action.emit request.output output

/-- Carries out a request. -/
def Request.action : Request → Action Unit
  | .synth common request => Command.synth common request
  | .build common request => Command.build common request
  | .scaffold common request => Command.scaffold common request

/-- Runs the command that the words of a command line ask for. -/
def run (fs : FileSystem) (words : List String) : Report :=
  match Request.ofWords words with
  | .ok request => request.action.run fs
  | .error .misuse => { ending := .misuse, files := fs }
  | .error .nullInPath => { ending := .fault (.file .nullInPath), files := fs }

end SampleTypes.Command
