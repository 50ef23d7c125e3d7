import SampleTypes.Command.Run

/-!
# The places that a request looks at

A command runs on files that are given as a value, so whoever runs it on a disk has to know
beforehand which part of the disk matters. That is little: the configuration comes first, and with
it everything else is known, the samples that it declares, the paths that are scanned, and where
the output goes.
-/

namespace SampleTypes.Command

open Files (Path)

/-- The options that a request shares with others. -/
def Request.common : Request → Common
  | .synth common _ => common
  | .build common _ => common
  | .scaffold common _ => common

/-- The place of the configuration. -/
def Request.configurationPlace (r : Request) : Path :=
  Configuration.location r.common.root r.common.config

/-- The sample that an entry of the declared models names. -/
def sampleOf? (root : Path) (entry : Setting) : Option Path :=
  match Assoc.get? "sample" entry.toSection with
  | some (.text sample) => some (DeclaredModel.samplePath root sample)
  | _ => none

/-- The samples of the declared models. -/
def declaredSamples (root : Path) (config : Section) : List Path :=
  match Assoc.get? "models" config with
  | some (.list entries) => entries.filterMap (sampleOf? root)
  | _ => []

/-- The places that matter besides the configuration. -/
def Request.places (config : Section) : Request → List Path
  | .synth _ request => request.sample :: request.output.toList
  | .build common request =>
    let settings := Section.merge [("out_dir", given (request.outDir.map Path.text))]
      (Configuration.synthesisPart config)
    (outputDirectory common.root settings).toOption.toList ++ declaredSamples common.root config
  | .scaffold common request =>
    scanPaths common.root request.paths (Configuration.scaffoldPart config) ++
      declaredSamples common.root config ++ request.output.toList

end SampleTypes.Command
