import SampleTypes.Files.FileSystem
import SampleTypes.Settings
import SampleTypes.Toml.Reader

/-!
# The configuration file

Where the configuration is found and how much of it survives: a file that is missing, cannot be
opened or is not well formed counts as empty. Only a file whose octets are no text, and a path that
no file can have, are faults.
-/

namespace SampleTypes.Configuration

open Files (FileSystem Path)

/-- The name of the configuration file in a project's directory. -/
def fileName : String := "ldsynth.toml"

/-- The configuration file: the one asked for, or the one in the project's directory. -/
def location (root : Path) (asked : Option Path) : Path :=
  asked.getD (root.join (Path.ofText fileName))

/-- The configuration that a text writes; a malformed one is empty. -/
def ofText (text : String) : Except Fault Section :=
  match Toml.read text with
  | .ok config => .ok config
  | .error .malformed => .ok []
  | .error (.longInteger digits) => .error (.longInteger digits)

/-- The configuration in a file. -/
def load (fs : FileSystem) (root : Path) (asked : Option Path) : Except Fault Section :=
  match fs.readText (location root asked) with
  | .ok text => ofText text
  | .error (.os _) => .ok []
  | .error other => .error (.file other)

/-- The section about synthesis. -/
def synthesisPart (config : Section) : Section :=
  Section.part "synthesis" config

/-- The section about scaffolding. -/
def scaffoldPart (config : Section) : Section :=
  Section.part "scaffold" config

end SampleTypes.Configuration
