import SampleTypes.Setting
import SampleTypes.Synthesis
import SampleTypes.Text.Blank

/-!
# What the settings mean

The few settings that commands look at, each with its own rule of what counts: the discriminator
must be a text that is not empty, warnings are fatal for true, for numbers other than zero and for
the usual words, and paths may be one text with commas, or a list of such texts.

A section that is no table has no settings.
-/

namespace SampleTypes.Settings

/-- The discriminator that a section configures. -/
def discriminator (s : Setting) : String :=
  match Assoc.get? "discriminator" s.toSection with
  | some (.text name) => if name = "" then defaultDiscriminator else name
  | _ => defaultDiscriminator

/-- The words that stand for true. -/
def trueWords : List String := ["1", "true", "yes", "on"]

/-- Whether a setting counts as true. No character outside ASCII has one of the letters of these
words as its lower case, so lowering ASCII letters is enough. -/
def isTrue : Setting → Bool
  | .bool b => b
  | .int n => n ≠ 0
  | .text s => String.ofList ((Text.Blank.trim s).toList.map Char.toLower) ∈ trueWords
  | _ => false

/-- Whether a section makes warnings fatal. -/
def failOnWarnings (s : Setting) : Bool :=
  match Assoc.get? "fail_on_warnings" s.toSection with
  | some value => isTrue value
  | none => false

/-- The names in a setting: the parts of a text, or of every text in a list. -/
def nameList : Setting → List String
  | .text s => Text.Blank.commaParts s
  | .list items => items.flatMap fun
    | .text s => Text.Blank.commaParts s
    | _ => []
  | _ => []

/-- The paths that a section configures for scanning. -/
def scaffoldPaths (s : Setting) : List String :=
  match Assoc.get? "paths" s.toSection with
  | some value => nameList value
  | none => []

end SampleTypes.Settings
