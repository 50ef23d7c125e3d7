import SampleTypes.Assoc
import SampleTypes.Fault
import SampleTypes.Json.Value
import SampleTypes.Toml.Moment

/-!
# Settings

The values of a configuration: those of a TOML file, and `unset` for an option that was not given.
Sections are merged by name; an unset value never hides a default.
-/

namespace SampleTypes

open SampleTypes.Decimal (Binary64)
open SampleTypes.Text (Literal)

/-- A configured value. -/
inductive Setting where
  | unset
  | bool (value : Bool)
  | int (value : Int)
  | float (value : Binary64)
  | text (value : String)
  | moment (value : Toml.Moment)
  | list (items : List Setting)
  | table (entries : List (String × Setting))
  deriving Repr

/-- A section of a configuration. -/
abbrev Section := List (String × Setting)

namespace Setting

mutual

/-- The setting that a document value stands for. -/
def ofDocument : Json.Value → Setting
  | .null => .unset
  | .bool b => .bool b
  | .int n => .int n
  | .float x => .float x
  | .string s => .text s
  | .array items => .list (ofItems items)
  | .object members => .table (ofMembers members)

/-- The settings of the items of an array. -/
def ofItems : List Json.Value → List Setting
  | [] => []
  | item :: items => ofDocument item :: ofItems items

/-- The settings of the members of an object. -/
def ofMembers : List (String × Json.Value) → List (String × Setting)
  | [] => []
  | (name, value) :: members => (name, ofDocument value) :: ofMembers members

end

mutual

/-- The setting as messages show it. -/
def literal : Setting → Literal
  | .unset => .none
  | .bool b => .bool b
  | .int n => .int n
  | .float x => .float x
  | .text s => .text s
  | .moment m => .shown m.shown
  | .list items => .list (literalItems items)
  | .table entries => .table (literalEntries entries)

/-- The items of a list as messages show them. -/
def literalItems : List Setting → List Literal
  | [] => []
  | item :: items => item.literal :: literalItems items

/-- The entries of a table as messages show them. -/
def literalEntries : List (String × Setting) → List (String × Literal)
  | [] => []
  | (name, value) :: entries => (name, value.literal) :: literalEntries entries

end

/-- The setting as plain text: a text is itself, a moment its standard text, and anything else
what messages show. -/
def plain : Setting → String
  | .text s => s
  | .moment m => m.textWith " "
  | other => other.literal.written

/-- The setting as a message shows it, unless a whole number in it is too long. -/
def shown? (setting : Setting) : Except Fault String :=
  if setting.literal.isShowable then .ok setting.literal.written else .error .unshownInteger

/-- The setting as plain text, unless a whole number in it is too long. -/
def plain? (setting : Setting) : Except Fault String :=
  if setting.literal.isShowable then .ok setting.plain else .error .unshownInteger

/-- The setting counts as no answer: it is empty, zero, off or unset. -/
def isBlank : Setting → Bool
  | .unset => true
  | .bool b => !b
  | .int n => n = 0
  | .float x => x.toInt? = some 0
  | .text s => s = ""
  | .moment _ => false
  | .list items => items.isEmpty
  | .table entries => entries.isEmpty

/-- The section that a setting is; anything but a table is an empty one. -/
def toSection : Setting → Section
  | .table entries => entries
  | _ => []

/-- Whether the setting counts as not given. -/
def isUnset : Setting → Bool
  | .unset => true
  | _ => false

end Setting

namespace Section

/-- The defaults with every given option in place of its default. -/
def merge (options defaults : Section) : Section :=
  options.foldl (fun merged (name, value) =>
    if value.isUnset then merged else Assoc.put name value merged) defaults

/-- The part of a configuration under a name; anything but a table counts as empty. -/
def part (name : String) (config : Section) : Section :=
  match Assoc.get? name config with
  | some setting => setting.toSection
  | none => []

/-- The name of the entry that is a reason and no detail. -/
def reasonName : String := "reason"

/-- The fault of an unreachable place about which a section gives details, and the reason if no
other reason is given. -/
def unreachable (reason : Option String) (details : Section) : Fault :=
  match reason, Assoc.get? reasonName details with
  | some _, some _ => .repeatedReason
  | none, some stated =>
    .unreachable (if stated.isBlank then "" else stated.plain)
      (Setting.literalEntries (details.filter fun entry => entry.1 ≠ reasonName))
  | reason, none => .unreachable (reason.getD "") (Setting.literalEntries details)

end Section

end SampleTypes
