import SampleTypes.Source.Defect
import SampleTypes.Text.Literal
import SampleTypes.Text.Order
import SampleTypes.Text.Utf8

/-!
# What can go wrong

Every way in which a request ends without an answer, as a cause with the data that its message
needs; `message` words them. Faults of the input (`isReported`) are told to the user in one line;
the others are faults of the surroundings or of the program, and no command catches them.
-/

namespace SampleTypes

open Text (Literal)

/-- A refusal of the file system. -/
inductive OsError where
  | notFound (path : String)
  | exists (path : String)
  | notDirectory (path : String)
  | isDirectory (path : String)
  deriving DecidableEq, Repr

/-- The wording of a refusal of the file system. -/
def OsError.message : OsError → String
  | .notFound path => "[Errno 2] No such file or directory: " ++ Literal.quote path
  | .exists path => "[Errno 17] File exists: " ++ Literal.quote path
  | .notDirectory path => "[Errno 20] Not a directory: " ++ Literal.quote path
  | .isDirectory path => "[Errno 21] Is a directory: " ++ Literal.quote path

/-- Why a text file could not be read or written. -/
inductive FileFault where
  | os (cause : OsError)
  | notText (refusal : Text.Utf8.Refusal)
  /-- No path holds the character NUL. -/
  | nullInPath
  deriving DecidableEq, Repr

/-- The wording of a file fault. -/
def FileFault.message : FileFault → String
  | .os cause => cause.message
  | .notText refusal => refusal.message
  | .nullInPath => "embedded null byte"

/-- What is wrong with the declared models; an index is the place of the entry. -/
inductive DeclarationFault where
  | notAnArray
  | notATable (index : Nat)
  | unnamed (index : Nat)
  | moduleNotText (index : Nat)
  | twoSources (index : Nat)
  | noSource (index : Nat)
  deriving DecidableEq, Repr

/-- The wording of a declaration fault. -/
def DeclarationFault.message : DeclarationFault → String
  | .notAnArray => "'models' must be an array of tables"
  | .notATable index => s!"models[{index}] must be a table"
  | .unnamed index => s!"models[{index}] is missing 'name'"
  | .moduleNotText index => s!"models[{index}].module must be a string"
  | .twoSources index => s!"models[{index}] declares both 'json' and 'sample'"
  | .noSource index => s!"models[{index}] needs a 'sample' path or inline 'json'"

/-- Why a request has no answer. -/
inductive Fault where
  /-- The sample is not a document. -/
  | malformedSample (cause : String) (line column : Int) (source : String)
  /-- The sample is a document but not an object. -/
  | unsupportedRoot (kind source : String)
  /-- The sample could not be read. -/
  | unreadableSample (path : String) (cause : FileFault)
  /-- A declared model is incomplete or contradictory. -/
  | badDeclaration (cause : DeclarationFault)
  /-- A place that no sound plan leads to. -/
  | unreachable (reason : String) (details : List (String × Literal))
  /-- No renderer has this name. -/
  | unknownRenderer (name : String)
  /-- A whole number with more digits than are accepted. -/
  | longInteger (digits : Nat)
  /-- A whole number too long to be shown. -/
  | unshownInteger
  /-- A file that is not part of the input failed. -/
  | file (cause : FileFault)
  /-- No model has this name. -/
  | missingModel (name : String)
  /-- A place behind the end of a list. -/
  | indexOutOfRange
  /-- Text that was to be a statement is none. -/
  | brokenStatement
  /-- Code that was read or is to be generated is unsound. -/
  | unsound (cause : Source.Defect)
  /-- A path that should name a file names nothing. -/
  | namelessPath
  /-- A live model cannot have an attribute of this name. -/
  | refusedAttribute
  /-- A live model cannot have an attribute of this name, which would hide how it is used. -/
  | protectedName (name : String)
  /-- A live model cannot have an attribute of this type, because its name means a bare option. -/
  | bareOption
  /-- Documents cannot be checked against the class that this name means. -/
  | uncheckedClass (name : String)
  /-- An unreachable place gives its reason twice. -/
  | repeatedReason
  deriving Repr

namespace Fault

/-- The faults of the input, which commands report in one line. -/
def isReported : Fault → Bool
  | .malformedSample .. => true
  | .unsupportedRoot .. => true
  | .unreadableSample .. => true
  | .badDeclaration _ => true
  | _ => false

/-- A message with the place it is about: the source in front, the position behind. -/
def located (cause : String) (line column : Int) (source : String) : String :=
  let position := if line = 0 then "" else s!" (line {line}, column {column})"
  let origin := if source = "" then "" else source ++ ": "
  origin ++ cause ++ position

/-- The details of an unreachable place, in the order of their names. -/
def detailText (details : List (String × Literal)) : String :=
  let ordered := details.mergeSort fun one other => decide (one.1 ≤ other.1)
  ", ".intercalate (ordered.map fun detail => detail.1 ++ "=" ++ detail.2.written)

/-- What a protected name stands for in every live model, and the start of such names. -/
def protectedMember (name : String) : String × String :=
  if "model_validate".toList.isPrefixOf name.toList then
    ("<bound method BaseModel." ++ name ++ " of <class 'pydantic.main.BaseModel'>>",
      "model_validate")
  else ("<function BaseModel." ++ name ++ ">", "model_dump")

/-- The wording of a fault. -/
def message : Fault → String
  | .malformedSample cause line column source => located cause line column source
  | .unsupportedRoot kind source =>
    (if source = "" then "" else source ++ ": ") ++
      "top-level value must be an object, got " ++ kind
  | .unreadableSample path cause => "Failed to read " ++ path ++ ": " ++ cause.message
  | .badDeclaration cause => cause.message
  | .unreachable reason details =>
    let text := if reason = "" then "never() marker reached" else reason
    if details.isEmpty then text else text ++ " (" ++ detailText details ++ ")"
  | .unknownRenderer name =>
    "unknown render kind " ++ Literal.quote name ++ "; expected one of pydantic, outline"
  | .longInteger digits =>
    s!"Exceeds the limit (4300 digits) for integer string conversion: value has {digits} digits; "
      ++ "use sys.set_int_max_str_digits() to increase the limit"
  | .unshownInteger =>
    "Exceeds the limit (4300 digits) for integer string conversion; "
      ++ "use sys.set_int_max_str_digits() to increase the limit"
  | .file cause => cause.message
  | .missingModel name => Literal.quote name
  | .indexOutOfRange => "list index out of range"
  | .brokenStatement => "not a statement"
  | .unsound cause => cause.message
  | .namelessPath => "PosixPath('.') has an empty name"
  | .refusedAttribute => "attribute refused"
  | .protectedName name =>
    let (member, start) := protectedMember name
    "Field " ++ Literal.quote name ++ " conflicts with member " ++ member ++
      " of protected namespace " ++ Literal.quote start ++ "."
  | .bareOption => "Plain typing.Optional is not valid as type argument"
  | .uncheckedClass name => "no documents can be checked against " ++ name
  | .repeatedReason => "never() got multiple values for argument 'reason'"

end Fault

end SampleTypes
