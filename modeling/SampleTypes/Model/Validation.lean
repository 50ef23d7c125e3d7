import SampleTypes.Decimal.Numeral
import SampleTypes.Json.Value
import SampleTypes.Model

/-!
# Documents checked against models

A document is accepted by a model when every attribute finds a fitting value. An attribute looks
under its name on the wire, then under its own name, and takes its default if there is neither;
other members are ignored. Values are made to fit where that loses nothing: whole numbers, truth
values and numerals become numbers; zero, one and the usual words become truth values. A class name
with a meaning of its own (`Ambient`) asks for the shape of a value only and keeps it as it came.

Checking follows the document, so models may refer to each other in circles. Every member of an
object is turned into its checker first, and the attributes pick the checkers that they need.

## Main results

* `dump_missing`: what a missing attribute dumps as.
-/

namespace SampleTypes

open Json (Value)
open Decimal (Binary64)

/-- What is wrong with a value. -/
inductive ProblemKind where
  | stringType
  | floatType
  | floatParsing
  | boolType
  | boolParsing
  | listType
  | dictType
  | setType
  | tupleType
  | iterableType
  | modelType
  | enumeration
  deriving DecidableEq, Repr

/-- The word for a problem. -/
def ProblemKind.label : ProblemKind → String
  | .stringType => "string_type"
  | .floatType => "float_type"
  | .floatParsing => "float_parsing"
  | .boolType => "bool_type"
  | .boolParsing => "bool_parsing"
  | .listType => "list_type"
  | .dictType => "dict_type"
  | .setType => "set_type"
  | .tupleType => "tuple_type"
  | .iterableType => "iterable_type"
  | .modelType => "model_type"
  | .enumeration => "enum"

/-- A step on the way to a value: a name on the wire, or a place in a list. -/
inductive Step where
  | name (wireName : String)
  | place (index : Nat)
  deriving DecidableEq, Repr

/-- A problem and where it is. -/
structure Problem where
  kind : ProblemKind
  location : List Step := []
  deriving DecidableEq, Repr

/-- The problem seen from one step further out. -/
def Problem.under (step : Step) (p : Problem) : Problem :=
  { p with location := step :: p.location }

/-- An accepted value. An instance keeps, for each attribute in order, its name on the wire, its
own name and its value. -/
inductive Datum where
  | nothing
  | text (value : String)
  /-- The whole number zero, the default of numbers. -/
  | zero
  | number (value : Binary64)
  | flag (value : Bool)
  | list (items : List Datum)
  /-- A value that is kept as it came. -/
  | raw (value : Value)
  | instance (attributes : List (String × String × Datum))
  deriving Repr

namespace Validation

/-- The outcome of checking a value. -/
abbrev Outcome := Except (List Problem) Datum

/-- A refusal at the value itself. -/
def refuse (kind : ProblemKind) : Outcome :=
  .error [{ kind := kind }]

/-- Both outcomes, or the problems of both in order. -/
def both {α β γ : Type} (combine : α → β → γ) :
    Except (List Problem) α → Except (List Problem) β → Except (List Problem) γ
  | .ok a, .ok b => .ok (combine a b)
  | .ok _, .error ps => .error ps
  | .error ps, .ok _ => .error ps
  | .error ps, .error qs => .error (ps ++ qs)

/-- The outcome with its problems seen from one step further out. -/
def under (step : Step) : Outcome → Outcome
  | .ok datum => .ok datum
  | .error ps => .error (ps.map (Problem.under step))

/-- The words for true. -/
def trueWords : List String := ["1", "on", "t", "true", "y", "yes"]

/-- The words for false. -/
def falseWords : List String := ["0", "off", "f", "false", "n", "no"]

/-- A value where a text is expected. -/
def checkText : Value → Outcome
  | .string s => .ok (.text s)
  | _ => refuse .stringType

/-- A value where a number is expected. A whole number must be within the range of doubles. -/
def checkNumber : Value → Outcome
  | .int n =>
    let x := Binary64.ofInt n
    if x.isFinite then .ok (.number x) else refuse .floatType
  | .float x => .ok (.number x)
  | .bool b => .ok (.number (Binary64.ofInt (if b then 1 else 0)))
  | .string s =>
    match Decimal.Numeral.read? s with
    | some x => .ok (.number x)
    | none => refuse .floatParsing
  | _ => refuse .floatType

/-- A whole number where a truth value is expected: zero or one. One that takes more than 64 bits
is not even considered. -/
def checkWholeFlag (n : Int) : Outcome :=
  if n = 0 then .ok (.flag false)
  else if n = 1 then .ok (.flag true)
  else if -(Nat.pow 2 63) ≤ n ∧ n < Nat.pow 2 63 then refuse .boolParsing
  else refuse .boolType

/-- A value where a truth value is expected. -/
def checkFlag : Value → Outcome
  | .bool b => .ok (.flag b)
  | .int n => checkWholeFlag n
  | .float x =>
    match x.toInt? with
    | some n => if n = -(Nat.pow 2 63) then refuse .boolType else checkWholeFlag n
    | none => refuse .boolType
  | .string s =>
    let word := String.ofList (s.toList.map Char.toLower)
    if word ∈ trueWords then .ok (.flag true)
    else if word ∈ falseWords then .ok (.flag false)
    else refuse .boolParsing
  | _ => refuse .boolType

/-- The items of a list, each checked with `item`, counted from `index` on. -/
def checkItems (item : Value → Outcome) (index : Nat) :
    List Value → Except (List Problem) (List Datum)
  | [] => .ok []
  | v :: rest =>
    both List.cons (under (.place index) (item v)) (checkItems item (index + 1) rest)

/-- A value where a list is expected. -/
def checkList (item : Value → Outcome) : Value → Outcome
  | .array items => (checkItems item 0 items).map .list
  | _ => refuse .listType

/-- A value where a name with a meaning of its own says what is expected. -/
def checkAmbient : Ambient → Value → Outcome
  | .anything, value => .ok (.raw value)
  | .mapping, .object members => .ok (.raw (.object members))
  | .mapping, _ => refuse .dictType
  | .list, .array items => .ok (.raw (.array items))
  | .list, _ => refuse .listType
  | .set, .array items => .ok (.raw (.array items))
  | .set, _ => refuse .setType
  | .tuple, .array items => .ok (.raw (.array items))
  | .tuple, _ => refuse .tupleType
  | .iterable, .array items => .ok (.raw (.array items))
  | .iterable, .object members => .ok (.raw (.object members))
  | .iterable, .string s => .ok (.raw (.string s))
  | .iterable, _ => refuse .iterableType
  | .emptyInstance, .object _ => .ok (.instance [])
  | .emptyInstance, _ => refuse .modelType
  | .fieldKind, .string s =>
    if (FieldKind.ofLabel? s).isSome then .ok (.text s) else refuse .enumeration
  | .fieldKind, _ => refuse .enumeration

/-- The value of an attribute that finds none. -/
def missing : Default → Datum
  | .emptyText => .text ""
  | .zero => .zero
  | .off => .flag false
  | .emptyList => .list []
  | .nothing => .nothing

/-- A member that waits for the type it has to fit. -/
abbrev Checker := FieldType → Outcome

/-- One attribute: the member under its name on the wire, else under its own name, else its
default. -/
def checkAttribute (members : List (String × Checker)) (field : ModelField) : Outcome :=
  match Assoc.get? field.wireName members with
  | some checker => under (.name field.wireName) (checker field.type)
  | none =>
    match Assoc.get? field.attributeName members with
    | some checker => under (.name field.wireName) (checker field.type)
    | none => .ok (missing field.default)

/-- All attributes of a model, in order. -/
def checkAttributes (members : List (String × Checker)) :
    List ModelField → Except (List Problem) (List (String × String × Datum))
  | [] => .ok []
  | field :: rest =>
    both (fun datum others => (field.wireName, field.attributeName, datum) :: others)
      (checkAttribute members field) (checkAttributes members rest)

/-- An instance of the model with the given class name. -/
def checkInstance (models : Models) (className : String) (members : List (String × Checker)) :
    Outcome :=
  match Assoc.get? className models with
  | some model => (checkAttributes members model.fields).map .instance
  | none => refuse .modelType

mutual

/-- A value where the given type is expected. -/
def checkValue (models : Models) : Value → FieldType → Outcome
  | .null, .model _ => .ok .nothing
  | .null, .forward _ => .ok .nothing
  | .null, .ambient _ _ => .ok .nothing
  | .object members, .model className =>
    checkInstance models className (checkers models members)
  | .object members, .forward className =>
    checkInstance models className (checkers models members)
  | _, .model _ => refuse .modelType
  | _, .forward _ => refuse .modelType
  | value, .ambient _ meaning => checkAmbient meaning value
  | value, .text => checkText value
  | value, .number => checkNumber value
  | value, .flag => checkFlag value
  | value, .texts => checkList checkText value
  | value, .numbers => checkList checkNumber value

/-- The checkers of the members of an object. -/
def checkers (models : Models) : List (String × Value) → List (String × Checker)
  | [] => []
  | (name, value) :: rest => (name, checkValue models value) :: checkers models rest

end

/-- A whole document where an instance of a model is expected. -/
def checkDocument (models : Models) (model : Model) (document : Value) : Outcome :=
  match document with
  | .object members => (checkAttributes (checkers models members) model.fields).map .instance
  | _ => refuse .modelType

end Validation

/-! ## Dumps -/

/-- Which names a dump uses. -/
inductive DumpNames where
  | wire
  | own
  deriving DecidableEq, Repr

namespace Datum

mutual

/-- The document of an accepted value. Of several attributes with one name the first gives the
place and the last the value. -/
def dump (names : DumpNames) : Datum → Value
  | .nothing => .null
  | .text s => .string s
  | .zero => .int 0
  | .number x => .float x
  | .flag b => .bool b
  | .list items => .array (dumpItems names items)
  | .raw value => value
  | .instance attributes => .object (Assoc.ofList (dumpAttributes names attributes))

/-- The documents of the items of a list. -/
def dumpItems (names : DumpNames) : List Datum → List Value
  | [] => []
  | item :: items => item.dump names :: dumpItems names items

/-- The named documents of the attributes of an instance. -/
def dumpAttributes (names : DumpNames) :
    List (String × String × Datum) → List (String × Value)
  | [] => []
  | (wireName, attributeName, datum) :: rest =>
    ((match names with
      | .wire => wireName
      | .own => attributeName), datum.dump names) :: dumpAttributes names rest

end

end Datum

theorem Validation.dump_missing (names : DumpNames) (default : Default) :
    (Validation.missing default).dump names =
      match default with
      | .emptyText => .string ""
      | .zero => .int 0
      | .off => .bool false
      | .emptyList => .array []
      | .nothing => .null := by
  cases default <;> simp [Validation.missing, Datum.dump, Datum.dumpItems]

end SampleTypes
