import SampleTypes.Assoc
import SampleTypes.Json.Value

/-!
# Reading a document

A strict reader of JSON. Every function takes the text that is left and returns what it read with
the text that is left then, so no reading depends on what stood before it; a refusal keeps the
text from the refused place on, and its line and column are worked out only at the end, from the
length of that rest.

Besides the values of the standard, `NaN`, `Infinity` and `-Infinity` are numbers. A repeated key
keeps its first place and takes its last value. An escaped surrogate without its partner stands
for no character and is read as the replacement character.
-/

namespace SampleTypes.Json

open SampleTypes.Decimal (Binary64)

/-- What a reader found wrong. -/
inductive Cause where
  | valueExpected
  | nameExpected
  | colonExpected
  | commaExpected
  | extraData
  | unterminatedString
  | controlCharacter
  | badEscape
  | badUnicodeEscape
  | byteOrderMark
  deriving DecidableEq, Repr

/-- The wording of a cause. -/
def Cause.message : Cause → String
  | .valueExpected => "Expecting value"
  | .nameExpected => "Expecting property name enclosed in double quotes"
  | .colonExpected => "Expecting ':' delimiter"
  | .commaExpected => "Expecting ',' delimiter"
  | .extraData => "Extra data"
  | .unterminatedString => "Unterminated string starting at"
  | .controlCharacter => "Invalid control character at"
  | .badEscape => "Invalid \\escape"
  | .badUnicodeEscape => "Invalid \\uXXXX escape"
  | .byteOrderMark => "Unexpected UTF-8 BOM (decode using utf-8-sig)"

/-- A refusal inside a text. -/
inductive Failure where
  /-- The text from `rest` on does not go on as it should. -/
  | malformed (cause : Cause) (rest : List Char)
  /-- A whole number with more digits than are accepted. -/
  | longInteger (digits : Nat)
  deriving Repr

namespace Reader

/-- The largest number of digits of a whole number. -/
def digitLimit : Nat := 4300

/-- A character that may stand between tokens. -/
def isSpace (c : Char) : Bool :=
  c = ' ' || c = '\t' || c = '\n' || c = '\r'

/-- The text without the spaces at its start. -/
def skipSpace (s : List Char) : List Char :=
  s.dropWhile isSpace

/-- A decimal digit. -/
def isDigit (c : Char) : Bool :=
  '0' ≤ c && c ≤ '9'

/-- The value of a decimal digit. -/
def digitValue (c : Char) : Nat :=
  c.toNat - '0'.toNat

/-- The number that the digits write. -/
def decimal (ds : List Char) : Nat :=
  ds.foldl (fun n c => 10 * n + digitValue c) 0

/-- The value of a hexadecimal digit. -/
def hexValue? (c : Char) : Option Nat :=
  if isDigit c then some (digitValue c)
  else if 'a' ≤ c ∧ c ≤ 'f' then some (c.toNat - 'a'.toNat + 10)
  else if 'A' ≤ c ∧ c ≤ 'F' then some (c.toNat - 'A'.toNat + 10)
  else none

/-! ## Strings -/

/-- The code unit that four hexadecimal digits write, with the text after them. The closing quote
is still to come, so at least one more character must follow. -/
def codeUnit? : List Char → Option (Nat × List Char)
  | a :: b :: c :: d :: next :: rest => do
    let a ← hexValue? a
    let b ← hexValue? b
    let c ← hexValue? c
    let d ← hexValue? d
    return (((a * 16 + b) * 16 + c) * 16 + d, next :: rest)
  | _ => none

/-- The first half of a surrogate pair. -/
def isHighSurrogate (n : Nat) : Bool :=
  0xD800 ≤ n && n ≤ 0xDBFF

/-- The second half of a surrogate pair. -/
def isLowSurrogate (n : Nat) : Bool :=
  0xDC00 ≤ n && n ≤ 0xDFFF

/-- The character of a code unit; a surrogate alone has none. -/
def unitChar (n : Nat) : Char :=
  if isHighSurrogate n || isLowSurrogate n then Char.ofNat 0xFFFD else Char.ofNat n

/-- The second half of a pair, written as an escape of its own. -/
def lowSurrogate? : List Char → Option (Nat × List Char)
  | '\\' :: 'u' :: rest =>
    match codeUnit? rest with
    | some (low, after) => if isLowSurrogate low then some (low, after) else none
    | none => none
  | _ => none

/-- The character of a `\u` escape, read after the `u` that `escape` starts with. -/
def readUnicode (escape : List Char) : Except Failure (Char × List Char) :=
  match codeUnit? (escape.drop 1) with
  | none => .error (.malformed .badUnicodeEscape escape)
  | some (unit, rest) =>
    if isHighSurrogate unit then
      match lowSurrogate? rest with
      | some (low, after) =>
        .ok (Char.ofNat (0x10000 + (unit - 0xD800) * 0x400 + (low - 0xDC00)), after)
      | none => .ok (unitChar unit, rest)
    else .ok (unitChar unit, rest)

/-- The character of a one-letter escape. -/
def shortEscape? (c : Char) : Option Char :=
  match c with
  | '"' => some '"'
  | '\\' => some '\\'
  | '/' => some '/'
  | 'b' => some '\x08'
  | 'f' => some '\x0c'
  | 'n' => some '\n'
  | 'r' => some '\r'
  | 't' => some '\t'
  | _ => none

/-- The character of an escape. `opening` is the text from the opening quote on, and `slash` the
text from the backslash on. -/
def readEscape (opening slash : List Char) : Except Failure (Char × List Char) :=
  match slash.drop 1 with
  | [] => .error (.malformed .unterminatedString opening)
  | c :: rest =>
    if c = 'u' then readUnicode (c :: rest)
    else
      match shortEscape? c with
      | some char => .ok (char, rest)
      | none => .error (.malformed .badEscape slash)

/-- Reads a string after its opening quote. Each step takes a character at least. -/
def readString (opening : List Char) : (fuel : Nat) → List Char →
    Except Failure (List Char × List Char)
  | 0, _ => .error (.malformed .unterminatedString opening)
  | _ + 1, [] => .error (.malformed .unterminatedString opening)
  | fuel + 1, c :: rest =>
    if c = '"' then .ok ([], rest)
    else if c = '\\' then do
      let (char, after) ← readEscape opening (c :: rest)
      let (chars, after) ← readString opening fuel after
      return (char :: chars, after)
    else if c.toNat ≤ 0x1F then .error (.malformed .controlCharacter (c :: rest))
    else do
      let (chars, after) ← readString opening fuel rest
      return (c :: chars, after)

/-! ## Numbers and names -/

/-- The digits after a decimal point, if a point and a digit come next. -/
def readFraction : List Char → Option (List Char × List Char)
  | '.' :: d :: rest =>
    if isDigit d then some (d :: rest.takeWhile isDigit, rest.dropWhile isDigit) else none
  | _ => none

/-- An exponent, if a mark and at least one digit come next. -/
def readExponent : List Char → Option (Int × List Char)
  | mark :: rest =>
    if mark = 'e' || mark = 'E' then
      let (negative, ds) :=
        match rest with
        | '-' :: ds => (true, ds)
        | '+' :: ds => (false, ds)
        | ds => (false, ds)
      match ds.takeWhile isDigit with
      | [] => none
      | digits =>
        let size : Int := decimal digits
        some (if negative then -size else size, ds.dropWhile isDigit)
    else none
  | [] => none

/-- The number whose whole part has the given digits, with the text `rest` after them. -/
def readAfterWhole (negative : Bool) (whole rest : List Char) :
    Except Failure (Value × List Char) :=
  let (fraction, afterFraction) := (readFraction rest).getD ([], rest)
  match readExponent afterFraction with
  | some (exponent, after) =>
    let size := Binary64.ofDecimal negative (decimal (whole ++ fraction))
      (exponent - fraction.length)
    .ok (.float size, after)
  | none =>
    if fraction.isEmpty then
      if digitLimit < whole.length then .error (.longInteger whole.length)
      else
        let size : Int := decimal whole
        .ok (.int (if negative then -size else size), rest)
    else
      let size := Binary64.ofDecimal negative (decimal (whole ++ fraction)) (-fraction.length)
      .ok (.float size, afterFraction)

/-- Reads a number. A whole part has no needless zero in front. -/
def readNumber (s : List Char) : Except Failure (Value × List Char) :=
  let (negative, body) :=
    match s with
    | '-' :: rest => (true, rest)
    | rest => (false, rest)
  match body with
  | [] => .error (.malformed .valueExpected s)
  | d :: rest =>
    if d = '0' then readAfterWhole negative [d] rest
    else if isDigit d then
      readAfterWhole negative (d :: rest.takeWhile isDigit) (rest.dropWhile isDigit)
    else .error (.malformed .valueExpected s)

/-- The values that are written as names. -/
def names : List (List Char × Value) :=
  [("null".toList, .null), ("true".toList, .bool true), ("false".toList, .bool false),
   ("NaN".toList, .float Binary64.nan), ("Infinity".toList, .float (Binary64.infinity false)),
   ("-Infinity".toList, .float (Binary64.infinity true))]

/-- The text after `word`, if `s` starts with it. -/
def after? : (word s : List Char) → Option (List Char)
  | [], s => some s
  | _ :: _, [] => none
  | w :: word, c :: s => if w = c then after? word s else none

/-- Reads a value that is neither a string nor a container. -/
def readScalar (s : List Char) : Except Failure (Value × List Char) :=
  match names.findSome? fun name => (after? name.1 s).map fun rest => (name.2, rest) with
  | some found => .ok found
  | none => readNumber s

/-! ## Values -/

mutual

/-- Reads one value. Two calls in a row take at least one character, so more `fuel` than twice the
number of characters is enough. -/
def readValue : (fuel : Nat) → List Char → Except Failure (Value × List Char)
  | 0, s => .error (.malformed .valueExpected s)
  | _ + 1, [] => .error (.malformed .valueExpected [])
  | fuel + 1, c :: rest =>
    if c = '"' then do
      let (chars, after) ← readString (c :: rest) fuel rest
      return (.string (String.ofList chars), after)
    else if c = '\x7b' then
      match skipSpace rest with
      | '\x7d' :: after => .ok (.object [], after)
      | inside => do
        let (members, after) ← readMembers fuel inside
        return (.object (Assoc.ofList members), after)
    else if c = '[' then
      match skipSpace rest with
      | ']' :: after => .ok (.array [], after)
      | inside => do
        let (items, after) ← readItems fuel inside
        return (.array items, after)
    else readScalar (c :: rest)

/-- Reads the members of an object from the first name on, with the closing brace. -/
def readMembers : (fuel : Nat) → List Char →
    Except Failure (List (String × Value) × List Char)
  | 0, s => .error (.malformed .nameExpected s)
  | fuel + 1, s =>
    match s with
    | '"' :: rest => do
      let (name, afterName) ← readString s fuel rest
      match skipSpace afterName with
      | ':' :: afterColon => do
        let (value, afterValue) ← readValue fuel (skipSpace afterColon)
        match skipSpace afterValue with
        | '\x7d' :: after => .ok ([(String.ofList name, value)], after)
        | ',' :: next => do
          let (members, after) ← readMembers fuel (skipSpace next)
          return ((String.ofList name, value) :: members, after)
        | other => .error (.malformed .commaExpected other)
      | other => .error (.malformed .colonExpected other)
    | other => .error (.malformed .nameExpected other)

/-- Reads the items of an array from the first one on, with the closing bracket. -/
def readItems : (fuel : Nat) → List Char → Except Failure (List Value × List Char)
  | 0, s => .error (.malformed .valueExpected s)
  | fuel + 1, s => do
    let (value, afterValue) ← readValue fuel s
    match skipSpace afterValue with
    | ']' :: after => .ok ([value], after)
    | ',' :: next => do
      let (items, after) ← readItems fuel (skipSpace next)
      return (value :: items, after)
    | other => .error (.malformed .commaExpected other)

end

/-- Reads a whole text: one value with nothing but space around it. -/
def readDocument (s : List Char) : Except Failure Value :=
  if s.head? = some '\ufeff' then .error (.malformed .byteOrderMark s)
  else do
    let (value, after) ← readValue (2 * s.length + 2) (skipSpace s)
    match skipSpace after with
    | [] => return value
    | rest => .error (.malformed .extraData rest)

/-- Line and column, counted from one, of the place where `rest` starts in `text`. -/
def locate (text rest : List Char) : Nat × Nat :=
  let before := text.take (text.length - rest.length)
  (1 + before.count '\n', 1 + (before.reverse.takeWhile (· ≠ '\n')).length)

end Reader

/-- Why a text is not a document. -/
inductive ReadError where
  | malformed (cause : Cause) (line column : Nat)
  | longInteger (digits : Nat)
  deriving DecidableEq, Repr

/-- The document that a text writes. -/
def read (text : String) : Except ReadError Value :=
  let chars := text.toList
  match Reader.readDocument chars with
  | .ok value => .ok value
  | .error (.longInteger digits) => .error (.longInteger digits)
  | .error (.malformed cause rest) =>
    let (line, column) := Reader.locate chars rest
    .error (.malformed cause line column)

end SampleTypes.Json
