import SampleTypes.Json.Value
import SampleTypes.Decimal.Shortest

/-!
# Writing a document

Strings are written in printable ASCII: every other character becomes a `\uXXXX` escape, one
beyond the first plane a pair of them. Values are written on one line, or indented by two spaces
with the members of objects in the order of their names.
-/

namespace SampleTypes.Json

open SampleTypes.Decimal (Binary64)

namespace Printer

/-- Four hexadecimal digits. -/
def hex4 (n : Nat) : List Char :=
  [Nat.digitChar (n / 4096 % 16), Nat.digitChar (n / 256 % 16), Nat.digitChar (n / 16 % 16),
   Nat.digitChar (n % 16)]

/-- The escape of a code unit. -/
def unitEscape (n : Nat) : List Char :=
  '\\' :: 'u' :: hex4 n

/-- A character inside a string. -/
def escapeChar (c : Char) : List Char :=
  if c = '"' then ['\\', '"']
  else if c = '\\' then ['\\', '\\']
  else if c = '\n' then ['\\', 'n']
  else if c = '\r' then ['\\', 'r']
  else if c = '\t' then ['\\', 't']
  else if c = '\x08' then ['\\', 'b']
  else if c = '\x0c' then ['\\', 'f']
  else if ' ' ≤ c ∧ c ≤ '~' then [c]
  else if c.toNat < 0x10000 then unitEscape c.toNat
  else
    let offset := c.toNat - 0x10000
    unitEscape (0xD800 + offset / 0x400) ++ unitEscape (0xDC00 + offset % 0x400)

/-- A string with its quotes. -/
def quoteChars (cs : List Char) : List Char :=
  '"' :: cs.flatMap escapeChar ++ ['"']

/-- A number that is not whole, in its shortest form. -/
def floatText (x : Binary64) : String :=
  match x.reading with
  | .notANumber => "NaN"
  | .infinite negative => if negative then "-Infinity" else "Infinity"
  | .finite .. => Decimal.Shortest.text x

/-- A line feed with the indentation of a level. -/
def newline (level : Nat) : List Char :=
  '\n' :: List.replicate (2 * level) ' '

/-- Parts with a separator between each two. -/
def separated (mark : List Char) : List (List Char) → List Char
  | [] => []
  | [part] => part
  | part :: next :: parts => part ++ mark ++ separated mark (next :: parts)

end Printer

/-- A text as a string of a document. -/
def quote (s : String) : String :=
  String.ofList (Printer.quoteChars s.toList)

open Printer

mutual

/-- A value on one line. -/
def Value.compactChars : Value → List Char
  | .null => "null".toList
  | .bool true => "true".toList
  | .bool false => "false".toList
  | .int n => (toString n).toList
  | .float x => (floatText x).toList
  | .string s => quoteChars s.toList
  | .array items => '[' :: separated [','] (compactItems items) ++ [']']
  | .object members => '\x7b' :: separated [','] (compactMembers members) ++ ['\x7d']

/-- The items of an array, each on one line. -/
def compactItems : List Value → List (List Char)
  | [] => []
  | item :: items => item.compactChars :: compactItems items

/-- The members of an object, each on one line. -/
def compactMembers : List (String × Value) → List (List Char)
  | [] => []
  | (name, value) :: members =>
    (quoteChars name.toList ++ ':' :: value.compactChars) :: compactMembers members

end

mutual

/-- A value over several lines, its inner lines indented below `level`. -/
def Value.indentedChars (level : Nat) : Value → List Char
  | .null => "null".toList
  | .bool true => "true".toList
  | .bool false => "false".toList
  | .int n => (toString n).toList
  | .float x => (floatText x).toList
  | .string s => quoteChars s.toList
  | .array [] => ['[', ']']
  | .array items =>
    '[' :: newline (level + 1) ++
      separated (',' :: newline (level + 1)) (indentedItems (level + 1) items) ++
      newline level ++ [']']
  | .object [] => ['\x7b', '\x7d']
  | .object members =>
    '\x7b' :: newline (level + 1) ++
      separated (',' :: newline (level + 1)) (indentedMembers (level + 1) members) ++
      newline level ++ ['\x7d']

/-- The items of an array, each over several lines. -/
def indentedItems (level : Nat) : List Value → List (List Char)
  | [] => []
  | item :: items => item.indentedChars level :: indentedItems level items

/-- The members of an object, each over several lines. -/
def indentedMembers (level : Nat) : List (String × Value) → List (List Char)
  | [] => []
  | (name, value) :: members =>
    (quoteChars name.toList ++ ':' :: ' ' :: value.indentedChars level)
      :: indentedMembers level members

end

mutual

/-- The value with the members of every object in the order of their names. -/
def Value.sorted : Value → Value
  | .array items => .array (sortedItems items)
  | .object members =>
    .object ((sortedMembers members).mergeSort fun one other => decide (one.1 ≤ other.1))
  | other => other

/-- The items with sorted objects. -/
def sortedItems : List Value → List Value
  | [] => []
  | item :: items => item.sorted :: sortedItems items

/-- The members, in place, with sorted objects inside. -/
def sortedMembers : List (String × Value) → List (String × Value)
  | [] => []
  | (name, value) :: members => (name, value.sorted) :: sortedMembers members

end

/-- The text of a value on one line. -/
def Value.compact (v : Value) : String :=
  String.ofList v.compactChars

/-- The text of a value over several lines, sorted by name. -/
def Value.indented (v : Value) : String :=
  String.ofList (v.sorted.indentedChars 0)

end SampleTypes.Json
