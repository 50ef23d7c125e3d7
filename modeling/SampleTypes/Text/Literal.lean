import SampleTypes.Text.CharClass
import SampleTypes.Decimal.Shortest

/-!
# Values shown in messages

A message that mentions a value shows it as a literal: texts in quotes with everything invisible
escaped, numbers in their shortest form, lists in brackets, tables in braces. Single quotes are
used unless the text holds one and no double quote.
-/

namespace SampleTypes.Text

open SampleTypes.Decimal (Binary64)

/-- A value as messages show it. -/
inductive Literal where
  | none
  | bool (value : Bool)
  | int (value : Int)
  | float (value : Binary64)
  | text (value : String)
  | list (items : List Literal)
  | table (entries : List (String × Literal))
  /-- A value with a written form of its own. -/
  | shown (form : String)
  deriving Repr

namespace Literal

/-- The last `width` hexadecimal digits of a number. -/
def hexDigits (n : Nat) : (width : Nat) → List Char
  | 0 => []
  | width + 1 => hexDigits (n / 16) width ++ [Nat.digitChar (n % 16)]

/-- A character between the given quotes. -/
def showChar (quote c : Char) : List Char :=
  if c = quote ∨ c = '\\' then ['\\', c]
  else if c = '\n' then ['\\', 'n']
  else if c = '\r' then ['\\', 'r']
  else if c = '\t' then ['\\', 't']
  else if CharClass.isShown c then [c]
  else if c.toNat < 0x100 then '\\' :: 'x' :: hexDigits c.toNat 2
  else if c.toNat < 0x10000 then '\\' :: 'u' :: hexDigits c.toNat 4
  else '\\' :: 'U' :: hexDigits c.toNat 8

/-- The quote that a text is put between. -/
def quoteFor (cs : List Char) : Char :=
  if cs.contains '\'' && !cs.contains '"' then '"' else '\''

/-- A text in quotes. -/
def quote (s : String) : String :=
  let cs := s.toList
  let mark := quoteFor cs
  String.ofList (mark :: cs.flatMap (showChar mark) ++ [mark])

/-- The number of decimal digits up to which whole numbers are shown. -/
def digitLimit : Nat := 4300

mutual

/-- No whole number in the value is too long to be shown. -/
def isShowable : Literal → Bool
  | .int n => n.natAbs < Nat.pow 10 digitLimit
  | .list items => areShowable items
  | .table entries => haveShowable entries
  | _ => true

/-- All items of a list are showable. -/
def areShowable : List Literal → Bool
  | [] => true
  | item :: items => item.isShowable && areShowable items

/-- All values in the entries of a table are showable. -/
def haveShowable : List (String × Literal) → Bool
  | [] => true
  | (_, value) :: entries => value.isShowable && haveShowable entries

end

mutual

/-- The written form of a value. -/
def written : Literal → String
  | .none => "None"
  | .bool true => "True"
  | .bool false => "False"
  | .int n => toString n
  | .float x => Decimal.Shortest.text x
  | .text s => quote s
  | .list items => "[" ++ ", ".intercalate (writtenItems items) ++ "]"
  | .table entries => "\x7b" ++ ", ".intercalate (writtenEntries entries) ++ "\x7d"
  | .shown form => form

/-- The written forms of the items of a list. -/
def writtenItems : List Literal → List String
  | [] => []
  | item :: items => item.written :: writtenItems items

/-- The written forms of the entries of a table. -/
def writtenEntries : List (String × Literal) → List String
  | [] => []
  | (key, value) :: entries => (quote key ++ ": " ++ value.written) :: writtenEntries entries

end

end Literal

end SampleTypes.Text
