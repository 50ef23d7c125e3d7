import SampleTypes.Decimal.Binary64
import SampleTypes.Text.Blank

/-!
# Numerals in texts

When a text stands where a number is expected, it may write one: digits with an optional point and
an optional exponent, or the name of an infinity or of a not-a-number, with blanks around it. A
second reading allows single low lines between the characters, but no blanks.
-/

namespace SampleTypes.Decimal.Numeral

/-- An ASCII digit. -/
def isDigit (c : Char) : Bool :=
  '0' ≤ c && c ≤ '9'

/-- The number that the digits write. -/
def value (ds : List Char) : Nat :=
  ds.foldl (fun n c => 10 * n + (c.toNat - '0'.toNat)) 0

/-- A sign, if there is one: whether it is negative, and the text after it. -/
def readSign : List Char → Bool × List Char
  | '-' :: rest => (true, rest)
  | '+' :: rest => (false, rest)
  | rest => (false, rest)

/-- The ASCII letters in lower case. -/
def lowerAscii (cs : List Char) : List Char :=
  cs.map Char.toLower

/-- The exponent that a text writes: nothing at all, or a mark, a sign and digits. -/
def exponent? : List Char → Option Int
  | [] => some 0
  | mark :: rest =>
    let (negative, ds) := readSign rest
    if (mark = 'e' || mark = 'E') && !ds.isEmpty && ds.all isDigit then
      some (if negative then -(value ds : Int) else value ds)
    else none

/-- The number that an unsigned numeral writes. There is a digit before or after the point. -/
def unsigned? (negative : Bool) (cs : List Char) : Option Binary64 :=
  let whole := cs.takeWhile isDigit
  let afterWhole := cs.dropWhile isDigit
  let (fraction, rest) :=
    match afterWhole with
    | '.' :: tail => (tail.takeWhile isDigit, tail.dropWhile isDigit)
    | tail => ([], tail)
  if whole.isEmpty && fraction.isEmpty then none
  else
    (exponent? rest).map fun exponent =>
      Binary64.ofDecimal negative (value (whole ++ fraction)) (exponent - fraction.length)

/-- The number that a text writes without anything around it. -/
def bare? (cs : List Char) : Option Binary64 :=
  let (negative, body) := readSign cs
  let word := lowerAscii body
  if word = "inf".toList ∨ word = "infinity".toList then some (Binary64.infinity negative)
  else if word = "nan".toList then some Binary64.nan
  else unsigned? negative body

/-- Whether two low lines follow each other. -/
def hasDoubleLine : List Char → Bool
  | '_' :: '_' :: _ => true
  | _ :: rest => hasDoubleLine rest
  | [] => false

/-- The text without low lines, if they stand one by one and inside it. -/
def withoutLines? (cs : List Char) : Option (List Char) :=
  if cs.head? = some '_' ∨ cs.getLast? = some '_' ∨ hasDoubleLine cs then none
  else some (cs.filter fun c => c ≠ '_')

/-- The number that a text writes. -/
def read? (s : String) : Option Binary64 :=
  match bare? (Text.Blank.trimBoth Text.Blank.isWhite s.toList) with
  | some x => some x
  | none => (withoutLines? s.toList).bind bare?

end SampleTypes.Decimal.Numeral
