/-!
# Blank characters and trimming

The white space of the Unicode standard together with the four separator controls
`U+001C … U+001F`, which trimming also removes. The zero-width space and the byte order mark are
not blank.
-/

namespace SampleTypes.Text.Blank

/-- The code points of the blank characters, as closed ranges. -/
def ranges : List (Nat × Nat) :=
  [(0x9, 0xD), (0x1C, 0x20), (0x85, 0x85), (0xA0, 0xA0), (0x1680, 0x1680), (0x2000, 0x200A),
   (0x2028, 0x2029), (0x202F, 0x202F), (0x205F, 0x205F), (0x3000, 0x3000)]

/-- A character that trimming removes. -/
def isBlank (c : Char) : Bool :=
  ranges.any fun range => range.1 ≤ c.toNat && c.toNat ≤ range.2

/-- The white space of the Unicode standard proper, without the separator controls. -/
def isWhite (c : Char) : Bool :=
  isBlank c && !(0x1C ≤ c.toNat && c.toNat ≤ 0x1F)

/-- `cs` without the characters at either end that satisfy `p`. -/
def trimBoth (p : Char → Bool) (cs : List Char) : List Char :=
  ((cs.dropWhile p).reverse.dropWhile p).reverse

/-- The text without blank characters at either end. -/
def trim (s : String) : String :=
  String.ofList (trimBoth isBlank s.toList)

/-- The parts of `cs` between the occurrences of `mark`: always one more than there are marks. -/
def splitOn (mark : Char) : List Char → List (List Char)
  | [] => [[]]
  | c :: rest =>
    match splitOn mark rest with
    | [] => [[c]]
    | part :: parts => if c = mark then [] :: part :: parts else (c :: part) :: parts

/-- The trimmed parts of a comma-separated text that are not empty. -/
def commaParts (s : String) : List String :=
  ((splitOn ',' s.toList).map fun part => String.ofList (trimBoth isBlank part)).filter (· ≠ "")

end SampleTypes.Text.Blank
