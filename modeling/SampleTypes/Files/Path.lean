/-!
# Paths

A path is a root, which is empty for relative paths, and parts. Writing a path in several ways
makes no difference as long as the parts agree: doubled slashes, single points and a slash at the
end say nothing. A part of two points is kept, since what it leads to depends on the files.

Resolving a path against a directory takes such parts away too.
-/

namespace SampleTypes.Files

/-- A path. -/
structure Path where
  /-- Empty, one slash, or exactly two. -/
  root : String := ""
  parts : List String := []
  deriving DecidableEq, Repr

namespace Path

/-- The texts between the slashes. -/
def splitSlashes : List Char → List (List Char)
  | [] => [[]]
  | c :: rest =>
    match splitSlashes rest with
    | [] => [[c]]
    | part :: parts => if c = '/' then [] :: part :: parts else (c :: part) :: parts

/-- The root that a text starts with. Exactly two slashes are a root of their own. -/
def rootOf : List Char → String
  | '/' :: '/' :: '/' :: _ => "/"
  | '/' :: '/' :: _ => "//"
  | '/' :: _ => "/"
  | _ => ""

/-- The path that a text writes. -/
def ofText (s : String) : Path :=
  { root := rootOf s.toList
    parts := ((splitSlashes s.toList).map String.ofList).filter fun part =>
      part ≠ "" ∧ part ≠ "." }

/-- The path as it is printed; the empty one is a point. -/
def text (p : Path) : String :=
  if p.root = "" ∧ p.parts.isEmpty then "."
  else p.root ++ "/".intercalate p.parts

/-- A path that starts at a root. -/
def isAbsolute (p : Path) : Bool :=
  p.root ≠ ""

/-- A path seen from another one. An absolute path is itself. -/
def join (base p : Path) : Path :=
  if p.isAbsolute then p else { base with parts := base.parts ++ p.parts }

/-- The last part, or nothing. -/
def name (p : Path) : String :=
  p.parts.getLast?.getD ""

/-- The path without its last part. -/
def parent (p : Path) : Path :=
  { p with parts := p.parts.dropLast }

/-- Some part holds the character NUL. -/
def hasNull (p : Path) : Bool :=
  p.parts.any fun part => part.toList.contains '\x00'

/-- A name cut before its ending: a last point that is neither its first nor its last character
starts the ending. -/
def splitEnding (name : List Char) : List Char × List Char :=
  let tail := name.reverse.takeWhile (· ≠ '.')
  let stem := (name.reverse.dropWhile (· ≠ '.')).drop 1
  if tail.length = name.length ∨ tail.isEmpty ∨ stem.isEmpty then (name, [])
  else (stem.reverse, '.' :: tail.reverse)

/-- The ending of the last part, with its point. -/
def ending (p : Path) : String :=
  String.ofList (splitEnding p.name.toList).2

/-- The last part without its ending. -/
def stem (p : Path) : String :=
  String.ofList (splitEnding p.name.toList).1

/-- Takes a step along a resolved path. -/
def step (at_ : List String) (part : String) : List String :=
  if part = ".." then at_.dropLast else at_ ++ [part]

/-- The parts of the absolute path that a path stands for in a working directory. -/
def resolve (working : List String) (p : Path) : List String :=
  p.parts.foldl step (if p.isAbsolute then [] else working)

/-- The parts of a resolved path below another one. -/
def below? : (outer inner : List String) → Option (List String)
  | [], inner => some inner
  | _ :: _, [] => none
  | o :: outer, i :: inner => if o = i then below? outer inner else none

end Path

end SampleTypes.Files
