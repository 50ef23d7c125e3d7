import SampleTypes.Source.Token
import SampleTypes.Text.Order
import Std.Data.HashMap

/-!
# Parsing expressions

The form in which the grammar of a language is written down as data: a pattern for each rule, made
of conditions on single tokens, sequences, ordered choices and repetitions. Of the choices at a
place the first that fits is taken, and the others are not tried again whatever follows; a
repetition takes as much as it can. So a text has one reading at most.

A reading is a tree with the tokens at its leaves and the rules at its nodes. What a rule made of a
place is remembered, so each rule looks at each place once and reading takes time in proportion to
the number of tokens, however deeply a text is nested.

Of a text without a reading the furthest token that was looked at is remembered, with what it was
expected to be.

## Main results

* `Tree.ofRule_node`: a rule that consists of another one adds nothing to the tree.
* `Progress.expected_missed`: what is expected at the furthest place is kept there.
-/

namespace SampleTypes.Source

/-- The words that are no names. -/
def reservedWords : List String :=
  ["False", "None", "True", "and", "as", "assert", "async", "await", "break", "class", "continue",
   "def", "del", "elif", "else", "except", "finally", "for", "from", "global", "if", "import",
   "in", "is", "lambda", "nonlocal", "not", "or", "pass", "raise", "return", "try", "while",
   "with", "yield"]

/-- A condition on one token. -/
inductive Test where
  /-- The token has this text. -/
  | text (word : String)
  /-- The token is of this kind, which messages call by this word. -/
  | kind (kind : Token.Kind) (word : String)
  /-- The token is a name and no reserved word. -/
  | identifier
  /-- The token is a number with or without an imaginary part. -/
  | number (imaginary : Bool)
  deriving DecidableEq, Repr

namespace Test

/-- Whether the text of a number ends as imaginary ones do. -/
def isImaginary (text : String) : Bool :=
  text.endsWith "j" || text.endsWith "J"

/-- Whether a token meets the condition. -/
def holds (t : Test) (token : Token) : Bool :=
  match t with
  | .text word => token.text = word
  | .kind k _ => token.kind = k
  | .identifier => token.kind = .name && !reservedWords.contains token.text
  | .number imaginary => token.kind = .number && isImaginary token.text = imaginary

/-- What messages say was expected in place of a token. -/
def expectation (t : Test) (token : Token) : String :=
  match t with
  | .text word => word
  | .kind _ word => word
  | .identifier => "NAME"
  | .number imaginary =>
    if token.kind ≠ .number then "number"
    else if imaginary then "imaginary number"
    else "real number"

end Test

/-- What a rule accepts. -/
inductive Pattern (ρ : Type) where
  /-- One token. -/
  | token (t : Test)
  /-- What another rule accepts. -/
  | rule (r : ρ)
  /-- One part after another. -/
  | seq (parts : List (Pattern ρ))
  /-- The first choice that fits. -/
  | first (choices : List (Pattern ρ))
  /-- A part as often as it fits. -/
  | many (part : Pattern ρ)
  /-- A part if it fits. -/
  | option (part : Pattern ρ)
  /-- Nothing, if the next token meets one of the conditions. -/
  | ahead (tests : List Test)
  /-- Nothing, unless the next token meets one of the conditions. -/
  | notAhead (tests : List Test)
  deriving Inhabited

/-- A reading: tokens and what the rules made of them. -/
inductive Tree (ρ : Type) where
  | leaf (token : Token)
  | node (rule : ρ) (parts : List (Tree ρ))
  deriving Inhabited

variable {ρ : Type}

/-- What a rule makes of its parts. A rule that consists of another one adds nothing. -/
def Tree.ofRule (r : ρ) : List (Tree ρ) → Tree ρ
  | [.node inner parts] => .node inner parts
  | parts => .node r parts

@[simp] theorem Tree.ofRule_node (r inner : ρ) (parts : List (Tree ρ)) :
    Tree.ofRule r [.node inner parts] = .node inner parts := rfl

/-- The parts found at a place and the next place, if the place fits. -/
abbrev Found (ρ : Type) := Option (List (Tree ρ) × Nat)

/-- What is known in the course of a reading. -/
structure Progress (ρ : Type) [BEq ρ] [Hashable ρ] where
  /-- What rules made of places. -/
  known : Std.HashMap (ρ × Nat) (Found ρ) := {}
  /-- The furthest place at which a condition was not met. -/
  furthest : Nat := 0
  /-- What was expected there. -/
  expected : List String := []

namespace Progress

variable [BEq ρ] [Hashable ρ]

/-- Records what was expected at a place. -/
def missed (place : Nat) (expectation : String) (p : Progress ρ) : Progress ρ :=
  if p.furthest < place then { p with furthest := place, expected := [expectation] }
  else if p.furthest = place then { p with expected := expectation :: p.expected }
  else p

/-- Records what a rule made of a place. -/
def remember (r : ρ) (place : Nat) (found : Found ρ) (p : Progress ρ) : Progress ρ :=
  { p with known := p.known.insert (r, place) found }

theorem expected_missed (place : Nat) (expectation : String) (p : Progress ρ)
    (h : p.furthest ≤ place) : expectation ∈ (p.missed place expectation).expected := by
  unfold missed
  split
  · simp
  · split
    · simp
    · omega

end Progress

namespace Pattern

variable [BEq ρ] [Hashable ρ]

/-- Looks at one token. -/
def findToken (tokens : Array Token) (t : Test) (place : Nat) : StateM (Progress ρ) (Found ρ) :=
  fun p =>
    match tokens[place]? with
    | none => (none, p)
    | some here =>
      if t.holds here then (some ([.leaf here], place + 1), p)
      else (none, p.missed place (t.expectation here))

/-- Whether a token meets one of some conditions. -/
def meets (tokens : Array Token) (tests : List Test) (place : Nat) : Bool :=
  match tokens[place]? with
  | none => false
  | some here => tests.any fun t => t.holds here

mutual

/-- Looks for a pattern at a place. -/
def find (body : ρ → Pattern ρ) (tokens : Array Token) :
    (fuel : Nat) → Pattern ρ → (place : Nat) → StateM (Progress ρ) (Found ρ)
  | 0, _, _ => pure none
  | fuel + 1, pattern, place =>
    match pattern with
    | .token t => findToken tokens t place
    | .ahead tests => pure (if meets tokens tests place then some ([], place) else none)
    | .notAhead tests => pure (if meets tokens tests place then none else some ([], place))
    | .seq parts => findSeq body tokens fuel parts [] place
    | .first choices => findFirst body tokens fuel choices place
    | .many part => findMany body tokens fuel part [] place
    | .option part => do
      match ← find body tokens fuel part place with
      | none => return some ([], place)
      | found => return found
    | .rule r => do
      match (← get).known[(r, place)]? with
      | some found => return found
      | none =>
        let found := (← find body tokens fuel (body r) place).map fun (parts, next) =>
          ([Tree.ofRule r parts], next)
        modify (Progress.remember r place found)
        return found

/-- Looks for one part after another. The parts found so far are kept in reverse. -/
def findSeq (body : ρ → Pattern ρ) (tokens : Array Token) :
    (fuel : Nat) → List (Pattern ρ) → List (Tree ρ) → (place : Nat) →
      StateM (Progress ρ) (Found ρ)
  | 0, _, _, _ => pure none
  | _ + 1, [], sofar, place => pure (some (sofar.reverse, place))
  | fuel + 1, part :: rest, sofar, place => do
    match ← find body tokens fuel part place with
    | none => return none
    | some (trees, next) => findSeq body tokens fuel rest (trees.reverse ++ sofar) next

/-- Looks for the first of several choices that fits. -/
def findFirst (body : ρ → Pattern ρ) (tokens : Array Token) :
    (fuel : Nat) → List (Pattern ρ) → (place : Nat) → StateM (Progress ρ) (Found ρ)
  | 0, _, _ => pure none
  | _ + 1, [], _ => pure none
  | fuel + 1, choice :: rest, place => do
    match ← find body tokens fuel choice place with
    | none => findFirst body tokens fuel rest place
    | found => return found

/-- Looks for a part as often as it fits and takes a token at least. -/
def findMany (body : ρ → Pattern ρ) (tokens : Array Token) :
    (fuel : Nat) → Pattern ρ → List (Tree ρ) → (place : Nat) → StateM (Progress ρ) (Found ρ)
  | 0, _, _, _ => pure none
  | fuel + 1, part, sofar, place => do
    match ← find body tokens fuel part place with
    | none => return some (sofar.reverse, place)
    | some (trees, next) =>
      if next ≤ place then return some (sofar.reverse, place)
      else findMany body tokens fuel part (trees.reverse ++ sofar) next

end

/-- Reads tokens from the first one on by a rule: the reading, or what was expected at the furthest
place. The fuel is more than a reading can use, because the rules of a grammar take a token before
they have called each other this often. -/
def read (body : ρ → Pattern ρ) (start : ρ) (tokens : Array Token) :
    Except (List String) (Tree ρ) :=
  match (find body tokens (1000 * (tokens.size + 2)) (.rule start) 0).run {} with
  | (some ([tree], _), _) => .ok tree
  | (_, p) => .error (Text.Order.sortedDistinct p.expected)

end Pattern

end SampleTypes.Source
