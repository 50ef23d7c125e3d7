import SampleTypes.Source.Defect
import SampleTypes.Source.Grammar

/-!
# Soundness of readings

Not all that has a reading by the grammar is sound. Names must be identifiers; texts and octets do
not concatenate; a word operator is kept apart from its operands wherever they could run together;
only the last handler catches everything. The faults of a reading are met in the order in which its
parts are complete: what a part is made of comes before the part itself, mostly from left to right.

## Main results

* `fault?_leaf`: a token alone has no fault.
-/

namespace SampleTypes.Source

namespace Soundness

/-! ## The edges of a part -/

mutual

/-- The first token of a part. -/
def firstToken? : Tree Rule → Option Token
  | .leaf token => some token
  | .node _ parts => firstAmong? parts

/-- The first token of several parts. -/
def firstAmong? : List (Tree Rule) → Option Token
  | [] => none
  | part :: rest =>
    match firstToken? part with
    | some token => some token
    | none => firstAmong? rest

end

mutual

/-- Whether a part ends in an operand that is awaited. -/
def endsAwaited : Tree Rule → Bool
  | .leaf _ => false
  | .node .awaited _ => true
  | .node _ parts => lastEndsAwaited parts

/-- Whether the last of several parts ends in an operand that is awaited. -/
def lastEndsAwaited : List (Tree Rule) → Bool
  | [] => false
  | [part] => endsAwaited part
  | _ :: next :: rest => lastEndsAwaited (next :: rest)

end

/-- A part that is an operand with a star, and no tuple. -/
def isStarred : Tree Rule → Bool
  | .node _ (.leaf token :: _) => token.text = "*"
  | _ => false

/-- Whether a part touches what stands in front of it. -/
def touches (t : Tree Rule) : Bool :=
  (firstToken? t).any fun token => token.gap = .none

/-- Whether a part could run together with a word in front of it. -/
def mergesLeft (t : Tree Rule) : Bool :=
  touches t && (isStarred t || (firstToken? t).any fun token => token.kind = .number)

/-- Whether a part could run together with a word behind it. -/
def mergesRight (t : Tree Rule) : Bool :=
  isStarred t || endsAwaited t

/-! ## Words and operands -/

/-- What is said if a word and the operand behind it are not kept apart. -/
def behindWord (r : Rule) (word : String) : Option String :=
  match r, word with
  | .ifStatement, "if" | .elifClause, "elif" | .conditional, "if" | .comprehension, "if" =>
    some "Must have at least one space after 'if' keyword."
  | .conditional, "else" => some "Must have at least one space after 'else' keyword."
  | .whileStatement, "while" => some "Must have at least one space after 'while' keyword."
  | .forStatement, "for" | .comprehension, "for" =>
    some "Must have at least one space after 'for' keyword."
  | .forStatement, "in" | .comprehension, "in" =>
    some "Must have at least one space after 'in' keyword."
  | .withStatement, "with" => some "Must have at least one space after with keyword."
  | .returnStatement, "return" => some "Must have at least one space after 'return'."
  | .raiseStatement, "raise" => some "Must have at least one space after 'raise'."
  | .assertStatement, "assert" => some "Must have at least one space after 'assert'."
  | .deleteStatement, "del" => some "Must have at least one space after 'del'."
  | .yieldExpression, "yield" => some "Must have at least one space after 'yield' keyword."
  | .fromClause, "from" => some "Must have at least one space after 'from' keyword."
  | .awaited, "await" => some "Must have at least one space after await"
  | .inversion, "not" => some "Must have at least one space after not operator."
  | .disjunction, "or" | .conjunction, "and" =>
    some "Must have at least one space around boolean operator."
  | .comparison, "in" | .comparison, "is" | .comparison, "not" =>
    some "Must have at least one space around comparison operator."
  | _, _ => none

/-- What is said if a word and the operand in front of it are not kept apart. -/
def beforeWord (r : Rule) (word : String) : Option String :=
  match r, word with
  | .conditional, "if" | .comprehension, "if" =>
    some "Must have at least one space before 'if' keyword."
  | .conditional, "else" => some "Must have at least one space before 'else' keyword."
  | .forStatement, "in" | .comprehension, "in" =>
    some "Must have at least one space before 'in' keyword."
  | .withItem, "as" => some "Must have at least one space before as keyword."
  | .disjunction, "or" | .conjunction, "and" =>
    some "Must have at least one space around boolean operator."
  | .comparison, "in" | .comparison, "is" | .comparison, "not" =>
    some "Must have at least one space around comparison operator."
  | _, "for" => some "Must have at least one space before 'for' keyword."
  | _, "async" => some "Must have at least one space before 'async' keyword."
  | .raiseStatement, "from" => some "Must have at least one space before 'from'."
  | _, _ => none

/-- The first fault between neighbours: a word and an operand, an operand and a word, or an operand
and a clause that starts with a word. -/
def spacing (r : Rule) : List (Tree Rule) → Option Defect
  | .leaf word :: .node s parts :: rest =>
    match behindWord r word.text with
    | some message =>
      if mergesLeft (.node s parts) then some (.missingSpace message)
      else spacing r (.node s parts :: rest)
    | none => spacing r (.node s parts :: rest)
  | .node s parts :: next :: rest =>
    let isClause := match next with
      | .leaf _ => true
      | .node .comprehension _ => true
      | .node .fromClause _ => true
      | _ => false
    match firstToken? next with
    | some word =>
      match beforeWord r word.text with
      | some message =>
        if isClause && touches next && mergesRight (.node s parts) then
          some (.missingSpace message)
        else spacing r (next :: rest)
      | none => spacing r (next :: rest)
    | none => spacing r (next :: rest)
  | _ :: rest => spacing r rest
  | [] => none

/-! ## Strings -/

/-- Whether a string holds octets. -/
def isOctets : Tree Rule → Bool
  | .leaf token => token.text.any fun c => c = 'b' || c = 'B'
  | .node .. => false

/-- The first fault in a row of strings, from the last pair on. -/
def strings : List (Tree Rule) → Option Defect
  | [] => none
  | [_] => none
  | one :: next :: rest =>
    match strings (next :: rest) with
    | some defect => some defect
    | none =>
      match next, rest with
      | .node .template _, [] => some .finalTemplate
      | _, _ => if isOctets one = isOctets next then none else some .mixedStrings

/-! ## Parts -/

/-- A handler without a type. -/
def catchesAll : Tree Rule → Bool
  | .node .handler (_ :: .leaf _ :: _) => true
  | _ => false

/-- The handlers among the parts of a statement. -/
def handlers (parts : List (Tree Rule)) : List (Tree Rule) :=
  parts.filter fun
    | .node .handler _ => true
    | _ => false

/-- What is unsound about a part itself, if what it is made of is sound. -/
def ownFault? (r : Rule) (parts : List (Tree Rule)) : Option Defect :=
  match r, parts with
  | .name, [.leaf token] =>
    if Text.CharClass.isIdentifier token.text then none else some (.illegalName token.text)
  | .strings, _ => strings parts
  | .tryStatement, _ =>
    if (handlers parts).dropLast.any catchesAll then some .unreachableHandler else none
  | .comprehension, .leaf _ :: .leaf word :: _ =>
    if word.gap = .lineEnd then some .brokenStart else spacing r parts
  | _, _ => spacing r parts

/-- Puts the last part in front of the others. -/
def lastFirst {α : Type} (parts : List α) : List α :=
  parts.drop (parts.length - 1) ++ parts.dropLast

/-- Puts the last part, the block of a class or function statement, in front of a mark and what is
behind it. -/
def blockBefore (mark : String) (faults : List (Tree Rule × Option Defect)) :
    List (Tree Rule × Option Defect) :=
  let isOther : Tree Rule × Option Defect → Bool := fun
    | (.leaf token, _) => token.text ≠ mark
    | _ => true
  faults.takeWhile isOther ++ lastFirst (faults.dropWhile isOther)

/-- The order in which the parts of a part are complete. -/
def inOrder (r : Rule) (faults : List (Tree Rule × Option Defect)) :
    List (Tree Rule × Option Defect) :=
  match r, faults with
  | .conditional, [one, word, test, other, two] => [test, one, word, other, two]
  | .keywordArgument, [name, mark, value] => [value, mark, name]
  | .handler, _ => lastFirst faults
  | .groupHandler, _ => lastFirst faults
  | .decorated, _ => lastFirst faults
  | .classDefinition, _ => blockBefore "(" faults
  | .functionDefinition, _ => blockBefore "->" faults
  | _, _ => faults

mutual

/-- The first fault of a reading. -/
def fault? : Tree Rule → Option Defect
  | .leaf _ => none
  | .node r parts =>
    match (inOrder r (faults parts)).findSome? (·.2) with
    | some defect => some defect
    | none => ownFault? r parts

/-- Parts with the first fault of each. -/
def faults : List (Tree Rule) → List (Tree Rule × Option Defect)
  | [] => []
  | part :: rest => (part, fault? part) :: faults rest

end

@[simp] theorem fault?_leaf (token : Token) : fault? (.leaf token) = none := by
  simp [fault?]

end Soundness

end SampleTypes.Source
