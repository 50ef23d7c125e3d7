import SampleTypes.Text.LaterClass
import SampleTypes.Text.Literal

/-!
# Tokens of Python source

The first step of reading a source file: names, numbers, strings and marks, with the ends of
logical lines and the changes of indentation as tokens of their own. Blank lines and comments
leave no trace, and inside brackets a line goes on.

A formatted string is not one token: only its start, the tokens of its fields and its end are kept,
so that what stands in a field is read like any other expression. What the reader is inside of —
brackets, the text of a formatted string, a field — is kept on a stack.

Of the blanks between tokens a token keeps what the reading depends on later: whether it touches
the token in front of it, and whether a line ended between the two.
-/

namespace SampleTypes.Source

/-- What a token is. -/
inductive Token.Kind where
  | name
  | number
  | string
  | mark
  | newline
  | indent
  | dedent
  /-- The start of a formatted string. -/
  | formatStart
  /-- The start of a template string. -/
  | templateStart
  /-- The end of a formatted or template string. -/
  | formatEnd
  /-- The end of the source. -/
  | finish
  deriving DecidableEq, Repr

/-- What stands between a token and the one in front of it. -/
inductive Token.Gap where
  | none
  | blanks
  /-- Blanks in which a line ends. -/
  | lineEnd
  deriving DecidableEq, Repr

/-- A token. Names, numbers and marks keep their text, and strings what stands in front of their
contents. -/
structure Token where
  kind : Token.Kind
  text : String := ""
  gap : Token.Gap := .none
  deriving DecidableEq, Repr

/-- Why a text has no tokens. -/
inductive LexicalFault where
  | unclosedString
  | malformedNumber
  | misplacedIndentation
  | looseBackslash
  | unmatchedBracket
  | looseBrace
  | strayCharacter (c : Char)
  | illegalWord (word : String)
  deriving DecidableEq, Repr

namespace LexicalFault

/-- A character of a word as messages show it: as itself, or by its number if it has no form of its
own. -/
def shownChar (c : Char) : List Char :=
  if Text.LaterClass.isExtender c || !Text.LaterClass.isVisible c then
    ['\\', 'u', '\x7b'] ++ Nat.toDigits 16 c.toNat ++ ['\x7d']
  else [c]

/-- The wording of a lexical fault. -/
def message : LexicalFault → String
  | .unclosedString => "unterminated string literal"
  | .malformedNumber => "malformed number"
  | .misplacedIndentation => "inconsistent indentation"
  | .looseBackslash => "unexpected characters after a line continuation"
  | .unmatchedBracket => "closing bracket without its match"
  | .looseBrace => "single closing brace in a formatted string"
  | .strayCharacter c => String.ofList [c] ++ " is not a valid character"
  | .illegalWord word =>
    "\"" ++ String.ofList (word.toList.flatMap shownChar) ++ "\" is not a valid identifier"

end LexicalFault

namespace Token

/-! ## Characters -/

/-- A letter, digit or low line, or any character outside ASCII. -/
def isNameChar (c : Char) : Bool :=
  ('a' ≤ c && c ≤ 'z') || ('A' ≤ c && c ≤ 'Z') || ('0' ≤ c && c ≤ '9') || c = '_' ||
    128 ≤ c.toNat

/-- A decimal digit. -/
def isDigit (c : Char) : Bool :=
  '0' ≤ c && c ≤ '9'

/-- A hexadecimal digit. -/
def isHex (c : Char) : Bool :=
  isDigit c || ('a' ≤ c && c ≤ 'f') || ('A' ≤ c && c ≤ 'F')

/-- A quote. -/
def isQuote (c : Char) : Bool :=
  c = '"' || c = '\''

/-! ## Numbers -/

/-- The text after a run of digits in which single low lines may stand between digits. -/
def afterDigits (isOne : Char → Bool) : List Char → List Char
  | '_' :: d :: rest => if isOne d then afterDigits isOne rest else '_' :: d :: rest
  | d :: rest => if isOne d then afterDigits isOne rest else d :: rest
  | [] => []

/-- The text after a run that starts with a digit. -/
def digits? (isOne : Char → Bool) : List Char → Option (List Char)
  | d :: rest => if isOne d then some (afterDigits isOne rest) else none
  | [] => none

/-- The digits that a letter after a zero announces. -/
def baseDigit? (c : Char) : Option (Char → Bool) :=
  if c = 'x' ∨ c = 'X' then some isHex
  else if c = 'o' ∨ c = 'O' then some fun d => '0' ≤ d && d ≤ '7'
  else if c = 'b' ∨ c = 'B' then some fun d => d = '0' || d = '1'
  else none

/-- The text after an exponent, if there is one. -/
def afterExponent (s : List Char) : Option (List Char) :=
  match s with
  | letter :: rest =>
    if letter = 'e' ∨ letter = 'E' then
      match rest with
      | sign :: ds =>
        if sign = '+' ∨ sign = '-' then digits? isDigit ds else digits? isDigit rest
      | [] => none
    else none
  | [] => none

/-- The text after the letter of an imaginary number, if there is one. -/
def afterImaginary : List Char → Option (List Char)
  | c :: rest => if c = 'j' ∨ c = 'J' then some rest else none
  | [] => none

/-- The text after a number in base ten. Only zero may start with zeros, unless a point, an
exponent or the letter of an imaginary number follows. -/
def afterDecimal? (s : List Char) : Option (List Char) :=
  let afterWhole := (digits? isDigit s).getD s
  let whole := s.take (s.length - afterWhole.length)
  let afterPoint :=
    match afterWhole with
    | '.' :: rest => some ((digits? isDigit rest).getD rest)
    | _ => none
  let afterPower := afterExponent (afterPoint.getD afterWhole)
  let plain := afterPower.getD (afterPoint.getD afterWhole)
  match afterImaginary plain with
  | some rest => some rest
  | none =>
    if afterPoint.isNone && afterPower.isNone && whole.head? = some '0' &&
        whole.any (fun d => d ≠ '0' && d ≠ '_') then none
    else some plain

/-- A character that can belong to a number. -/
def isNumberChar (c : Char) : Bool :=
  isHex c || ('g' ≤ c && c ≤ 'z') || ('G' ≤ c && c ≤ 'Z') || c = '_' || c = '.' || c = '+' || c = '-'

/-- The text after a number that starts here. -/
def afterNumber? (s : List Char) : Option (List Char) :=
  match s with
  | '0' :: c :: rest =>
    match baseDigit? c with
    | some isOne => digits? isOne (match rest with
      | '_' :: ds => ds
      | ds => ds)
    | none => afterDecimal? s
  | _ => afterDecimal? s

/-- The number that starts here and the text after it. -/
def number (s : List Char) : Except LexicalFault (String × List Char) :=
  let near := s.takeWhile isNumberChar
  match afterNumber? near with
  | none => .error .malformedNumber
  | some after =>
    let text := near.take (near.length - after.length)
    .ok (String.ofList text, s.drop text.length)

/-! ## Strings -/

/-- How a string is delimited. -/
structure Quotes where
  quote : Char
  triple : Bool
  raw : Bool
  deriving DecidableEq, Repr

/-- The delimiter at the start of a text, and the text after it. -/
def openQuotes (raw : Bool) (s : List Char) : Option (Quotes × List Char) :=
  match s with
  | a :: b :: c :: rest =>
    if isQuote a then
      if b = a ∧ c = a then some (⟨a, true, raw⟩, rest) else some (⟨a, false, raw⟩, b :: c :: rest)
    else none
  | a :: rest => if isQuote a then some (⟨a, false, raw⟩, rest) else none
  | [] => none

/-- The text after the closing delimiter, if it stands here. -/
def closeQuotes? (q : Quotes) (s : List Char) : Option (List Char) :=
  if q.triple then
    match s with
    | a :: b :: c :: rest => if a = q.quote ∧ b = q.quote ∧ c = q.quote then some rest else none
    | _ => none
  else
    match s with
    | a :: rest => if a = q.quote then some rest else none
    | [] => none

/-- The text after a plain string, read after its opening delimiter. A backslash protects the
character behind it; a line feed ends a string that has no triple quotes, which is an error. -/
def afterString? (q : Quotes) : (fuel : Nat) → List Char → Option (List Char)
  | 0, _ => none
  | fuel + 1, s =>
    match closeQuotes? q s with
    | some rest => some rest
    | none =>
      match s with
      | [] => none
      | '\\' :: _ :: rest => afterString? q fuel rest
      | c :: rest => if c = '\n' && !q.triple then none else afterString? q fuel rest

/-- What a word directly in front of a quote says about the string. -/
inductive Prefixed where
  | plain
  | formatted (start : Kind) (raw : Bool)

/-- The kind of string that a word in front of a quote announces. -/
def prefixed? (word : String) : Option Prefixed :=
  let lower := String.ofList (word.toList.map Char.toLower)
  if lower ∈ ["r", "u", "b", "br", "rb"] then some .plain
  else if lower = "f" then some (.formatted .formatStart false)
  else if lower ∈ ["fr", "rf"] then some (.formatted .formatStart true)
  else if lower = "t" then some (.formatted .templateStart false)
  else if lower = "rt" then some (.formatted .templateStart true)
  else none

/-! ## Marks -/

/-- The marks of more than one character, longest first. -/
def longMarks : List String :=
  ["**=", "//=", ">>=", "<<=", "...", "**", "//", ">>", "<<", "<=", ">=", "==", "!=", "->", "+=",
   "-=", "*=", "/=", "%=", "&=", "|=", "^=", "@=", ":="]

/-- The marks of one character, brackets aside. -/
def shortMarks : List Char :=
  [':', ',', ';', '.', '+', '-', '*', '/', '%', '&', '|', '^', '~', '<', '>', '=', '@']

/-- The text after `word`, if it starts with it. -/
def after? : (word s : List Char) → Option (List Char)
  | [], s => some s
  | _ :: _, [] => none
  | w :: word, c :: s => if w = c then after? word s else none

/-- The mark at the start of a text, and the text after it. -/
def mark? (s : List Char) : Option (String × List Char) :=
  match longMarks.findSome? fun m => (after? m.toList s).map fun rest => (m, rest) with
  | some found => some found
  | none =>
    match s with
    | c :: rest => if c ∈ shortMarks then some (String.ofList [c], rest) else none
    | [] => none

/-- The closing bracket for an opening one. -/
def closing? (c : Char) : Option Char :=
  if c = '(' then some ')' else if c = '[' then some ']' else if c = '\x7b' then some '\x7d'
  else none

/-! ## Lines -/

/-- What the reader is inside of. -/
inductive Context where
  /-- A bracket that this one closes. -/
  | bracket (closer : Char)
  /-- The text of a formatted string; `named` holds inside the name of a character. -/
  | text (quotes : Quotes) (named : Bool)
  /-- A field of a formatted string. -/
  | field (quotes : Quotes)
  /-- The format of a field. -/
  | format (quotes : Quotes)
  deriving DecidableEq, Repr

/-- An indentation, measured once with tab stops at eight and once with tabs of one column, and the
blanks it is made of. Two indentations are comparable only if both measures agree. -/
structure Indentation where
  columns : Nat := 0
  strict : Nat := 0
  blanks : List Char := []
  deriving DecidableEq, Repr

/-- Measures the blanks at the start of a line, which are collected in reverse. -/
def measure : Indentation → List Char → Indentation × List Char
  | i, ' ' :: rest => measure ⟨i.columns + 1, i.strict + 1, ' ' :: i.blanks⟩ rest
  | i, '\t' :: rest => measure ⟨(i.columns / 8 + 1) * 8, i.strict + 1, '\t' :: i.blanks⟩ rest
  | i, '\x0c' :: rest => measure ⟨0, 0, '\x0c' :: i.blanks⟩ rest
  | i, rest => ({ i with blanks := i.blanks.reverse }, rest)

/-- The deepest indentation there can be. -/
def deepest : Nat := 100

/-- Leaves indentations until the given one is reached. -/
def leave (i : Indentation) : List Indentation → Option (List Token × List Indentation)
  | [] => none
  | top :: below =>
    if top.columns = i.columns then
      if top.strict = i.strict then some ([], top :: below) else none
    else if i.columns < top.columns then
      (leave i below).map fun (tokens, left) => (⟨.dedent, "", .none⟩ :: tokens, left)
    else none

/-- The tokens for the indentation of a line, and the indentations that are then open. The blanks
of a deeper line go on from those of the line it belongs to. -/
def indentTo (i : Indentation) (opened : List Indentation) :
    Option (List Token × List Indentation) :=
  match opened with
  | [] => none
  | top :: below =>
    if top.columns < i.columns then
      if top.strict < i.strict ∧ top.blanks <+: i.blanks ∧ opened.length < deepest then
        some ([⟨.indent, "", .none⟩], i :: top :: below)
      else none
    else leave i (top :: below)

/-- The tokens at the end of a text: the last line ends, all indentations are left. -/
def ending (open? : Bool) (opened : List Indentation) : List Token :=
  (if open? then [⟨.newline, "", .none⟩] else []) ++
    List.replicate (opened.length - 1) ⟨.dedent, "", .none⟩ ++ [⟨.finish, "", .none⟩]

/-- A name made of letters, digits and low lines, or one that is a word all the same. -/
def isName (word : String) : Bool :=
  word.toList.all (fun c => c.toNat < 128) || Text.LaterClass.isWord word

/-- What one step finds: a token or none, the contexts, and the text that is left. -/
abbrev Step := Except LexicalFault (Option (Kind × String) × List Context × List Char)

/-- Reads on in the text of a formatted string. In front of a named character the contexts turn to
its name, which ends at the next closing brace. -/
def textStep (q : Quotes) (named : Bool) (outer : List Context) (s : List Char) : Step :=
  let here := Context.text q named :: outer
  match closeQuotes? q s with
  | some rest => .ok (some (.formatEnd, ""), outer, rest)
  | none =>
    match s with
    | [] => .error .unclosedString
    | c :: rest =>
      if c = '\n' && !q.triple then .error .unclosedString
      else if named then .ok (none, .text q (c ≠ '\x7d') :: outer, rest)
      else if c = '\\' then
        match rest with
        | [] => .error .unclosedString
        | d :: tail =>
          if q.raw then .ok (none, here, if isQuote d || d = '\\' then tail else rest)
          else
            match d, tail with
            | 'N', '\x7b' :: tail => .ok (none, .text q true :: outer, tail)
            | _, _ => .ok (none, here, if d = '\x7b' ∨ d = '\x7d' then rest else tail)
      else if c = '\x7b' then
        match rest with
        | '\x7b' :: tail => .ok (none, here, tail)
        | _ => .ok (some (.mark, "\x7b"), .field q :: here, rest)
      else if c = '\x7d' then
        match rest with
        | '\x7d' :: tail => .ok (none, here, tail)
        | _ => .error .looseBrace
      else .ok (none, here, rest)

/-- Reads on in the format of a field. -/
def formatStep (q : Quotes) (outer : List Context) (s : List Char) : Step :=
  let here := Context.format q :: outer
  match closeQuotes? q s with
  | some _ => .error .unclosedString
  | none =>
    match s with
    | [] => .error .unclosedString
    | c :: rest =>
      if c = '\n' && !q.triple then .error .unclosedString
      else if c = '\x7b' then .ok (some (.mark, "\x7b"), .field q :: here, rest)
      else if c = '\x7d' then .ok (some (.mark, "\x7d"), outer, rest)
      else if c = '\\' then
        match rest with
        | [] => .error .unclosedString
        | d :: tail =>
          let skipped :=
            if q.raw then isQuote d || d = '\\' else d ≠ '\x7b' && d ≠ '\x7d'
          .ok (none, here, if skipped then tail else rest)
      else .ok (none, here, rest)

/-- Reads a plain string from its quotes on. -/
def stringStep (fuel : Nat) (before : String) (contexts : List Context) (s : List Char) : Step :=
  match openQuotes true s with
  | none => .error .unclosedString
  | some (q, inside) =>
    match afterString? q fuel inside with
    | none => .error .unclosedString
    | some after => .ok (some (.string, before.push q.quote), contexts, after)

/-- Reads a word: a name, or the start of a string that it announces. -/
def wordStep (fuel : Nat) (contexts : List Context) (s : List Char) : Step :=
  let word := String.ofList (s.takeWhile isNameChar)
  let rest := s.dropWhile isNameChar
  let kind := if (rest.head?.map isQuote).getD false then prefixed? word else none
  match kind with
  | some .plain => stringStep fuel word contexts rest
  | some (.formatted start raw) =>
    match openQuotes raw rest with
    | none => .error .unclosedString
    | some (q, inside) =>
      .ok (some (start, word.push q.quote), .text q false :: contexts, inside)
  | none =>
    if isName word then .ok (some (.name, word), contexts, rest) else .error (.illegalWord word)

/-- A bracket that closes something. -/
def isCloser (c : Char) : Bool :=
  c = ')' || c = ']' || c = '\x7d'

/-- Reads a mark that is no bracket. -/
def markStep (contexts : List Context) (s : List Char) : Step :=
  match mark? s, s with
  | some (m, after), _ => .ok (some (.mark, m), contexts, after)
  | none, c :: _ => .error (.strayCharacter c)
  | none, [] => .error .unclosedString

/-- Reads one token of code. -/
def codeStep (fuel : Nat) (contexts : List Context) (s : List Char) : Step :=
  match s with
  | [] => .error .unclosedString
  | c :: rest =>
    let mark := Option.some (Kind.mark, String.ofList [c])
    if isDigit c || (c = '.' && (rest.head?.map isDigit).getD false) then
      (number s).map fun (text, after) => (some (.number, text), contexts, after)
    else if isNameChar c then wordStep fuel contexts s
    else if isQuote c then stringStep fuel "" contexts s
    else
      match closing? c with
      | some closer => .ok (mark, .bracket closer :: contexts, rest)
      | none =>
        match contexts with
        | .bracket closer :: outer =>
          if c = closer then .ok (mark, outer, rest)
          else if isCloser c then .error .unmatchedBracket
          else markStep contexts s
        | .field q :: outer =>
          if c = '\x7d' then .ok (mark, outer, rest)
          else if c = ':' then .ok (mark, .format q :: outer, rest)
          else if c = '!' && rest.head? ≠ some '=' then .ok (mark, contexts, rest)
          else if isCloser c then .error .unmatchedBracket
          else markStep contexts s
        | _ => if isCloser c then .error .unmatchedBracket else markStep contexts s

/-- Where the reader is in a line. -/
inductive Place where
  /-- At the start of a line. -/
  | start
  /-- Behind a backslash that opened a line, before any token. -/
  | idle
  /-- Inside a line. -/
  | inside
  deriving DecidableEq, Repr

/-- Reads a text into tokens, which are collected in `found`. Each step takes a character at least,
or ends a line's indentation. A line that a backslash opens has no indentation, and it is no line
of its own until a token comes. -/
def scan : (fuel : Nat) → Place → Gap → List Indentation → List Context → Array Token →
    List Char → Except LexicalFault (Array Token)
  | 0, _, _, _, _, _, _ => .error .unclosedString
  | fuel + 1, .start, _, opened, contexts, found, s =>
    let (i, rest) := measure {} s
    match rest with
    | [] => .ok (found ++ ending false opened)
    | '\n' :: rest => scan fuel .start .none opened contexts found rest
    | '#' :: rest =>
      scan fuel .start .none opened contexts found ((rest.dropWhile (· ≠ '\n')).drop 1)
    | '\\' :: _ => scan fuel .idle .none opened contexts found rest
    | _ =>
      match indentTo i opened with
      | none => .error .misplacedIndentation
      | some (tokens, opened) => scan fuel .inside .none opened contexts (found ++ tokens) rest
  | fuel + 1, place, gap, opened, contexts, found, s =>
    let textual :=
      match contexts with
      | .text q named :: outer => some (textStep q named outer s)
      | .format q :: outer => some (formatStep q outer s)
      | _ => none
    let step : Option Step :=
      match textual, s with
      | some step, _ => some step
      | none, [] => none
      | none, c :: _ =>
        if c = ' ' ∨ c = '\t' ∨ c = '\x0c' ∨ c = '#' ∨ c = '\n' ∨ c = '\\' then none
        else some (codeStep fuel contexts s)
    match step, s with
    | some (.error fault), _ => .error fault
    | some (.ok (none, contexts, rest)), _ => scan fuel place gap opened contexts found rest
    | some (.ok (some (kind, text), contexts, rest)), _ =>
      scan fuel .inside .none opened contexts (found.push ⟨kind, text, gap⟩) rest
    | none, [] => .ok (found ++ ending (place = .inside) opened)
    | none, '\\' :: '\n' :: [] => .error .looseBackslash
    | none, '\\' :: '\n' :: rest =>
      scan fuel place (if gap = .none then .blanks else gap) opened contexts found rest
    | none, '\\' :: _ => .error .looseBackslash
    | none, '\n' :: rest =>
      if contexts.isEmpty then
        scan fuel .start .none opened contexts
          (if place = .inside then found.push ⟨.newline, "", gap⟩ else found) rest
      else scan fuel place .lineEnd opened contexts found rest
    | none, '#' :: rest =>
      scan fuel place (if gap = .none then .blanks else gap) opened contexts found
        (rest.dropWhile (· ≠ '\n'))
    | none, _ :: rest =>
      scan fuel place (if gap = .none then .blanks else gap) opened contexts found rest

/-- A text in which every line ends with a line feed alone. -/
def withLineFeeds : List Char → List Char
  | '\r' :: '\n' :: rest => '\n' :: withLineFeeds rest
  | '\r' :: rest => '\n' :: withLineFeeds rest
  | c :: rest => c :: withLineFeeds rest
  | [] => []

/-- The tokens of a text, the last of which marks its end. -/
def ofText (s : List Char) : Except LexicalFault (Array Token) :=
  let s := withLineFeeds s
  scan (2 * s.length + 2) .start .none [{}] [] #[] s

end Token

end SampleTypes.Source
