import SampleTypes.Decimal.Numeral
import SampleTypes.Setting

/-!
# Reading a configuration file

A reader of TOML 1.0. The text that is left travels through every function, as in the reader of
documents; since a broken file counts as an empty one, a refusal needs no place and no wording.
Only a whole number with too many digits is told apart.

Statements change a table by path. What they may change is recorded beside the table: a path that
a header has opened cannot be opened again, nor one that a dotted key has passed through once the
next header comes, and nothing inside a value can be changed from outside.
-/

namespace SampleTypes.Toml

open SampleTypes.Decimal (Binary64)

/-- Why a text is not a configuration. -/
inductive Refusal where
  | malformed
  | longInteger (digits : Nat)
  deriving DecidableEq, Repr

namespace Reader

/-- A refusal of the text. -/
def malformed {α : Type} : Except Refusal α :=
  .error .malformed

/-- The outcome of an optional step. -/
def required {α : Type} : Option α → Except Refusal α
  | some a => .ok a
  | none => malformed

/-! ## Characters and comments -/

/-- A blank inside a line. -/
def isBlank (c : Char) : Bool :=
  c = ' ' || c = '\t'

/-- A blank or a line feed. -/
def isBlankOrFeed (c : Char) : Bool :=
  isBlank c || c = '\n'

/-- A control character that no line may hold. -/
def isIllegal (c : Char) : Bool :=
  (c.toNat < 32 && c ≠ '\t') || c.toNat = 127

/-- A character of a key without quotes. -/
def isBare (c : Char) : Bool :=
  ('a' ≤ c && c ≤ 'z') || ('A' ≤ c && c ≤ 'Z') || ('0' ≤ c && c ≤ '9') || c = '-' || c = '_'

/-- A decimal digit. -/
def isDigit (c : Char) : Bool :=
  '0' ≤ c && c ≤ '9'

/-- A hexadecimal digit. -/
def isHex (c : Char) : Bool :=
  isDigit c || ('a' ≤ c && c ≤ 'f') || ('A' ≤ c && c ≤ 'F')

/-- The value of a digit in any base up to sixteen. -/
def digitValue (c : Char) : Nat :=
  if isDigit c then c.toNat - '0'.toNat
  else if 'a' ≤ c then c.toNat - 'a'.toNat + 10
  else c.toNat - 'A'.toNat + 10

/-- The number that digits of a base write. -/
def number (base : Nat) (ds : List Char) : Nat :=
  ds.foldl (fun n c => base * n + digitValue c) 0

/-- The text after the blanks. -/
def skipBlanks (s : List Char) : List Char :=
  s.dropWhile isBlank

/-- The text after a comment, if one starts here. The line feed stays. -/
def skipComment (s : List Char) : Except Refusal (List Char) :=
  match s with
  | '#' :: rest =>
    if (rest.takeWhile (· ≠ '\n')).any isIllegal then malformed
    else .ok (rest.dropWhile (· ≠ '\n'))
  | other => .ok other

/-- The text after all blanks, line feeds and comments, of which there are fewer than `fuel`. -/
def skipSpace : (fuel : Nat) → List Char → Except Refusal (List Char)
  | 0, s => .ok s
  | fuel + 1, s =>
    match s.dropWhile isBlankOrFeed with
    | '#' :: rest => do
      let after ← skipComment ('#' :: rest)
      skipSpace fuel after
    | other => .ok other

/-- The text after `word`, if it starts with it. -/
def after? : (word s : List Char) → Option (List Char)
  | [], s => some s
  | _ :: _, [] => none
  | w :: word, c :: s => if w = c then after? word s else none

/-! ## Strings -/

/-- The character that an escape of `width` hexadecimal digits writes. -/
def readHexEscape (width : Nat) (s : List Char) : Except Refusal (Char × List Char) :=
  let ds := s.take width
  let code := number 16 ds
  if ds.length = width ∧ ds.all isHex ∧ code.isValidChar then
    .ok (Char.ofNat code, s.drop width)
  else malformed

/-- The character of a one-letter escape. -/
def shortEscape? (c : Char) : Option Char :=
  match c with
  | 'b' => some '\x08'
  | 't' => some '\t'
  | 'n' => some '\n'
  | 'f' => some '\x0c'
  | 'r' => some '\r'
  | '"' => some '"'
  | '\\' => some '\\'
  | _ => none

/-- What an escape stands for, read after its backslash. In a string over several lines a
backslash before the end of a line swallows all space up to the next character. -/
def readEscape (multiline : Bool) (s : List Char) : Except Refusal (List Char × List Char) :=
  match s with
  | [] => malformed
  | c :: rest =>
    if multiline && isBlankOrFeed c then
      match (c :: rest).dropWhile isBlank with
      | [] => .ok ([], [])
      | '\n' :: after => .ok ([], after.dropWhile isBlankOrFeed)
      | _ => malformed
    else if c = 'u' then do
      let (char, after) ← readHexEscape 4 rest
      return ([char], after)
    else if c = 'U' then do
      let (char, after) ← readHexEscape 8 rest
      return ([char], after)
    else do
      let char ← required (shortEscape? c)
      return ([char], rest)

/-- Reads a string on one line after its opening quote. -/
def readBasic : (fuel : Nat) → List Char → Except Refusal (List Char × List Char)
  | 0, _ => malformed
  | _ + 1, [] => malformed
  | fuel + 1, c :: rest =>
    if c = '"' then .ok ([], rest)
    else if c = '\\' then do
      let (chars, after) ← readEscape false rest
      let (more, after) ← readBasic fuel after
      return (chars ++ more, after)
    else if isIllegal c then malformed
    else do
      let (more, after) ← readBasic fuel rest
      return (c :: more, after)

/-- Reads a string over several lines, up to three quotes. -/
def readBasicLines : (fuel : Nat) → List Char → Except Refusal (List Char × List Char)
  | 0, _ => malformed
  | _ + 1, [] => malformed
  | fuel + 1, c :: rest =>
    if c = '"' then
      match rest with
      | '"' :: '"' :: after => .ok ([], after)
      | _ => do
        let (more, after) ← readBasicLines fuel rest
        return (c :: more, after)
    else if c = '\\' then do
      let (chars, after) ← readEscape true rest
      let (more, after) ← readBasicLines fuel after
      return (chars ++ more, after)
    else if isIllegal c && c ≠ '\n' then malformed
    else do
      let (more, after) ← readBasicLines fuel rest
      return (c :: more, after)

/-- Reads a string without escapes after its opening apostrophe. -/
def readVerbatim (s : List Char) : Except Refusal (List Char × List Char) :=
  let inside := s.takeWhile (· ≠ '\'')
  match s.dropWhile (· ≠ '\'') with
  | [] => malformed
  | _ :: after => if inside.any isIllegal then malformed else .ok (inside, after)

/-- Reads a string without escapes over several lines, up to three apostrophes. -/
def readVerbatimLines : List Char → Except Refusal (List Char × List Char)
  | '\'' :: '\'' :: '\'' :: after => .ok ([], after)
  | [] => malformed
  | c :: rest =>
    if isIllegal c && c ≠ '\n' then malformed
    else do
      let (more, after) ← readVerbatimLines rest
      return (c :: more, after)

/-- Up to two quotes more belong to a string over several lines. -/
def extraQuotes (quote : Char) (inside after : List Char) : List Char × List Char :=
  match after with
  | a :: b :: rest =>
    if a = quote then
      if b = quote then (inside ++ [quote, quote], rest) else (inside ++ [quote], b :: rest)
    else (inside, after)
  | [a] => if a = quote then (inside ++ [quote], []) else (inside, after)
  | [] => (inside, [])

/-- The text after a line feed that directly follows the opening quotes. -/
def skipFirstFeed : List Char → List Char
  | '\n' :: rest => rest
  | rest => rest

/-- Reads a string in double quotes, from the first quote on. -/
def readQuoted (fuel : Nat) (s : List Char) : Except Refusal (List Char × List Char) :=
  match after? ['"', '"', '"'] s with
  | some rest => do
    let (inside, after) ← readBasicLines fuel (skipFirstFeed rest)
    return extraQuotes '"' inside after
  | none => readBasic fuel (s.drop 1)

/-- Reads a string in apostrophes, from the first one on. -/
def readApostrophed (s : List Char) : Except Refusal (List Char × List Char) :=
  match after? ['\'', '\'', '\''] s with
  | some rest => do
    let (inside, after) ← readVerbatimLines (skipFirstFeed rest)
    return extraQuotes '\'' inside after
  | none => readVerbatim (s.drop 1)

/-! ## Dates and times -/

/-- A number of exactly `width` decimal digits. -/
def fixed? (width : Nat) (s : List Char) : Option (Nat × List Char) :=
  let ds := s.take width
  if ds.length = width ∧ ds.all isDigit then some (number 10 ds, s.drop width) else none

/-- A number of two digits up to a limit. -/
def twoUpTo? (limit : Nat) (s : List Char) : Option (Nat × List Char) :=
  (fixed? 2 s).bind fun (n, rest) => if n ≤ limit then some (n, rest) else none

/-- The microseconds after a point: six digits count, the others are dropped. -/
def micro? : List Char → Nat × List Char
  | '.' :: d :: rest =>
    if isDigit d then
      let ds := d :: rest.takeWhile isDigit
      let six := ds.take 6
      (number 10 (six ++ List.replicate (6 - six.length) '0'), rest.dropWhile isDigit)
    else (0, '.' :: d :: rest)
  | rest => (0, rest)

/-- A time of day. -/
def time? (s : List Char) : Option (TimeOfDay × List Char) := do
  let (hour, s) ← twoUpTo? 23 s
  let s ← after? [':'] s
  let (minute, s) ← twoUpTo? 59 s
  let s ← after? [':'] s
  let (second, s) ← twoUpTo? 59 s
  let (micro, s) := micro? s
  return (⟨hour, minute, second, micro⟩, s)

/-- The minutes of an offset. -/
def offset? (s : List Char) : Option (Int × List Char) :=
  match s with
  | [] => none
  | c :: rest =>
    if c = 'Z' ∨ c = 'z' then some (0, rest)
    else if c = '+' ∨ c = '-' then do
      let (hours, s) ← twoUpTo? 23 rest
      let s ← after? [':'] s
      let (minutes, s) ← twoUpTo? 59 s
      let size : Int := hours * 60 + minutes
      return (if c = '-' then -size else size, s)
    else none

/-- A date whose month and day are in range as numbers. -/
def date? (s : List Char) : Option (Date × List Char) := do
  let (year, s) ← fixed? 4 s
  let s ← after? ['-'] s
  let (month, s) ← twoUpTo? 12 s
  let s ← after? ['-'] s
  let (day, s) ← twoUpTo? 31 s
  if month = 0 ∨ day = 0 then none else return (⟨year, month, day⟩, s)

/-- The time after a date. -/
def timeAfterDate? (s : List Char) : Option (TimeOfDay × List Char) :=
  match s with
  | [] => none
  | c :: rest => if c = 'T' ∨ c = 't' ∨ c = ' ' then time? rest else none

/-- A calendar value, if one starts here. A date that does not exist is a refusal. -/
def readMoment (s : List Char) : Option (Except Refusal (Setting × List Char)) :=
  match date? s with
  | some (date, rest) =>
    some <|
      if !date.isValid then malformed
      else
        match timeAfterDate? rest with
        | none => .ok (.moment (.date date), rest)
        | some (time, rest) =>
          match offset? rest with
          | none => .ok (.moment (.local date time), rest)
          | some (minutes, rest) => .ok (.moment (.offset date time minutes), rest)
  | none => (time? s).map fun (time, rest) => .ok (.moment (.time time), rest)

/-! ## Numbers -/

/-- The digits of a run in which single low lines may stand between digits. -/
def digitRun (isOne : Char → Bool) : List Char → List Char × List Char
  | '_' :: d :: rest =>
    if isOne d then
      let (ds, after) := digitRun isOne rest
      (d :: ds, after)
    else ([], '_' :: d :: rest)
  | d :: rest =>
    if isOne d then
      let (ds, after) := digitRun isOne rest
      (d :: ds, after)
    else ([], d :: rest)
  | [] => ([], [])

/-- A run that starts with a digit. -/
def digits? (isOne : Char → Bool) : List Char → Option (List Char × List Char)
  | d :: rest => if isOne d then some (digitRun isOne (d :: rest)) else none
  | [] => none

/-- A whole number in another base, after its zero. -/
def based? (s : List Char) : Option (Setting × List Char) :=
  match s with
  | c :: rest =>
    if c = 'x' then (digits? isHex rest).map fun (ds, after) => (.int (number 16 ds), after)
    else if c = 'b' then
      (digits? (fun d => d = '0' || d = '1') rest).map fun (ds, after) =>
        (.int (number 2 ds), after)
    else if c = 'o' then
      (digits? (fun d => '0' ≤ d && d ≤ '7') rest).map fun (ds, after) =>
        (.int (number 8 ds), after)
    else none
  | [] => none

/-- The whole part of a decimal number: a zero alone, or digits that start with another one. -/
def wholePart? : List Char → Option (List Char × List Char)
  | '0' :: rest => some (['0'], rest)
  | s => digits? isDigit s

/-- The digits after a point. -/
def fraction? : List Char → Option (List Char × List Char)
  | '.' :: rest => digits? isDigit rest
  | _ => none

/-- An exponent. -/
def exponent? : List Char → Option (Int × List Char)
  | c :: rest =>
    if c = 'e' ∨ c = 'E' then
      let (negative, ds) := Decimal.Numeral.readSign rest
      (digits? isDigit ds).map fun (ds, after) =>
        let size : Int := number 10 ds
        (if negative then -size else size, after)
    else none
  | [] => none

/-- The largest number of digits of a whole number. -/
def digitLimit : Nat := 4300

/-- A decimal number, if one starts here. -/
def readDecimal (s : List Char) : Option (Except Refusal (Setting × List Char)) :=
  let (negative, body) := Decimal.Numeral.readSign s
  (wholePart? body).map fun (whole, rest) =>
    let fraction := fraction? rest
    let afterFraction := (fraction.map Prod.snd).getD rest
    let exponent := exponent? afterFraction
    match fraction, exponent with
    | none, none =>
      if digitLimit < whole.length then .error (.longInteger whole.length)
      else
        let size : Int := number 10 whole
        .ok (.int (if negative then -size else size), rest)
    | _, _ =>
      let ds := (fraction.map Prod.fst).getD []
      let power := (exponent.map Prod.fst).getD 0 - ds.length
      .ok (.float (Binary64.ofDecimal negative (number 10 (whole ++ ds)) power),
        (exponent.map Prod.snd).getD afterFraction)

/-- A number, if one starts here. -/
def readNumber (s : List Char) : Option (Except Refusal (Setting × List Char)) :=
  match s with
  | '0' :: rest =>
    match based? rest with
    | some found => some (.ok found)
    | none => readDecimal s
  | _ => readDecimal s

/-- The values that are written as names. -/
def names : List (List Char × Setting) :=
  [("true".toList, .bool true), ("false".toList, .bool false)]

/-- The numbers that are written as names. -/
def numberNames : List (List Char × Setting) :=
  [("inf".toList, .float (Binary64.infinity false)),
   ("+inf".toList, .float (Binary64.infinity false)),
   ("-inf".toList, .float (Binary64.infinity true)), ("nan".toList, .float Binary64.nan),
   ("+nan".toList, .float Binary64.nan), ("-nan".toList, .float Binary64.nan)]

/-- A value that is written as one of some names. -/
def named? (table : List (List Char × Setting)) (s : List Char) : Option (Setting × List Char) :=
  table.findSome? fun (word, value) => (after? word s).map fun rest => (value, rest)

/-- Reads a value that is neither a string nor a container. -/
def readScalar (s : List Char) : Except Refusal (Setting × List Char) :=
  match named? names s with
  | some found => .ok found
  | none =>
    match readMoment s with
    | some outcome => outcome
    | none =>
      match readNumber s with
      | some outcome => outcome
      | none => required (named? numberNames s)

/-! ## Keys -/

/-- Reads one part of a key. -/
def readKeyPart (fuel : Nat) (s : List Char) : Except Refusal (String × List Char) :=
  match s with
  | [] => malformed
  | c :: rest =>
    if isBare c then
      .ok (String.ofList (c :: rest.takeWhile isBare), rest.dropWhile isBare)
    else if c = '\'' then do
      let (inside, after) ← readVerbatim rest
      return (String.ofList inside, after)
    else if c = '"' then do
      let (inside, after) ← readBasic fuel rest
      return (String.ofList inside, after)
    else malformed

/-- Reads a key: parts with points between them, and the blanks after it. -/
def readKey : (fuel : Nat) → List Char → Except Refusal (List String × List Char)
  | 0, _ => malformed
  | fuel + 1, s => do
    let (part, after) ← readKeyPart fuel s
    match skipBlanks after with
    | '.' :: rest => do
      let (parts, after) ← readKey fuel (skipBlanks rest)
      return (part :: parts, after)
    | rest => return ([part], rest)

/-! ## Tables by path -/

/-- A path from the root of a table. -/
abbrev Path := List String

/-- Changes the table at a path, which is made if it is not there. A list stands for its last
table where `lists` allows it; no other value can be entered. -/
def changeAt (lists : Bool) (change : Section → Option Section) : Path → Section → Option Section
  | [], table => change table
  | key :: path, table =>
    match Assoc.get? key table with
    | none => (changeAt lists change path []).map fun inner => Assoc.put key (.table inner) table
    | some (.table inner) =>
      (changeAt lists change path inner).map fun inner => Assoc.put key (.table inner) table
    | some (.list items) =>
      match lists, items.getLast? with
      | true, some (.table inner) =>
        (changeAt lists change path inner).map fun inner =>
          Assoc.put key (.list (items.dropLast ++ [.table inner])) table
      | _, _ => none
    | some _ => none

/-- Binds a key that is not bound yet. -/
def bind? (key : String) (value : Setting) (table : Section) : Option Section :=
  match Assoc.get? key table with
  | none => some (Assoc.put key value table)
  | some _ => none

/-- Appends an empty table to the list at a key. -/
def append? (key : String) (table : Section) : Option Section :=
  match Assoc.get? key table with
  | none => some (Assoc.put key (.list [.table []]) table)
  | some (.list items) => some (Assoc.put key (.list (items ++ [.table []])) table)
  | some _ => none

/-- A list or a table. -/
def isContainer : Setting → Bool
  | .list _ => true
  | .table _ => true
  | _ => false

/-- A path at or below one of some paths. -/
def isWithin (paths : List Path) (path : Path) : Bool :=
  paths.any fun outer => outer.isPrefixOf path

/-! ## Values -/

/-- Binds a key inside an inline table. Containers given before are closed. -/
def bindInline (closed : List Path) (table : Section) (key : Path) (value : Setting) :
    Except Refusal (List Path × Section) :=
  if isWithin closed key then malformed
  else do
    let last ← required key.getLast?
    let table ← required (changeAt false (bind? last value) key.dropLast table)
    return (if isContainer value then key :: closed else closed, table)

mutual

/-- Reads one value. Two calls in a row take at least one character, so more `fuel` than twice the
number of characters is enough. -/
def readValue : (fuel : Nat) → List Char → Except Refusal (Setting × List Char)
  | 0, _ => malformed
  | _ + 1, [] => malformed
  | fuel + 1, c :: rest =>
    if c = '"' then do
      let (inside, after) ← readQuoted (fuel + 1) (c :: rest)
      return (.text (String.ofList inside), after)
    else if c = '\'' then do
      let (inside, after) ← readApostrophed (c :: rest)
      return (.text (String.ofList inside), after)
    else if c = '[' then do
      let inside ← skipSpace (fuel + 1) rest
      let (items, after) ← readItems fuel inside
      return (.list items, after)
    else if c = '\x7b' then
      match skipBlanks rest with
      | '\x7d' :: after => .ok (.table [], after)
      | inside => do
        let (table, after) ← readEntries fuel [] [] inside
        return (.table table, after)
    else readScalar (c :: rest)

/-- Reads the items of a list, with its closing bracket. A comma may stand behind the last one. -/
def readItems : (fuel : Nat) → List Char → Except Refusal (List Setting × List Char)
  | 0, _ => malformed
  | fuel + 1, s =>
    match s with
    | ']' :: after => .ok ([], after)
    | inside => do
      let (value, after) ← readValue fuel inside
      let after ← skipSpace (fuel + 1) after
      match after with
      | ']' :: after => return ([value], after)
      | ',' :: rest => do
        let inside ← skipSpace (fuel + 1) rest
        let (items, after) ← readItems fuel inside
        return (value :: items, after)
      | _ => malformed

/-- Reads the entries of an inline table, with its closing brace. No comma stands behind the last
one. -/
def readEntries : (fuel : Nat) → List Path → Section → List Char →
    Except Refusal (Section × List Char)
  | 0, _, _, _ => malformed
  | fuel + 1, closed, table, s => do
    let (key, after) ← readKey (fuel + 1) s
    match after with
    | '=' :: rest => do
      let (value, after) ← readValue fuel (skipBlanks rest)
      let (closed, table) ← bindInline closed table key value
      match skipBlanks after with
      | '\x7d' :: after => return (table, after)
      | ',' :: rest => readEntries fuel closed table (skipBlanks rest)
      | _ => malformed
    | _ => malformed

end

/-! ## Statements -/

/-- A configuration as far as it is read. -/
structure Progress where
  table : Section := []
  /-- The path of the last header. -/
  header : Path := []
  /-- The paths that cannot be opened by a header or passed through by a dotted key. -/
  opened : List Path := []
  /-- The paths that will be opened when the next header comes. -/
  passed : List Path := []
  /-- The paths of values that hold other values, closed to all statements. -/
  closed : List Path := []

namespace Progress

/-- Opens a table under a header. -/
def openTable (key : Path) (p : Progress) : Except Refusal Progress :=
  let opened := p.passed ++ p.opened
  if key ∈ opened ∨ isWithin p.closed key then malformed
  else do
    let table ← required (changeAt true some key p.table)
    return { p with table := table, header := key, opened := key :: opened, passed := [] }

/-- Appends a table to the list under a header. What the former table held open or closed does not
concern the new one. -/
def appendTable (key : Path) (p : Progress) : Except Refusal Progress :=
  let outside := fun path => !key.isPrefixOf path
  if isWithin p.closed key then malformed
  else do
    let last ← required key.getLast?
    let table ← required (changeAt true (append? last) key.dropLast p.table)
    return { table := table, header := key, passed := []
             opened := key :: (p.passed ++ p.opened).filter outside
             closed := p.closed.filter outside }

/-- The paths, below a header, that a dotted key passes through. -/
def passedBy (header : Path) (key : Path) : List Path :=
  (List.range (key.length - 1)).map fun i => header ++ key.take (i + 1)

/-- Binds a key below the last header. -/
def bindKey (key : Path) (value : Setting) (p : Progress) : Except Refusal Progress :=
  let through := passedBy p.header key
  if through.any (· ∈ p.opened) ∨ isWithin p.closed (p.header ++ key.dropLast) then malformed
  else do
    let last ← required key.getLast?
    let table ← required (changeAt true (bind? last value) (p.header ++ key.dropLast) p.table)
    return { p with
      table := table
      passed := through ++ p.passed
      closed := if isContainer value then (p.header ++ key) :: p.closed else p.closed }

end Progress

/-- Reads the statement at the start of a line. -/
def readStatement (fuel : Nat) (p : Progress) (s : List Char) :
    Except Refusal (Progress × List Char) :=
  match s with
  | '[' :: '[' :: rest => do
    let (key, after) ← readKey fuel (skipBlanks rest)
    let p ← p.appendTable key
    let after ← required (after? [']', ']'] after)
    return (p, after)
  | '[' :: rest => do
    let (key, after) ← readKey fuel (skipBlanks rest)
    let p ← p.openTable key
    let after ← required (after? [']'] after)
    return (p, after)
  | other => do
    let (key, after) ← readKey fuel other
    let rest ← required (after? ['='] after)
    let (value, after) ← readValue fuel (skipBlanks rest)
    let p ← p.bindKey key value
    return (p, after)

/-- Reads line after line. Each line takes its line feed, so the number of characters is enough
`fuel`. -/
def readLines : (fuel : Nat) → Progress → List Char → Except Refusal Progress
  | 0, p, _ => .ok p
  | fuel + 1, p, s =>
    match skipBlanks s with
    | [] => .ok p
    | '\n' :: rest => readLines fuel p rest
    | inside => do
      let (p, after) ←
        if inside.head? = some '#' then .ok (p, inside) else readStatement (fuel + 1) p inside
      let after ← skipComment (skipBlanks after)
      match after with
      | [] => return p
      | '\n' :: rest => readLines fuel p rest
      | _ => malformed

end Reader

/-- The configuration that a text writes. -/
def read (text : String) : Except Refusal Section :=
  let chars := text.toList
  (Reader.readLines (2 * chars.length + 2) {} chars).map fun p => p.table

end SampleTypes.Toml
