import SampleTypes.Source.Soundness
import SampleTypes.Source.Statement

/-!
# Reading source texts

A source text is taken apart into tokens, read by the grammar and checked; what is left of it are
its statements. A text is refused for the first of these steps that fails.
-/

namespace SampleTypes.Source

/-- Why a text has no reading. -/
inductive ReadingFault where
  | lexical (cause : LexicalFault)
  /-- What was expected at the furthest place. -/
  | unexpected (expected : List String)
  deriving DecidableEq, Repr

/-- The wording of a reading fault. -/
def ReadingFault.message : ReadingFault → String
  | .lexical cause => "tokenizer error: " ++ cause.message
  | .unexpected [] => "parser error: nothing was expected"
  | .unexpected [one] => "parser error: expected " ++ one
  | .unexpected expected => "parser error: expected one of " ++ ", ".intercalate expected

/-- Why a text is no sound source. -/
inductive Refusal where
  | noReading (cause : ReadingFault)
  | unsound (cause : Defect)
  deriving DecidableEq, Repr

/-- The reading of a text by a rule, if it has one and is sound. -/
def readAs (start : Rule) (text : List Char) : Except Refusal (Tree Rule) :=
  match Token.ofText text with
  | .error cause => .error (.noReading (.lexical cause))
  | .ok tokens =>
    match Pattern.read Grammar.body start tokens with
    | .error expected => .error (.noReading (.unexpected expected))
    | .ok tree =>
      match Soundness.fault? tree with
      | some defect => .error (.unsound defect)
      | none => .ok tree

/-- The statements of a source file. A byte order mark in front is no part of it. -/
def statementsOf (text : String) : Except Refusal (List Statement) :=
  let chars := text.toList
  let chars := if chars.head? = some '\ufeff' then chars.drop 1 else chars
  (readAs .file chars).map Statement.ofTree

/-- Accepts a text that is one statement, or the simple statements of one line. -/
def checkStatement (text : String) : Except Refusal Unit :=
  (readAs .single text.toList).map fun _ => ()

end SampleTypes.Source
