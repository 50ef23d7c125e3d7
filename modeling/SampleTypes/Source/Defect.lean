import SampleTypes.Text.Literal

/-!
# Unsound code

What can be wrong with code that has a reading, each fault with the data that its message needs.
-/

namespace SampleTypes.Source

/-- What is unsound about code. -/
inductive Defect where
  | emptyName
  | illegalName (name : String)
  /-- A string of octets beside one of characters. -/
  | mixedStrings
  /-- A template at the end of a row of strings. -/
  | finalTemplate
  /-- Two words that are not kept apart, with what is said about them. -/
  | missingSpace (message : String)
  /-- A line that ends inside the start of an asynchronous comprehension. -/
  | brokenStart
  /-- A handler behind one that catches everything. -/
  | unreachableHandler
  deriving DecidableEq, Repr

/-- The wording of a defect. -/
def Defect.message : Defect → String
  | .emptyName => "Cannot have empty name identifier."
  | .illegalName name => "Name " ++ Text.Literal.quote name ++ " is not a valid identifier."
  | .mixedStrings => "Cannot concatenate string and bytes."
  | .finalTemplate => "Logic error!"
  | .missingSpace message => message
  | .brokenStart => "'ParenthesizedWhitespace' object has no attribute 'value'"
  | .unreachableHandler => "The bare except: handler must be the last one."

end SampleTypes.Source
