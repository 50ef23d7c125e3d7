/-!
# Class names with a meaning of their own

Where models are made, a few class names mean something even if no model has them. A reference that
has to wait for its model is first looked up among the names that are there already: the class under
construction itself, its attributes, and then these.
-/

namespace SampleTypes

/-- What a class name means without a model. -/
inductive Ambient where
  /-- Any value at all. -/
  | anything
  /-- Any object. -/
  | mapping
  /-- Any array. -/
  | list
  /-- Any array, of which the order does not count. -/
  | set
  /-- Any array, of which the length counts. -/
  | tuple
  /-- Anything that has items. -/
  | iterable
  /-- An instance without attributes. -/
  | emptyInstance
  /-- The label of a kind of field. -/
  | fieldKind
  deriving DecidableEq, Repr

/-- What a reference to a class name comes to while its model is not made. -/
inductive Meaning where
  /-- It waits for the model. -/
  | awaited
  | ambient (meaning : Ambient)
  /-- The name stands for optional types in general, which is no type. -/
  | bareOption
  /-- The name is taken by something that documents cannot be checked against. -/
  | unchecked
  deriving DecidableEq, Repr

namespace Meaning

/-- The names of faults and markers that are there everywhere. -/
def uncheckedNames : List String :=
  ["ArithmeticError", "AssertionError", "AttributeError", "BaseException", "BaseExceptionGroup",
   "BlockingIOError", "BrokenPipeError", "BufferError", "BytesWarning", "ChildProcessError",
   "ConnectionAbortedError", "ConnectionError", "ConnectionRefusedError", "ConnectionResetError",
   "DeprecationWarning", "EOFError", "Ellipsis", "EncodingWarning", "EnvironmentError",
   "Exception", "ExceptionGroup", "FileExistsError", "FileNotFoundError", "FloatingPointError",
   "FutureWarning", "GeneratorExit", "IOError", "ImportError", "ImportWarning",
   "IndentationError", "IndexError", "InterruptedError", "IsADirectoryError", "KeyError",
   "KeyboardInterrupt", "LookupError", "MemoryError", "ModuleNotFoundError", "NameError",
   "NotADirectoryError", "NotImplemented", "NotImplementedError", "OSError", "OverflowError",
   "PendingDeprecationWarning", "PermissionError", "ProcessLookupError", "RecursionError",
   "ReferenceError", "ResourceWarning", "RuntimeError", "RuntimeWarning", "StopAsyncIteration",
   "StopIteration", "SyntaxError", "SyntaxWarning", "SystemError", "SystemExit", "TabError",
   "TimeoutError", "TypeError", "UnboundLocalError", "UnicodeDecodeError", "UnicodeEncodeError",
   "UnicodeError", "UnicodeTranslateError", "UnicodeWarning", "UserWarning", "ValueError",
   "Warning", "ZeroDivisionError"]

/-- The meaning of a class name that is not being made and is no attribute. -/
def ofName (name : String) : Meaning :=
  match name with
  | "Any" => .ambient .anything
  | "Dict" => .ambient .mapping
  | "List" => .ambient .list
  | "Set" => .ambient .set
  | "Tuple" => .ambient .tuple
  | "Iterable" => .ambient .iterable
  | "BaseModel" => .ambient .emptyInstance
  | "FieldKind" => .ambient .fieldKind
  | "Optional" => .bareOption
  | "Field" => .unchecked
  | _ => if name ∈ uncheckedNames then .unchecked else .awaited

/-- The meaning of a class name inside the class `own` with the given attributes. -/
def within (own : String) (attributes : List String) (name : String) : Meaning :=
  if name = own then .awaited
  else if name ∈ attributes then .unchecked
  else ofName name

/-- A class refers to itself like to any model that is not made yet. -/
theorem within_self (own : String) (attributes : List String) :
    within own attributes own = .awaited := by
  simp [within]

end Meaning

end SampleTypes
