import SampleTypes.Declaration
import SampleTypes.Source.Reading

/-!
# Modules of repositories

A generated module with one repository class for each entity type, in two steps as for model
classes: `Module.ofTypes` chooses imports and classes, `Module.text` writes them down. A type is
known by its name and its module, so a repetition of both adds nothing.

Imports stand in the order of the modules, each with its names in order; classes stand in the order
in which their types were given. A type without a module is not imported.
-/

namespace SampleTypes.Scaffold

/-- An import of entity types from one module. -/
structure Import where
  source : String
  names : List String
  deriving DecidableEq, Repr

/-- A repository class. -/
structure RepositoryClass where
  name : String
  /-- The type whose instances it holds. -/
  entity : String
  deriving DecidableEq, Repr

/-- A generated module. -/
structure Module where
  imports : List Import
  classes : List RepositoryClass
  deriving DecidableEq, Repr

/-- The base class that entities are marked with unless another one is configured. -/
def defaultBase : String := "Entity"

/-- The name of the repository class of a type. -/
def repositoryName (name : String) : String :=
  name ++ "Repository"

/-- The modules that types are imported from, in order. -/
def sources (types : List EntityType) : List String :=
  (Text.Order.sortedDistinct (types.map EntityType.moduleName)).filter (· ≠ "")

/-- The names that are imported from a module, in order. -/
def namesFrom (source : String) (types : List EntityType) : List String :=
  Text.Order.sortedDistinct
    ((types.filter fun t => t.moduleName = source).map EntityType.name)

/-- The import statements for types. -/
def importsOf (types : List EntityType) : List Import :=
  (sources types).map fun source => { source := source, names := namesFrom source types }

/-- The repository classes for types. -/
def classesOf (types : List EntityType) : List RepositoryClass :=
  types.eraseDups.map fun t => { name := repositoryName t.name, entity := t.name }

/-- The module for types. -/
def Module.ofTypes (types : List EntityType) : Module :=
  { imports := importsOf types, classes := classesOf types }

/-! ## Soundness of the names -/

/-- An import as a statement. -/
def Import.text (i : Import) : String :=
  "from " ++ i.source ++ " import " ++ ", ".intercalate i.names

/-- A name that may stand in code. -/
def checkName (name : String) : Except Fault Unit :=
  if name = "" then .error (.unsound .emptyName)
  else if Text.CharClass.isIdentifier name then .ok ()
  else .error (.unsound (.illegalName name))

/-- An import that is a sound statement. -/
def Import.check (i : Import) : Except Fault Unit :=
  match Source.checkStatement i.text with
  | .ok () => .ok ()
  | .error (.noReading _) => .error .brokenStatement
  | .error (.unsound cause) => .error (.unsound cause)

/-- A class whose names may stand in code. -/
def RepositoryClass.check (c : RepositoryClass) : Except Fault Unit := do
  checkName c.name
  checkName c.entity

/-- A module that can be written: its imports are statements and its names may stand in code. -/
def Module.check (m : Module) : Except Fault Unit := do
  m.imports.forM Import.check
  m.classes.forM RepositoryClass.check

/-! ## How it is written -/

/-- The first lines of every generated module. -/
def header : List String :=
  ["# Generated by ldsynth scaffold. Do not edit.", "from __future__ import annotations", "",
   "from ldsynth.repository import RepositoryBase"]

/-- The lines of a class. -/
def RepositoryClass.lines (c : RepositoryClass) : List String :=
  ["", "", "class " ++ c.name ++ "(RepositoryBase[" ++ c.entity ++ "]):",
   "    \"\"\"Repository for " ++ c.entity ++ " entities.\"\"\""]

/-- The text of a module. -/
def Module.text (m : Module) : String :=
  "\n".intercalate (header ++ m.imports.map Import.text ++ m.classes.flatMap RepositoryClass.lines)
    ++ "\n"

/-- The module of repositories for types, as text. -/
def render (types : List EntityType) : Except Fault String := do
  let m := Module.ofTypes types
  m.check
  return m.text

end SampleTypes.Scaffold
