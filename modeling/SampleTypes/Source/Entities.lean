import SampleTypes.Source.Statement

/-!
# Entity classes in a source file

The classes of a source file that are derived from a given base and can be imported by name: those
that stand in no other class and in no function, though perhaps inside a condition or a loop.

The collector walks the statements in order and counts the classes that it is inside of.

## Main results

* `depth_collect`: after a walk the count is what it was before.
-/

namespace SampleTypes.Source

/-- The names found so far, and the number of classes around the place that is looked at. -/
structure Collector where
  depth : Nat := 0
  names : List String := []
  deriving DecidableEq, Repr

/-- Whether an expression goes by the name of the base. One without a name goes by the empty
name. -/
def Expr.goesBy (base : String) (e : Expr) : Bool :=
  e.baseName?.getD "" = base

namespace Collector

/-- Meets a class: its name is kept if no class is around it and one of its bases fits. -/
def meet (base name : String) (bases : List Expr) (c : Collector) : Collector :=
  if c.depth = 0 ∧ bases.any (Expr.goesBy base) then { c with names := c.names ++ [name] } else c

/-- Goes into a class. -/
def enter (c : Collector) : Collector :=
  { c with depth := c.depth + 1 }

/-- Comes out of a class. -/
def exit (c : Collector) : Collector :=
  { c with depth := c.depth - 1 }

mutual

/-- Walks over one statement. Functions are not entered. -/
def visit (base : String) : Statement → Collector → Collector
  | .simple, c => c
  | .function _, c => c
  | .blocks bodies, c => visitBodies base bodies c
  | .classBlock name bases body, c =>
    (visitBody base body (c.meet base name bases).enter).exit

/-- Walks over the statements of a block. -/
def visitBody (base : String) : List Statement → Collector → Collector
  | [], c => c
  | s :: rest, c => visitBody base rest (visit base s c)

/-- Walks over several blocks. -/
def visitBodies (base : String) : List (List Statement) → Collector → Collector
  | [], c => c
  | body :: rest, c => visitBodies base rest (visitBody base body c)

end

@[simp] theorem depth_meet (base name : String) (bases : List Expr) (c : Collector) :
    (c.meet base name bases).depth = c.depth := by
  unfold meet
  split <;> rfl

mutual

theorem depth_visit (base : String) (s : Statement) (c : Collector) :
    (visit base s c).depth = c.depth := by
  match s with
  | .simple => simp [visit]
  | .function _ => simp [visit]
  | .blocks bodies => simpa [visit] using depth_visitBodies base bodies c
  | .classBlock name bases body =>
    have h := depth_visitBody base body (c.meet base name bases).enter
    simp only [visit, exit, h]
    simp [enter]

theorem depth_visitBody (base : String) (body : List Statement) (c : Collector) :
    (visitBody base body c).depth = c.depth := by
  match body with
  | [] => simp [visitBody]
  | s :: rest =>
    have h := depth_visit base s c
    have h' := depth_visitBody base rest (visit base s c)
    simp [visitBody, h', h]

theorem depth_visitBodies (base : String) (bodies : List (List Statement)) (c : Collector) :
    (visitBodies base bodies c).depth = c.depth := by
  match bodies with
  | [] => simp [visitBodies]
  | body :: rest =>
    have h := depth_visitBody base body c
    have h' := depth_visitBodies base rest (visitBody base body c)
    simp [visitBodies, h', h]

end

end Collector

/-- The entity classes of a source file, in the order of their statements. -/
def entityNames (base : String) (body : List Statement) : List String :=
  (Collector.visitBody base body {}).names

end SampleTypes.Source
