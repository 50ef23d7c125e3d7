import SampleTypes.Assoc
import SampleTypes.Text.Order

/-!
# Schedules

An order in which every node of a graph follows the nodes it depends on. Of the nodes that are
ready the least one comes first, so the schedule of a graph is unique. What cannot be ordered,
because it lies on a cycle or behind one, remains.

The nodes wait in order, each with the dependencies that are still missing. A step takes the first
one that misses nothing and strikes it from the others' lists.
-/

namespace SampleTypes

/-- An order of the nodes that can be ordered, and the others. -/
structure Schedule where
  order : List String
  remaining : List String
  deriving DecidableEq, Repr

namespace Schedule

/-- The dependencies of each node. A node may also occur only as a dependency. -/
abbrev Graph := List (String × List String)

/-- A node with the dependencies that it still misses. -/
abbrev Waiting := String × List String

/-- The nodes of a graph, each once and in order. -/
def nodes (graph : Graph) : List String :=
  Text.Order.sortedDistinct (graph.flatMap fun entry => entry.1 :: entry.2)

/-- The dependencies of a node. -/
def dependencies (graph : Graph) (node : String) : List String :=
  (Assoc.get? node graph).getD []

/-- All nodes in order, missing all their dependencies. -/
def start (graph : Graph) : List Waiting :=
  (nodes graph).map fun node => (node, dependencies graph node)

/-- Takes a node out and strikes it from what the others miss. -/
def strike (node : String) (waiting : List Waiting) : List Waiting :=
  (waiting.filter fun w => w.1 ≠ node).map fun w => (w.1, w.2.filter fun d => d ≠ node)

/-- Takes ready nodes out as long as there are any. Each step takes one, so as many `steps` as
there are nodes are enough. -/
def run : (steps : Nat) → List Waiting → Schedule
  | 0, waiting => ⟨[], waiting.map Prod.fst⟩
  | steps + 1, waiting =>
    match waiting.find? fun w => w.2.isEmpty with
    | none => ⟨[], waiting.map Prod.fst⟩
    | some (node, _) =>
      let rest := run steps (strike node waiting)
      ⟨node :: rest.order, rest.remaining⟩

/-- The schedule of a graph. -/
def ofGraph (graph : Graph) : Schedule :=
  let waiting := start graph
  run waiting.length waiting

theorem mem_nodes {graph : Graph} {node : String} :
    node ∈ nodes graph ↔ ∃ entry ∈ graph, node = entry.1 ∨ node ∈ entry.2 := by
  simp [nodes, Text.Order.sortedDistinct, Text.Order.mem_sort, Text.Order.distinct]

end Schedule

end SampleTypes
