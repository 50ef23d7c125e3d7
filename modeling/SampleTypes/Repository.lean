/-!
# Repositories

What a generated repository does: it holds entities in order and keeps a journal of the operations
on it. Entities are told apart by identity and never by their contents, so two entities of one
class are different items.

## Main results

* `items_update`: an update changes no item.
* `journal_apply`: every operation is recorded, under the name of the entity's class.
-/

namespace SampleTypes

/-- An entity: who it is, and of which class. -/
structure Entity where
  identity : String
  className : String
  deriving DecidableEq, Repr

/-- The operations on a repository. -/
inductive Operation where
  | add
  | delete
  | update
  deriving DecidableEq, Repr

/-- The word for an operation in journals. -/
def Operation.label : Operation → String
  | .add => "add"
  | .delete => "delete"
  | .update => "update"

/-- A repository: its entities in order, and its journal. -/
structure Repository where
  items : List Entity := []
  journal : List (Operation × String) := []
  deriving DecidableEq, Repr

namespace Repository

/-- Adds an entity at the end. -/
def add (e : Entity) (r : Repository) : Repository :=
  { items := r.items ++ [e], journal := r.journal ++ [(.add, e.className)] }

/-- Deletes every occurrence of an entity. -/
def delete (e : Entity) (r : Repository) : Repository :=
  { items := r.items.filter fun item => item.identity ≠ e.identity
    journal := r.journal ++ [(.delete, e.className)] }

/-- Puts an entity in place of itself. -/
def update (e : Entity) (r : Repository) : Repository :=
  { items := r.items.map fun item => if item.identity = e.identity then e else item
    journal := r.journal ++ [(.update, e.className)] }

/-- Applies an operation. -/
def apply (operation : Operation) (e : Entity) (r : Repository) : Repository :=
  match operation with
  | .add => r.add e
  | .delete => r.delete e
  | .update => r.update e

/-- Applies an operation to the repository at a place. -/
def applyAt (place : Nat) (operation : Operation) (e : Entity) (rs : List Repository) :
    List Repository :=
  rs.modify place (apply operation e)

@[simp] theorem journal_apply (operation : Operation) (e : Entity) (r : Repository) :
    (r.apply operation e).journal = r.journal ++ [(operation, e.className)] := by
  cases operation <;> rfl

/-- Where identity decides equality among the items and the entity, an update changes no item. -/
theorem items_update {e : Entity} {r : Repository}
    (h : ∀ item ∈ r.items, item.identity = e.identity → item = e) :
    (r.update e).items = r.items := by
  refine (List.map_congr_left (g := id) fun item hi => ?_).trans (List.map_id _)
  by_cases hid : item.identity = e.identity
  · simp [h item hi hid]
  · simp [hid]

end Repository

end SampleTypes
