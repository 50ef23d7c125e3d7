import SampleTypes.Model
import SampleTypes.Proofs.Schedule.Order

/-!
# The definitions that count

Of several definitions with one class name the last one counts, and the graph of a plan is made of
those. A class name that is only referred to is a node of the graph as well, one without
dependencies.

## Main results

* `get?_winners`: a class name stands for the last definition that has it.
* `mem_nodes_graph`, `mem_dependencies_graph`: the graph of a plan.
* `mem_scheduled`, `nodup_scheduled`: the order in which models are made.
-/

namespace SampleTypes.Models

/-- The last definition of a plan with the given class name. -/
def lastNamed? (plan : Plan) (name : String) : Option Definition :=
  (plan.definitions.filter fun d => Identifier.className d.name = name).getLast?

/-- The schedule of a plan. -/
def schedule (plan : Plan) : Schedule :=
  Schedule.ofGraph (graph (winners plan))

/-- The class names of a plan in the order in which their models are made. -/
def scheduled (plan : Plan) : List String :=
  (schedule plan).order ++ (schedule plan).remaining

section

variable {plan : Plan} {name target : String} {d : Definition}

/-- A class name stands for the last definition that has it. -/
theorem get?_winners (plan : Plan) (name : String) :
    Assoc.get? name (winners plan) = lastNamed? plan name := by
  rw [winners, Assoc.get?_ofList, lastNamed?, List.filter_map, List.getLast?_map, Option.map_map]
  exact Option.map_id_apply

theorem nodup_keys_winners (plan : Plan) : (Assoc.keys (winners plan)).Nodup :=
  Assoc.nodup_keys_ofList _

theorem mem_keys_winners :
    name ∈ Assoc.keys (winners plan) ↔
      ∃ d ∈ plan.definitions, Identifier.className d.name = name := by
  rw [winners, Assoc.mem_keys_ofList]
  simp [Assoc.keys]

/-- A definition that counts is one of the plan, under its own class name. -/
theorem mem_of_lastNamed? (h : lastNamed? plan name = some d) :
    d ∈ plan.definitions ∧ Identifier.className d.name = name := by
  have hmem := List.mem_of_getLast? h
  simpa using hmem

theorem isSome_lastNamed? :
    (lastNamed? plan name).isSome ↔
      ∃ d ∈ plan.definitions, Identifier.className d.name = name := by
  rw [← mem_keys_winners, ← get?_winners]
  constructor
  · intro h
    obtain ⟨d, hd⟩ := Option.isSome_iff_exists.1 h
    exact Assoc.mem_keys_of_get? hd
  · intro h
    obtain ⟨d, hd⟩ := Assoc.exists_get?_of_mem_keys h
    simp [hd]

theorem mem_references :
    target ∈ references d ↔
      ∃ field ∈ d.fields, field.kind = .objectReference ∧
        Identifier.className field.reference = target := by
  rw [references, Text.Order.mem_distinct]
  simp [and_assoc]

/-- A class depends on what its definition refers to, itself apart. -/
theorem dependencies_graph (plan : Plan) (name : String) :
    Schedule.dependencies (graph (winners plan)) name =
      match lastNamed? plan name with
      | some d => (references d).filter fun other => other ≠ name
      | none => [] := by
  have hget := Assoc.get?_map
    (fun own d => (references d).filter fun other => other ≠ own) name (winners plan)
  rw [get?_winners] at hget
  unfold Schedule.dependencies graph
  rw [hget]
  cases lastNamed? plan name <;> rfl

theorem mem_dependencies_graph :
    target ∈ Schedule.dependencies (graph (winners plan)) name ↔
      target ≠ name ∧ ∃ d, lastNamed? plan name = some d ∧ target ∈ references d := by
  rw [dependencies_graph]
  cases lastNamed? plan name with
  | none => simp
  | some d => simp [and_comm]

/-- The nodes of the graph are the class names of the plan and what the definitions that count
refer to. -/
theorem mem_nodes_graph :
    name ∈ Schedule.nodes (graph (winners plan)) ↔
      (∃ d ∈ plan.definitions, Identifier.className d.name = name) ∨
        ∃ own d, lastNamed? plan own = some d ∧ name ∈ references d := by
  rw [Schedule.mem_nodes]
  constructor
  · rintro ⟨entry, hentry, h⟩
    obtain ⟨⟨own, d⟩, hwinner, rfl⟩ := List.mem_map.1 hentry
    rcases h with rfl | h
    · exact Or.inl (mem_keys_winners.1 (List.mem_map_of_mem hwinner))
    · have hget := Assoc.get?_of_mem (nodup_keys_winners plan) hwinner
      rw [get?_winners] at hget
      exact Or.inr ⟨own, d, hget, List.mem_of_mem_filter h⟩
  · have hown : ∀ own, own ∈ Assoc.keys (winners plan) →
        ∃ entry ∈ graph (winners plan), own = entry.1 ∨ own ∈ entry.2 := by
      intro own hkey
      obtain ⟨winner, hwinner, rfl⟩ := List.mem_map.1 hkey
      exact ⟨_, List.mem_map_of_mem hwinner, Or.inl rfl⟩
    rintro (hdefined | ⟨own, d, hlast, hreference⟩)
    · exact hown name (mem_keys_winners.2 hdefined)
    · rw [← get?_winners] at hlast
      by_cases hself : name = own
      · exact hself ▸ hown own (Assoc.mem_keys_of_get? hlast)
      · refine ⟨_, List.mem_map_of_mem (Assoc.mem_of_get? hlast), Or.inr ?_⟩
        simpa [hself] using hreference

theorem mem_scheduled :
    name ∈ scheduled plan ↔
      (∃ d ∈ plan.definitions, Identifier.className d.name = name) ∨
        ∃ own d, lastNamed? plan own = some d ∧ name ∈ references d := by
  rw [← mem_nodes_graph]
  exact (Schedule.order_append_remaining_perm _).mem_iff

theorem nodup_scheduled (plan : Plan) : (scheduled plan).Nodup :=
  Schedule.nodup_order_append_remaining _

theorem nodup_of_scheduled {made rest : List String} (h : scheduled plan = made ++ rest) :
    made.Nodup := by
  have hnodup := nodup_scheduled plan
  rw [h] at hnodup
  exact (List.nodup_append.1 hnodup).1

end

end SampleTypes.Models
