import Mathlib.Data.List.Sort
import SampleTypes.Proofs.Schedule.Order

/-!
# The order of a schedule is the greedy one

The order of a schedule can be told without a list of what waits: each node is the least of those
that could come in its place, and behind the last one no node could. There is one such order only,
and it settles the schedule, because what remains is what it leaves out. So whatever takes least
nodes as long as there are any finds the schedule, however it keeps account of them.

Which nodes could come depends on which nodes and dependencies there are, and not on how the graph
lists them.

## Main results

* `greedy_order`, `Greedy.unique`: the order of a schedule is the only greedy one.
* `Greedy.least`: it comes before all other orders in which dependencies stand first.
* `ofGraph_eq_of_greedy`: a greedy order settles the schedule.
-/

namespace SampleTypes.Schedule

/-- The node could come next: it is not taken, and all that it depends on is. -/
def Ready (graph : Graph) (taken : List String) (node : String) : Prop :=
  node ∈ nodes graph ∧ node ∉ taken ∧ ∀ d ∈ dependencies graph node, d ∈ taken

/-- Behind the nodes in `taken` always the least node comes that could, until none can. -/
inductive Greedy (graph : Graph) : (taken order : List String) → Prop
  | stop {taken : List String} : (∀ node, ¬ Ready graph taken node) → Greedy graph taken []
  | take {taken rest : List String} {node : String} : Ready graph taken node →
      (∀ other, Ready graph taken other → node ≤ other) →
      Greedy graph (taken ++ [node]) rest → Greedy graph taken (node :: rest)

section

variable {graph : Graph} {taken order other : List String} {node : String}

/-- Which names are nodes settles what the nodes are, since they are in order. -/
theorem nodes_eq_of_pairwise {names : List String} (hsorted : names.Pairwise (· < ·))
    (hmem : ∀ name, name ∈ names ↔ ∃ entry ∈ graph, name = entry.1 ∨ name ∈ entry.2) :
    nodes graph = names :=
  (pairwise_nodes graph).eq_of_mem_iff hsorted fun name => mem_nodes.trans (hmem name).symm

theorem remaining_sublist {waiting : List Waiting} (steps : Nat) :
    (run steps waiting).remaining.Sublist (waiting.map Prod.fst) := by
  induction steps generalizing waiting with
  | zero => exact List.Sublist.refl _
  | succ steps ih =>
    cases hfind : waiting.find? fun w => w.2.isEmpty with
    | none => simp [run_of_none hfind]
    | some found =>
      rcases found with ⟨taken, missing⟩
      have hrest : (run steps (strike taken waiting)).remaining.Sublist
          ((strike taken waiting).map Prod.fst) := ih
      rw [names_strike] at hrest
      simp only [run_of_some hfind]
      exact hrest.trans List.filter_sublist

/-- **What remains is in order.** -/
theorem pairwise_remaining (graph : Graph) : (ofGraph graph).remaining.Pairwise (· < ·) :=
  (pairwise_start graph).sublist (remaining_sublist _)

theorem nodup_order (graph : Graph) : (ofGraph graph).order.Nodup :=
  (List.nodup_append.1 (nodup_order_append_remaining graph)).1

theorem notMem_order_of_mem_remaining (h : node ∈ (ofGraph graph).remaining) :
    node ∉ (ofGraph graph).order := fun horder =>
  (List.nodup_append.1 (nodup_order_append_remaining graph)).2.2 node horder node h rfl

theorem mem_remaining_iff_notMem_order :
    node ∈ (ofGraph graph).remaining ↔ node ∈ nodes graph ∧ node ∉ (ofGraph graph).order := by
  constructor
  · intro h
    exact ⟨mem_order_or_mem_remaining.1 (Or.inr h), notMem_order_of_mem_remaining h⟩
  · rintro ⟨hnode, horder⟩
    exact (mem_order_or_mem_remaining.2 hnode).resolve_left horder

/-! ## The order is greedy -/

theorem ready_of_order {before after : List String}
    (h : (ofGraph graph).order = before ++ node :: after) : Ready graph before node := by
  have hnodup := nodup_order graph
  rw [h] at hnodup
  refine ⟨mem_order_or_mem_remaining.1 (Or.inl (by simp [h])), ?_, dependencies_before h⟩
  exact fun hmem => (List.nodup_append.1 hnodup).2.2 node hmem node List.mem_cons_self rfl

/-- Behind the order no node could come, since what remains waits for something that remains. -/
theorem not_ready_order (graph : Graph) (node : String) :
    ¬ Ready graph (ofGraph graph).order node := by
  intro hready
  obtain ⟨d, hd, hremains⟩ :=
    exists_blocking (mem_remaining_iff_notMem_order.2 ⟨hready.1, hready.2.1⟩)
  exact notMem_order_of_mem_remaining hremains (hready.2.2 d hd)

/-- **The order of a schedule is greedy**, and so is each of its ends behind the nodes before. -/
theorem greedy_order (horder : (ofGraph graph).order = taken ++ order) :
    Greedy graph taken order := by
  induction order generalizing taken with
  | nil =>
    rw [List.append_nil] at horder
    exact .stop (horder ▸ not_ready_order graph)
  | cons node rest ih =>
    refine .take (ready_of_order horder) (fun other hother => ?_) (ih (by simp [horder]))
    exact run_least (pairwise_start graph) horder (mem_start hother.1) hother.2.1 hother.2.2

/-- **There is one greedy order.** -/
theorem Greedy.unique (h : Greedy graph taken order) (h' : Greedy graph taken other) :
    order = other := by
  induction h generalizing other with
  | stop hnone =>
    cases h' with
    | stop => rfl
    | take hready => exact absurd hready (hnone _)
  | take hready hleast _ ih =>
    cases h' with
    | stop hnone => exact absurd hready (hnone _)
    | take hready' hleast' hrest' =>
      obtain rfl := String.le_antisymm (hleast _ hready') (hleast' _ hready)
      rw [ih hrest']

/-- **The greedy order is the least one.** Where another order of the same nodes departs from it, that
order takes a node that could come as well, and a greater one. -/
theorem Greedy.least (h : Greedy graph taken order) (hperm : other.Perm order)
    (hother : ∀ before node after, other = before ++ node :: after →
      Ready graph (taken ++ before) node) :
    order = other ∨ List.Lex (· < ·) order other := by
  induction h generalizing other with
  | stop => exact Or.inl (List.perm_nil.1 hperm).symm
  | @take taken rest node _ hleast _ ih =>
    cases other with
    | nil => exact absurd hperm.symm (by simp)
    | cons node' rest' =>
      have hready := hother [] node' rest' rfl
      rw [List.append_nil] at hready
      by_cases hsame : node = node'
      · subst hsame
        have hrest := ih hperm.cons_inv fun before later after hsplit => by
          simpa using hother (node :: before) later after (by rw [hsplit, List.cons_append])
        rcases hrest with rfl | hlex
        · exact Or.inl rfl
        · exact Or.inr (List.Lex.cons hlex)
      · exact Or.inr (List.Lex.rel (Text.Order.lt_of_le_of_ne (hleast node' hready) hsame))

/-- **A greedy order settles the schedule.** -/
theorem ofGraph_eq_of_greedy (h : Greedy graph [] order) :
    ofGraph graph = ⟨order, (nodes graph).filter (· ∉ order)⟩ := by
  obtain rfl : (ofGraph graph).order = order := (greedy_order rfl).unique h
  have hremaining : (ofGraph graph).remaining =
      (nodes graph).filter (· ∉ (ofGraph graph).order) := by
    refine (pairwise_remaining graph).eq_of_mem_iff ((pairwise_nodes graph).filter _) fun node => ?_
    rw [mem_remaining_iff_notMem_order, List.mem_filter, decide_eq_true_iff]
  rw [← hremaining]

end

end SampleTypes.Schedule
