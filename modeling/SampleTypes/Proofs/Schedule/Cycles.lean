import Mathlib.Order.WellFoundedSet
import SampleTypes.Proofs.Schedule.Greedy

/-!
# What remains leads to a cycle

What a node of the order depends on, directly or through others, stands in front of it. So no node of
the order is on a cycle, and none leads to one. What remains waits for something that remains, and
there are only finitely many nodes: if none of those that a remaining node leads to were on a cycle,
one of them would wait for nothing.

## Main results

* `before_of_transGen`: indirect dependencies stand in front.
* `mem_remaining_iff`: what remains are the nodes from which a cycle can be reached.
-/

namespace SampleTypes.Schedule

open Relation

/-- The node has this dependency. -/
def Depends (graph : Graph) (node d : String) : Prop :=
  d ∈ dependencies graph node

/-- A cycle can be reached from the node by following dependencies. -/
def LeadsToCycle (graph : Graph) (node : String) : Prop :=
  ∃ c, ReflTransGen (Depends graph) node c ∧ TransGen (Depends graph) c c

/-- Seen from `node`, which leads to `other`, the node `d` lies beyond `other`. -/
def Beyond (graph : Graph) (node d other : String) : Prop :=
  ReflTransGen (Depends graph) node other ∧ TransGen (Depends graph) other d

section

variable {graph : Graph} {node d : String} {before after : List String}

/-- **Indirect dependencies stand in front.** -/
theorem before_of_transGen (horder : (ofGraph graph).order = before ++ node :: after)
    (h : TransGen (Depends graph) node d) : d ∈ before := by
  induction h with
  | single hd => exact dependencies_before horder _ hd
  | @tail between d _ hd ih =>
    obtain ⟨front, back, rfl⟩ := List.append_of_mem ih
    rw [List.append_assoc, List.cons_append] at horder
    exact List.mem_append_left _ (dependencies_before horder _ hd)

/-- What depends on something that remains, remains. -/
theorem mem_remaining_of_depends (h : Depends graph node d)
    (hd : d ∈ (ofGraph graph).remaining) (hnode : node ∈ nodes graph) :
    node ∈ (ofGraph graph).remaining := by
  refine mem_remaining_iff_notMem_order.2 ⟨hnode, fun horder => ?_⟩
  obtain ⟨before, after, horder⟩ := List.append_of_mem horder
  refine notMem_order_of_mem_remaining hd ?_
  rw [horder]
  exact List.mem_append_left _ (dependencies_before horder d h)

/-- A node on a cycle remains. -/
theorem mem_remaining_of_cycle (h : TransGen (Depends graph) node node) :
    node ∈ (ofGraph graph).remaining := by
  have hnode : node ∈ nodes graph := by
    obtain ⟨_, _, hlast⟩ := TransGen.tail'_iff.1 h
    exact mem_nodes_of_mem_dependencies hlast
  refine mem_remaining_iff_notMem_order.2 ⟨hnode, fun horder => ?_⟩
  obtain ⟨before, after, horder⟩ := List.append_of_mem horder
  have hready := ready_of_order horder
  exact hready.2.1 (before_of_transGen horder h)

theorem mem_nodes_of_depends (h : Depends graph node d) : node ∈ nodes graph := by
  unfold Depends dependencies at h
  cases hget : Assoc.get? node graph with
  | none => simp [hget] at h
  | some listed => exact mem_nodes.2 ⟨(node, listed), Assoc.mem_of_get? hget, Or.inl rfl⟩

/-- If no node that `node` leads to is on a cycle, what lies beyond is an order without circles. -/
theorem isStrictOrder_beyond (h : ¬ LeadsToCycle graph node) :
    IsStrictOrder String (Beyond graph node) where
  irrefl := fun other hcircle => h ⟨other, hcircle.1, hcircle.2⟩
  trans := fun _ _ _ hab hbc => ⟨hbc.1, hbc.2.trans hab.2⟩

/-- What a remaining node waits for remains and lies beyond it. There are finitely many nodes, so this
has an end unless it runs in a circle, and it has no end. -/
theorem leadsToCycle_of_mem_remaining (h : node ∈ (ofGraph graph).remaining) :
    LeadsToCycle graph node := by
  by_contra hnone
  have := isStrictOrder_beyond hnone
  have hwf := (List.finite_toSet (ofGraph graph).remaining).wellFoundedOn
    (r := Beyond graph node)
  have hunreached : ¬ ReflTransGen (Depends graph) node node := by
    refine hwf.induction (P := fun other => ¬ ReflTransGen (Depends graph) node other) h ?_
    intro other hother ih hpath
    obtain ⟨d, hd, hremains⟩ := exists_blocking hother
    exact ih d hremains ⟨hpath, .single hd⟩ (hpath.tail hd)
  exact hunreached .refl

/-- **What remains leads to a cycle**, and what leads to a cycle remains. -/
theorem mem_remaining_iff : node ∈ (ofGraph graph).remaining ↔ LeadsToCycle graph node := by
  constructor
  · exact leadsToCycle_of_mem_remaining
  · rintro ⟨c, hpath, hcircle⟩
    induction hpath using ReflTransGen.head_induction_on with
    | refl => exact mem_remaining_of_cycle hcircle
    | head hstep _ ih => exact mem_remaining_of_depends hstep ih (mem_nodes_of_depends hstep)

end

end SampleTypes.Schedule
