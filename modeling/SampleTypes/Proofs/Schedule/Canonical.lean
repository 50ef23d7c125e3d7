import SampleTypes.Proofs.Schedule.Cycles

/-!
# The schedule of a graph is canonical

Of all orders of the nodes that can be ordered, with dependencies in front, the schedule has the
least: names are compared by code points, and lists of names at the first place where they differ.
Nor does it matter how a graph is given. Which nodes could come next is the same for another order of
the entries or of the dependencies in one, so both graphs have the same greedy order.

## Main results

* `ofGraph_of_reordered`: another way to give a graph has the same schedule.
* `schedule_is_canonical`: the order is the least one, and the same for all ways to give the graph.
-/

namespace SampleTypes.Schedule

/-- In this order a node follows its dependencies. -/
def Respects (graph : Graph) (order : List String) : Prop :=
  ∀ before node after, order = before ++ node :: after →
    ∀ d ∈ dependencies graph node, d ∈ before

theorem respects_iff {graph : Graph} {order : List String} :
    Respects graph order ↔ ∀ i : Fin order.length, ∀ d ∈ dependencies graph order[i],
      d ∈ order.take i := by
  constructor
  · intro h i
    refine h (order.take i) order[i] (order.drop (i + 1)) ?_
    simp
  · rintro h before node after rfl
    simpa using h ⟨before.length, by simp⟩

instance (graph : Graph) (order : List String) : Decidable (Respects graph order) :=
  decidable_of_iff _ respects_iff.symm

/-- The same graph with its entries in another order, and the dependencies in an entry in another
order or a different number of times. -/
inductive Reordered : Graph → Graph → Prop
  | nil : Reordered [] []
  | entry {node : String} {listed listed' : List String} {graph other : Graph} :
      (∀ d, d ∈ listed ↔ d ∈ listed') → Reordered graph other →
      Reordered ((node, listed) :: graph) ((node, listed') :: other)
  | swap (one two : String × List String) (graph : Graph) :
      Reordered (one :: two :: graph) (two :: one :: graph)
  | trans {graph between other : Graph} :
      Reordered graph between → Reordered between other → Reordered graph other

section

variable {graph other : Graph} {taken order : List String} {node d : String}

namespace Reordered

theorem keys_perm (h : Reordered graph other) : (Assoc.keys graph).Perm (Assoc.keys other) := by
  induction h with
  | nil => exact List.Perm.refl _
  | entry _ _ ih => exact ih.cons _
  | swap => exact List.Perm.swap _ _ _
  | trans _ _ ih ih' => exact ih.trans ih'

theorem listed_iff (h : Reordered graph other) :
    (∃ listed, (node, listed) ∈ graph ∧ d ∈ listed) ↔
      ∃ listed, (node, listed) ∈ other ∧ d ∈ listed := by
  induction h with
  | nil => exact Iff.rfl
  | entry hsame _ ih => grind
  | swap => grind
  | trans _ _ ih ih' => exact ih.trans ih'

theorem nodes_eq (h : Reordered graph other) : nodes graph = nodes other := by
  refine nodes_eq_of_pairwise (pairwise_nodes other) fun node => ?_
  have hentry : ∀ graph : Graph, (∃ entry ∈ graph, node = entry.1 ∨ node ∈ entry.2) ↔
      node ∈ Assoc.keys graph ∨ ∃ name listed, (name, listed) ∈ graph ∧ node ∈ listed := by
    intro graph
    rw [Assoc.keys]
    grind
  rw [mem_nodes, hentry, hentry, h.keys_perm.mem_iff]
  exact or_congr_right (exists_congr fun name => h.listed_iff.symm)

variable (hkeys : (Assoc.keys graph).Nodup) (h : Reordered graph other)

include hkeys h

theorem ready_iff : Ready graph taken node ↔ Ready other taken node := by
  have hother : (Assoc.keys other).Nodup := h.keys_perm.nodup_iff.1 hkeys
  have hdependencies : ∀ d, d ∈ dependencies graph node ↔ d ∈ dependencies other node := by
    intro d
    rw [mem_dependencies hkeys, mem_dependencies hother, h.listed_iff]
  simp only [Ready, h.nodes_eq, hdependencies]

theorem greedy (hgreedy : Greedy graph taken order) : Greedy other taken order := by
  induction hgreedy with
  | stop hnone => exact .stop fun node hready => hnone node ((h.ready_iff hkeys).2 hready)
  | take hready hleast _ ih =>
    exact .take ((h.ready_iff hkeys).1 hready)
      (fun node hnode => hleast node ((h.ready_iff hkeys).2 hnode)) ih

/-- **Another way to give a graph has the same schedule.** -/
theorem ofGraph_eq : ofGraph other = ofGraph graph := by
  have hgreedy : Greedy graph [] (ofGraph graph).order := greedy_order rfl
  rw [ofGraph_eq_of_greedy (h.greedy hkeys hgreedy), ofGraph_eq_of_greedy hgreedy, h.nodes_eq]

end Reordered

/-- A node of an order with dependencies in front could come when its turn is there. -/
theorem Respects.ready {before after : List String} (h : Respects graph order)
    (hperm : order.Perm (ofGraph graph).order) (hsplit : order = before ++ node :: after) :
    Ready graph before node := by
  have hnodup : order.Nodup := hperm.nodup_iff.2 (nodup_order graph)
  rw [hsplit] at hnodup
  have hnode : node ∈ (ofGraph graph).order := hperm.mem_iff.1 (by simp [hsplit])
  refine ⟨mem_order_or_mem_remaining.1 (Or.inl hnode), ?_, h before node after hsplit⟩
  exact fun hmem => (List.nodup_append.1 hnodup).2.2 node hmem node List.mem_cons_self rfl

end

/-- **The schedule is canonical.** Its order lists nodes once and behind their dependencies, and it is
the least of all lists of the same nodes that do. For the same graph with its entries and
dependencies in any other order the schedule is the same. -/
theorem schedule_is_canonical (graph : Graph) (hkeys : (Assoc.keys graph).Nodup) :
    (ofGraph graph).order.Nodup ∧ Respects graph (ofGraph graph).order ∧
      (∀ order : List String, order.Perm (ofGraph graph).order → Respects graph order →
        (ofGraph graph).order = order ∨ List.Lex (· < ·) (ofGraph graph).order order) ∧
      ∀ other, Reordered graph other → (ofGraph other).order = (ofGraph graph).order ∧
        (ofGraph other).remaining = (ofGraph graph).remaining := by
  refine ⟨nodup_order graph, fun before node after => dependencies_before, ?_, ?_⟩
  · intro order hperm hrespects
    have hgreedy : Greedy graph [] (ofGraph graph).order := greedy_order rfl
    exact hgreedy.least hperm fun before node after => hrespects.ready hperm
  · intro other hreordered
    rw [hreordered.ofGraph_eq hkeys]
    exact ⟨rfl, rfl⟩

/-- Two nodes behind a third one, and one apart from them. -/
def forkAndPoint : Graph :=
  [("b", ["c"]), ("d", ["c"]), ("a", [])]

/-- The same graph from its other end, with one dependency given twice. -/
def pointAndFork : Graph :=
  [("a", []), ("d", ["c", "c"]), ("b", ["c"])]

theorem reordered_forkAndPoint : Reordered forkAndPoint pointAndFork := by
  have hsame : ∀ listed d, d ∈ (listed : List String) ↔ d ∈ listed := fun _ _ => Iff.rfl
  refine .trans (.swap _ _ _) (.trans (.entry (hsame _) (.swap _ _ _)) (.trans (.swap _ _ _) ?_))
  exact .entry (hsame _) (.entry (by simp) (.entry (hsame _) .nil))

theorem schedule_is_canonical_forkAndPoint :
    (Assoc.keys forkAndPoint).Nodup ∧ (ofGraph forkAndPoint).order = ["a", "c", "b", "d"] ∧
      ["c", "a", "b", "d"].Perm (ofGraph forkAndPoint).order ∧
      Respects forkAndPoint ["c", "a", "b", "d"] ∧
      ((ofGraph forkAndPoint).order = ["c", "a", "b", "d"] ∨
        List.Lex (· < ·) (ofGraph forkAndPoint).order ["c", "a", "b", "d"]) ∧
      Reordered forkAndPoint pointAndFork ∧
      (ofGraph pointAndFork).order = (ofGraph forkAndPoint).order := by
  have hkeys : (Assoc.keys forkAndPoint).Nodup := by decide
  have hnodes : nodes forkAndPoint = ["a", "b", "c", "d"] := by
    refine nodes_eq_of_pairwise (by decide) fun name => ?_
    simp only [forkAndPoint, List.mem_cons, List.not_mem_nil, or_false, exists_eq_or_imp,
      exists_eq_left]
    grind
  have horder : (ofGraph forkAndPoint).order = ["a", "c", "b", "d"] := by
    rw [ofGraph, start, hnodes]
    decide
  have hperm : ["c", "a", "b", "d"].Perm (ofGraph forkAndPoint).order := by
    rw [horder]
    decide
  have hrespects : Respects forkAndPoint ["c", "a", "b", "d"] := by decide
  obtain ⟨-, -, hleast, hsame⟩ := schedule_is_canonical forkAndPoint hkeys
  exact ⟨hkeys, horder, hperm, hrespects, hleast _ hperm hrespects, reordered_forkAndPoint,
    (hsame _ reordered_forkAndPoint).1⟩

end SampleTypes.Schedule
