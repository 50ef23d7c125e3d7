import SampleTypes.Proofs.Schedule.Cycles

/-!
# A queue of ready nodes

The usual way to a schedule does not look for a ready node in every step. It keeps the ready nodes in
a queue, always takes the first one, strikes it from what its followers miss, adds those of them that
miss nothing any more behind the others, and puts the queue in order again.

A round keeps what is known of the queue: it holds the nodes that could come, each once and in order.
For a follower can only become ready when the last node that it misses is taken, so it was not in the
queue before, and no node that was taken depends on one that was not, so it does not come back. The
first node of the queue is therefore the least that could come, and the rounds take nodes greedily
until none is left.

## Main results

* `Sound.round`: what a round keeps.
* `rounds_greedy`: the rounds end and take nodes greedily.
* `order_and_remaining_of_graph`: the schedule of a graph, with the rounds by which a queue finds it.
-/

namespace SampleTypes.Schedule

/-- The nodes that came so far, those that are ready, and what each node still misses. -/
structure Queue where
  order : List String
  ready : List String
  incoming : List Waiting

namespace Queue

/-- What the node still misses. -/
def missing (q : Queue) (node : String) : List String :=
  (Assoc.get? node q.incoming).getD []

/-- The queue at the beginning. -/
def start (graph : Graph) : Queue :=
  { order := []
    ready := Text.Order.sort (((Schedule.start graph).filter fun w => w.2.isEmpty).map Prod.fst)
    incoming := Schedule.start graph }

/-- The nodes that depend on this one, in order. -/
def followers (graph : Graph) (node : String) : List String :=
  Text.Order.sortedDistinct ((graph.filter fun entry => node ∈ entry.2).map Prod.fst)

/-- Strikes the node `taken` from what a follower misses. If that was all, the follower is ready. -/
def release (taken : String) (q : Queue) (follower : String) : Queue :=
  let missing := (q.missing follower).filter (· ≠ taken)
  { q with
    ready := if missing.isEmpty then q.ready ++ [follower] else q.ready
    incoming := Assoc.put follower missing q.incoming }

/-- One round: the first ready node comes, and its followers are released. -/
def round (graph : Graph) (q : Queue) : Queue :=
  match q.ready with
  | [] => q
  | node :: others =>
    let released := (followers graph node).foldl (release node)
      { q with order := q.order ++ [node], ready := others }
    { released with ready := Text.Order.sort released.ready }

/-- What came, and the nodes that did not. -/
def schedule (graph : Graph) (q : Queue) : Schedule :=
  ⟨q.order, (nodes graph).filter (· ∉ q.order)⟩

/-- What is known of the queue between rounds. -/
structure Sound (graph : Graph) (q : Queue) : Prop where
  sorted : q.ready.Pairwise (· < ·)
  mem_ready : ∀ node, node ∈ q.ready ↔ Ready graph q.order node
  mem_missing : ∀ node d, d ∈ q.missing node ↔ d ∈ dependencies graph node ∧ d ∉ q.order
  closed : ∀ node ∈ q.order, ∀ d ∈ dependencies graph node, d ∈ q.order

section

variable {graph : Graph} {q : Queue} {taken node d : String} {list others : List String}

/-! ## Releasing the followers of a node -/

theorem missing_release (taken : String) (q : Queue) (follower node : String) :
    (release taken q follower).missing node =
      if follower = node then (q.missing node).filter (· ≠ taken) else q.missing node := by
  rw [missing, release, Assoc.get?_put]
  by_cases h : follower = node
  · simp [h]
  · simp [h, missing]

theorem order_releases (taken : String) (q : Queue) (list : List String) :
    (list.foldl (release taken) q).order = q.order := by
  induction list generalizing q with
  | nil => rfl
  | cons follower rest ih => exact ih (release taken q follower)

theorem mem_missing_releases :
    d ∈ (list.foldl (release taken) q).missing node ↔
      d ∈ q.missing node ∧ (node ∈ list → d ≠ taken) := by
  induction list generalizing q with
  | nil => simp
  | cons follower rest ih =>
    rw [List.foldl_cons, ih, missing_release]
    by_cases h : follower = node
    · subst h
      rw [if_pos rfl, List.mem_filter, decide_eq_true_iff]
      grind
    · simp [h, Ne.symm h]

/-- The followers that miss nothing but the taken node become ready. -/
theorem ready_releases (hnodup : list.Nodup) :
    (list.foldl (release taken) q).ready =
      q.ready ++ list.filter fun follower =>
        ((q.missing follower).filter (· ≠ taken)).isEmpty := by
  induction list generalizing q with
  | nil => simp
  | cons follower rest ih =>
    rw [List.nodup_cons] at hnodup
    have hothers : ∀ other ∈ rest,
        (((release taken q follower).missing other).filter (· ≠ taken)).isEmpty =
          ((q.missing other).filter (· ≠ taken)).isEmpty := by
      intro other hother
      have hne : follower ≠ other := fun heq => hnodup.1 (heq ▸ hother)
      rw [missing_release, if_neg hne]
    rw [List.foldl_cons, ih hnodup.2, List.filter_congr hothers, List.filter_cons]
    by_cases h : ((q.missing follower).filter (· ≠ taken)).isEmpty = true
    · simp only [release, if_pos h, List.append_assoc, List.singleton_append]
    · simp only [release, if_neg h]

/-! ## Rounds -/

theorem mem_followers (hkeys : (Assoc.keys graph).Nodup) :
    node ∈ followers graph taken ↔ taken ∈ dependencies graph node := by
  rw [followers, Text.Order.mem_sortedDistinct, mem_dependencies hkeys]
  simp only [List.mem_map, List.mem_filter, decide_eq_true_eq]
  constructor
  · rintro ⟨⟨name, listed⟩, ⟨hentry, hlisted⟩, rfl⟩
    exact ⟨listed, hentry, hlisted⟩
  · rintro ⟨listed, hentry, hlisted⟩
    exact ⟨(node, listed), ⟨hentry, hlisted⟩, rfl⟩

theorem missing_start (graph : Graph) (node : String) :
    (start graph).missing node = dependencies graph node := by
  have hkeys : (Assoc.keys (Schedule.start graph)).Nodup := nodup_start graph
  by_cases hnode : node ∈ nodes graph
  · rw [missing, start, Assoc.get?_of_mem hkeys (mem_start hnode), Option.getD_some]
  · have hnone : Assoc.get? node (Schedule.start graph) = none := by
      rw [Assoc.get?_eq_none, Assoc.keys, names_start]
      exact hnode
    have hfree : dependencies graph node = [] :=
      List.eq_nil_iff_forall_not_mem.2 fun d hd => hnode (mem_nodes_of_depends hd)
    rw [missing, start, hnone, hfree, Option.getD_none]

theorem sound_start (graph : Graph) : Sound graph (start graph) where
  sorted := by
    refine Text.Order.pairwise_lt_sort ?_
    exact (nodup_start graph).sublist (List.filter_sublist.map Prod.fst)
  mem_ready node := by
    rw [start, Text.Order.mem_sort, List.mem_map]
    constructor
    · rintro ⟨w, hw, rfl⟩
      obtain ⟨hw, hfree⟩ := List.mem_filter.1 hw
      obtain ⟨name, hname, rfl⟩ := List.mem_map.1 hw
      have hnone : dependencies graph name = [] := List.isEmpty_iff.1 hfree
      exact ⟨hname, List.not_mem_nil, by simp [hnone]⟩
    · rintro ⟨hnode, -, hfree⟩
      refine ⟨_, List.mem_filter.2 ⟨mem_start hnode, ?_⟩, rfl⟩
      rw [List.isEmpty_iff]
      exact List.eq_nil_iff_forall_not_mem.2 fun d hd => List.not_mem_nil (hfree d hd)
  mem_missing node d := by
    rw [missing_start]
    simp [start]
  closed node hnode := by simp [start] at hnode

theorem round_of_ready (h : q.ready = node :: others) :
    round graph q =
      let released := (followers graph node).foldl (release node)
        { q with order := q.order ++ [node], ready := others }
      { released with ready := Text.Order.sort released.ready } := by
  rw [round, h]

theorem order_round (h : q.ready = node :: others) :
    (round graph q).order = q.order ++ [node] := by
  rw [round_of_ready h]
  exact order_releases _ _ _

theorem ready_round (h : q.ready = node :: others) :
    (round graph q).ready =
      Text.Order.sort (others ++ (followers graph node).filter fun follower =>
        ((q.missing follower).filter (· ≠ node)).isEmpty) := by
  have hnodup : (followers graph node).Nodup :=
    Text.Order.nodup_of_pairwise_lt (Text.Order.pairwise_sortedDistinct _)
  rw [round_of_ready h]
  exact congrArg Text.Order.sort (ready_releases hnodup)

namespace Sound

variable (hkeys : (Assoc.keys graph).Nodup) (h : Sound graph q) (hq : q.ready = node :: others)

section

include h hq

theorem head_ready : Ready graph q.order node :=
  (h.mem_ready node).1 (by simp [hq])

theorem sorted_head_tail : (∀ other ∈ others, node < other) ∧ others.Pairwise (· < ·) :=
  List.pairwise_cons.1 (hq ▸ h.sorted)

/-- The first node of the queue is the least that could come. -/
theorem head_least {other : String} (hother : Ready graph q.order other) : node ≤ other := by
  rw [← h.mem_ready, hq, List.mem_cons] at hother
  rcases hother with rfl | hother
  · exact String.le_refl _
  · exact String.lt_asymm ((h.sorted_head_tail hq).1 other hother)

/-- The queue holds the taken node once, and what else it holds could come before. -/
theorem mem_others {other : String} :
    other ∈ others ↔ Ready graph q.order other ∧ other ≠ node := by
  rw [← h.mem_ready, hq, List.mem_cons]
  constructor
  · intro hother
    refine ⟨Or.inr hother, ?_⟩
    rintro rfl
    exact String.lt_irrefl _ ((h.sorted_head_tail hq).1 _ hother)
  · rintro ⟨heq | hother, hne⟩
    · exact absurd heq hne
    · exact hother

end

include hkeys h

/-- The followers that a round adds are those for which the node was the last one missing. -/
theorem mem_released {follower : String} :
    follower ∈ (followers graph node).filter
        (fun follower => ((q.missing follower).filter (· ≠ node)).isEmpty) ↔
      node ∈ dependencies graph follower ∧
        ∀ d ∈ dependencies graph follower, d ∈ q.order ++ [node] := by
  rw [List.mem_filter, mem_followers hkeys, List.isEmpty_iff, List.filter_eq_nil_iff]
  refine and_congr_right fun _ => ⟨fun hall d hd => ?_, fun hall d hd => ?_⟩
  · by_cases horder : d ∈ q.order
    · exact List.mem_append_left _ horder
    · have hnode : d = node := by simpa using hall d ((h.mem_missing follower d).2 ⟨hd, horder⟩)
      exact List.mem_append_right _ (List.mem_singleton.2 hnode)
  · obtain ⟨hd, horder⟩ := (h.mem_missing follower d).1 hd
    simpa [horder] using hall d hd

include hq

theorem mem_missing_round {other : String} :
    d ∈ (round graph q).missing other ↔
      d ∈ dependencies graph other ∧ d ∉ q.order ++ [node] := by
  have hround : (round graph q).missing other = ((followers graph node).foldl (release node)
      { q with order := q.order ++ [node], ready := others }).missing other := by
    rw [round_of_ready hq]
    rfl
  rw [hround, mem_missing_releases, mem_followers hkeys]
  have hmissing : d ∈ q.missing other ↔ d ∈ dependencies graph other ∧ d ∉ q.order :=
    h.mem_missing other d
  change (d ∈ q.missing other ∧ _) ↔ _
  rw [hmissing]
  grind

/-- **The queue holds the nodes that could come next.** -/
theorem mem_ready_round {other : String} :
    other ∈ (round graph q).ready ↔ Ready graph (q.order ++ [node]) other := by
  obtain ⟨hnode, hnew, hfree⟩ := h.head_ready hq
  rw [ready_round hq, Text.Order.mem_sort, List.mem_append, h.mem_others hq, h.mem_released hkeys]
  constructor
  · rintro (⟨hready, hne⟩ | ⟨hnode, hall⟩)
    · exact ⟨hready.1, by simp [hready.2.1, hne],
        fun d hd => List.mem_append_left _ (hready.2.2 d hd)⟩
    · refine ⟨mem_nodes_of_depends hnode, ?_, hall⟩
      -- Neither a node that came before nor the taken one depends on the taken one.
      rw [List.mem_append, List.mem_singleton, not_or]
      refine ⟨fun horder => hnew (h.closed other horder node hnode), ?_⟩
      rintro rfl
      exact hnew (hfree _ hnode)
  · rintro ⟨hother, hapart, hall⟩
    rw [List.mem_append, List.mem_singleton, not_or] at hapart
    by_cases hlast : node ∈ dependencies graph other
    · exact Or.inr ⟨hlast, hall⟩
    · refine Or.inl ⟨⟨hother, hapart.1, fun d hd => ?_⟩, hapart.2⟩
      refine (List.mem_append.1 (hall d hd)).resolve_right fun heq => hlast ?_
      exact List.mem_singleton.1 heq ▸ hd

/-- **What a round keeps.** -/
theorem round : Sound graph (round graph q) where
  sorted := by
    obtain ⟨-, hnew, -⟩ := h.head_ready hq
    rw [ready_round hq]
    refine Text.Order.pairwise_lt_sort (List.nodup_append.2 ⟨?_, ?_, ?_⟩)
    · exact Text.Order.nodup_of_pairwise_lt (h.sorted_head_tail hq).2
    · exact (Text.Order.nodup_of_pairwise_lt (Text.Order.pairwise_sortedDistinct _)).filter _
    · rintro other hother _ hreleased rfl
      have hready := ((h.mem_others hq).1 hother).1
      exact hnew (hready.2.2 node ((h.mem_released hkeys).1 hreleased).1)
  mem_ready other := by rw [order_round hq, h.mem_ready_round hkeys hq]
  mem_missing other d := by rw [order_round hq, h.mem_missing_round hkeys hq]
  closed other hother d hd := by
    rw [order_round hq] at hother ⊢
    rcases List.mem_append.1 hother with horder | heq
    · exact List.mem_append_left _ (h.closed other horder d hd)
    · obtain ⟨-, -, hfree⟩ := h.head_ready hq
      exact List.mem_append_left _ (hfree d (List.mem_singleton.1 heq ▸ hd))

end Sound

/-- A round leaves fewer nodes to come. -/
theorem length_rest_lt {order : List String} (h : Ready graph order node) :
    ((nodes graph).filter (· ∉ order ++ [node])).length <
      ((nodes graph).filter (· ∉ order)).length := by
  have hrest : (nodes graph).filter (· ∉ order ++ [node]) =
      ((nodes graph).filter (· ∉ order)).filter (· ≠ node) := by
    rw [List.filter_filter]
    refine List.filter_congr fun other _ => ?_
    simp [and_comm]
  rw [hrest, List.length_filter_lt_length_iff_exists]
  exact ⟨node, List.mem_filter.2 ⟨h.1, by simpa using h.2.1⟩, by simp⟩

/-- **The rounds end, and take nodes greedily.** A round is one node of the greedy order, and behind the
last one nothing is ready. -/
theorem rounds_greedy (hkeys : (Assoc.keys graph).Nodup) (h : Sound graph q) :
    ∃ rest, Greedy graph q.order rest ∧ ((round graph)^[rest.length] q).ready = [] ∧
      ((round graph)^[rest.length] q).order = q.order ++ rest := by
  generalize hcount : ((nodes graph).filter (· ∉ q.order)).length = count
  induction count using Nat.strongRecOn generalizing q with
  | ind count ih =>
    cases hq : q.ready with
    | nil =>
      have hnone : ∀ node, ¬ Ready graph q.order node := by
        intro node hready
        rw [← h.mem_ready, hq] at hready
        exact List.not_mem_nil hready
      exact ⟨[], .stop hnone, hq, (List.append_nil _).symm⟩
    | cons node others =>
      have hready : Ready graph q.order node := h.head_ready hq
      have horder : (round graph q).order = q.order ++ [node] := order_round hq
      have hless : ((nodes graph).filter (· ∉ (round graph q).order)).length < count := by
        rw [horder, ← hcount]
        exact length_rest_lt hready
      obtain ⟨rest, hgreedy, hdone, hrest⟩ := ih _ hless (h.round hkeys hq) rfl
      rw [horder] at hgreedy hrest
      exact ⟨node :: rest, .take hready (fun _ => h.head_least hq) hgreedy, hdone,
        by simpa using hrest⟩

/-- **The queue finds the schedule**, in as many rounds as the order has nodes. -/
theorem rounds_find_schedule (hkeys : (Assoc.keys graph).Nodup) :
    ((round graph)^[(ofGraph graph).order.length] (start graph)).ready = [] ∧
      ((round graph)^[(ofGraph graph).order.length] (start graph)).schedule graph =
        ofGraph graph := by
  obtain ⟨rest, hgreedy, hdone, hrest⟩ := rounds_greedy hkeys (sound_start graph)
  change Greedy graph [] rest at hgreedy
  change _ = [] ++ rest at hrest
  have hschedule := ofGraph_eq_of_greedy hgreedy
  have horder : (ofGraph graph).order = rest := by rw [hschedule]
  rw [horder, schedule, hrest, hschedule, List.nil_append]
  exact ⟨hdone, rfl⟩

end

end Queue

/-- **The schedule of any graph.** After at most as many rounds as there are nodes no node of the queue
is ready, and what came and what did not is the schedule; nor do more steps than there are nodes
change it. The order and the remaining nodes list every node once, whether it is an entry or only a
dependency. A node follows its dependencies, and what remains, in order, is what leads to a cycle. -/
theorem order_and_remaining_of_graph (graph : Graph) (hkeys : (Assoc.keys graph).Nodup) :
    (∃ rounds ≤ (nodes graph).length,
        ((Queue.round graph)^[rounds] (Queue.start graph)).ready = [] ∧
        ((Queue.round graph)^[rounds] (Queue.start graph)).schedule graph = ofGraph graph) ∧
      (∀ steps, (nodes graph).length ≤ steps → run steps (start graph) = ofGraph graph) ∧
      ((ofGraph graph).order ++ (ofGraph graph).remaining).Nodup ∧
      (∀ node, node ∈ (ofGraph graph).order ++ (ofGraph graph).remaining ↔
        ∃ entry ∈ graph, node = entry.1 ∨ node ∈ entry.2) ∧
      (∀ before node after, (ofGraph graph).order = before ++ node :: after →
        ∀ d ∈ dependencies graph node, d ∈ before) ∧
      (ofGraph graph).remaining.Pairwise (· < ·) ∧
      ∀ node, node ∈ (ofGraph graph).remaining ↔ LeadsToCycle graph node := by
  refine ⟨⟨(ofGraph graph).order.length, ?_, Queue.rounds_find_schedule hkeys⟩,
    fun steps => run_start, nodup_order_append_remaining graph, fun node => ?_,
    fun before node after => dependencies_before, pairwise_remaining graph,
    fun node => mem_remaining_iff⟩
  · have hlength := (order_append_remaining_perm graph).length_eq
    rw [List.length_append] at hlength
    omega
  · rw [(order_append_remaining_perm graph).mem_iff, mem_nodes]

/-- A node behind two that depend on each other, and a pair apart from them. -/
def ringAndPair : Graph :=
  [("c", ["a"]), ("a", ["b"]), ("b", ["a"]), ("e", ["d"])]

theorem order_and_remaining_of_graph_ringAndPair :
    (Assoc.keys ringAndPair).Nodup ∧ ofGraph ringAndPair = ⟨["d", "e"], ["a", "b", "c"]⟩ ∧
      LeadsToCycle ringAndPair "c" := by
  have hkeys : (Assoc.keys ringAndPair).Nodup := by decide
  have hnodes : nodes ringAndPair = ["a", "b", "c", "d", "e"] := by
    refine nodes_eq_of_pairwise (by decide) fun name => ?_
    simp only [ringAndPair, List.mem_cons, List.not_mem_nil, or_false, exists_eq_or_imp,
      exists_eq_left]
    grind
  have hschedule : ofGraph ringAndPair = ⟨["d", "e"], ["a", "b", "c"]⟩ := by
    rw [ofGraph, Schedule.start, hnodes]
    decide
  obtain ⟨-, -, -, -, -, -, hremaining⟩ := order_and_remaining_of_graph ringAndPair hkeys
  exact ⟨hkeys, hschedule, (hremaining "c").1 (by simp [hschedule])⟩

end SampleTypes.Schedule
