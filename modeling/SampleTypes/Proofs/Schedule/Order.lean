import SampleTypes.Proofs.Assoc.Bindings
import SampleTypes.Schedule

/-!
# What a schedule guarantees

A step takes a ready node out and strikes it, and every fact here is an induction on the steps with
the waiting nodes generalized: what holds of the rest of the run for the struck list is carried
back over one step. The names of the waiting nodes are distinct throughout, so a name has one list
of missing dependencies.

## Main results

* `order_append_remaining_perm`: every node is listed once.
* `dependencies_before`: a node follows its dependencies.
* `exists_blocking`: what remains waits for something that remains.
* `run_least`: when a node comes, no smaller one could have come.
* `lt_of_free`: among the nodes that wait for nothing, and all others before them, smaller names
  come first.
* `remaining_eq_nil`: nothing remains where dependencies lead upwards.
-/

namespace SampleTypes.Schedule

/-! ## One step -/

section Step

variable {node other : String} {missing : List String} {waiting : List Waiting}

theorem run_of_none (h : (waiting.find? fun w => w.2.isEmpty) = none) (steps : Nat) :
    run steps waiting = ⟨[], waiting.map Prod.fst⟩ := by
  cases steps with
  | zero => rfl
  | succ steps => simp only [run, h]

theorem run_of_some (h : (waiting.find? fun w => w.2.isEmpty) = some (node, missing))
    (steps : Nat) :
    run (steps + 1) waiting =
      ⟨node :: (run steps (strike node waiting)).order,
        (run steps (strike node waiting)).remaining⟩ := by
  simp only [run, h]

/-- The node that a step takes waits and misses nothing. -/
theorem mem_of_ready (h : (waiting.find? fun w => w.2.isEmpty) = some (node, missing)) :
    (node, []) ∈ waiting := by
  have hmem := List.mem_of_find?_eq_some h
  have hready : missing = [] := by simpa using List.find?_some h
  rwa [hready] at hmem

theorem names_strike (node : String) (waiting : List Waiting) :
    (strike node waiting).map Prod.fst = (waiting.map Prod.fst).filter (· ≠ node) := by
  rw [strike, List.map_map, List.filter_map]
  rfl

theorem mem_strike (hne : other ≠ node) (h : (other, missing) ∈ waiting) :
    (other, missing.filter (· ≠ node)) ∈ strike node waiting := by
  refine List.mem_map.2 ⟨(other, missing), ?_, rfl⟩
  exact List.mem_filter.2 ⟨h, by simpa using hne⟩

theorem nodup_strike (node : String) (hnodup : (waiting.map Prod.fst).Nodup) :
    ((strike node waiting).map Prod.fst).Nodup := by
  rw [names_strike]
  exact hnodup.filter _

/-- A step leaves fewer nodes. -/
theorem length_strike_lt (h : (node, missing) ∈ waiting) :
    (strike node waiting).length < waiting.length := by
  rw [strike, List.length_map]
  have hle := List.length_filter_le (fun w : Waiting => decide (w.1 ≠ node)) waiting
  refine Nat.lt_of_le_of_ne hle fun heq => ?_
  have hall := List.length_filter_eq_length_iff.1 heq _ h
  simp at hall

/-- Distinct names have one list of missing dependencies each. -/
theorem missing_unique (hnodup : (waiting.map Prod.fst).Nodup) {missing' : List String}
    (h : (node, missing) ∈ waiting) (h' : (node, missing') ∈ waiting) : missing = missing' := by
  have hget := Assoc.get?_of_mem hnodup h
  rw [Assoc.get?_of_mem hnodup h'] at hget
  exact (Option.some.inj hget).symm

end Step

/-! ## Runs -/

section Run

variable {node : String} {missing before after : List String} {waiting : List Waiting}
  {steps : Nat}

/-- Every waiting node is listed once. -/
theorem run_perm (steps : Nat) (hnodup : (waiting.map Prod.fst).Nodup) :
    ((run steps waiting).order ++ (run steps waiting).remaining).Perm
      (waiting.map Prod.fst) := by
  induction steps generalizing waiting with
  | zero => exact List.Perm.refl _
  | succ steps ih =>
    cases hfind : waiting.find? fun w => w.2.isEmpty with
    | none => simp [run_of_none hfind]
    | some found =>
      rcases found with ⟨taken, missing⟩
      have hmem : taken ∈ waiting.map Prod.fst :=
        List.mem_map_of_mem (mem_of_ready hfind)
      have hrest := ih (nodup_strike taken hnodup)
      rw [names_strike] at hrest
      have hfilter : (waiting.map Prod.fst).filter (· ≠ taken) =
          (waiting.map Prod.fst).erase taken := by
        rw [hnodup.erase_eq_filter]
        exact List.filter_congr fun other _ => by simp [bne, Bool.beq_eq_decide_eq]
      rw [hfilter] at hrest
      simp only [run_of_some hfind, List.cons_append]
      exact (hrest.cons taken).trans (List.perm_cons_erase hmem).symm

theorem mem_names_of_mem_order (hnodup : (waiting.map Prod.fst).Nodup)
    (h : node ∈ (run steps waiting).order) : node ∈ waiting.map Prod.fst :=
  (run_perm steps hnodup).mem_iff.1 (List.mem_append_left _ h)

theorem mem_names_of_mem_remaining (hnodup : (waiting.map Prod.fst).Nodup)
    (h : node ∈ (run steps waiting).remaining) : node ∈ waiting.map Prod.fst :=
  (run_perm steps hnodup).mem_iff.1 (List.mem_append_right _ h)

/-- What comes after a step is not what the step took. -/
private theorem ne_of_mem_names_strike {taken : String}
    (h : node ∈ (strike taken waiting).map Prod.fst) : node ≠ taken := by
  rw [names_strike] at h
  simpa using (List.mem_filter.1 h).2

/-- As many steps as there are nodes are enough: more of them change nothing. -/
theorem run_congr {steps' : Nat} (h : waiting.length ≤ steps) (h' : waiting.length ≤ steps') :
    run steps waiting = run steps' waiting := by
  induction steps generalizing steps' waiting with
  | zero =>
    obtain rfl : waiting = [] := List.eq_nil_of_length_eq_zero (by omega)
    rw [run_of_none rfl, run_of_none rfl]
  | succ steps ih =>
    cases hfind : waiting.find? fun w => w.2.isEmpty with
    | none => rw [run_of_none hfind, run_of_none hfind]
    | some found =>
      rcases found with ⟨taken, missing⟩
      have hlength := length_strike_lt (mem_of_ready hfind)
      obtain ⟨steps', rfl⟩ : ∃ fewer, steps' = fewer + 1 := ⟨steps' - 1, by omega⟩
      have hrest : run steps (strike taken waiting) = run steps' (strike taken waiting) :=
        ih (by omega) (by omega)
      rw [run_of_some hfind, run_of_some hfind, hrest]

/-- A node comes when nothing is missing: what it misses stands before it. -/
theorem run_dependencies (hnodup : (waiting.map Prod.fst).Nodup)
    (horder : (run steps waiting).order = before ++ node :: after)
    (h : (node, missing) ∈ waiting) : ∀ d ∈ missing, d ∈ before := by
  induction steps generalizing waiting missing before with
  | zero => simp [run] at horder
  | succ steps ih =>
    cases hfind : waiting.find? fun w => w.2.isEmpty with
    | none => simp [run_of_none hfind] at horder
    | some found =>
      rcases found with ⟨taken, empty⟩
      simp only [run_of_some hfind] at horder
      cases before with
      | nil =>
        obtain ⟨rfl, -⟩ := List.cons.inj horder
        simp [missing_unique hnodup h (mem_of_ready hfind)]
      | cons first between =>
        obtain ⟨rfl, hrest⟩ := List.cons.inj horder
        have hnodup' := nodup_strike taken hnodup
        have hlater : node ∈ (run steps (strike taken waiting)).order := by simp [hrest]
        have hne := ne_of_mem_names_strike (mem_names_of_mem_order hnodup' hlater)
        have hbetween := ih hnodup' hrest (mem_strike hne h)
        intro d hd
        by_cases htaken : d = taken
        · simp [htaken]
        · refine List.mem_cons_of_mem _ (hbetween d ?_)
          simpa [htaken] using hd

/-- With enough steps, what remains misses something that was never taken. -/
theorem run_blocked (hnodup : (waiting.map Prod.fst).Nodup) (hsteps : waiting.length ≤ steps)
    (hremains : node ∈ (run steps waiting).remaining) (h : (node, missing) ∈ waiting) :
    ∃ d ∈ missing, d ∉ (run steps waiting).order := by
  induction steps generalizing waiting missing with
  | zero =>
    have hnil : waiting = [] := List.eq_nil_of_length_eq_zero (by omega)
    simp [hnil] at h
  | succ steps ih =>
    cases hfind : waiting.find? fun w => w.2.isEmpty with
    | none =>
      have hstuck := List.find?_eq_none.1 hfind _ h
      cases missing with
      | nil => simp at hstuck
      | cons d rest => exact ⟨d, by simp, by simp [run_of_none hfind]⟩
    | some found =>
      rcases found with ⟨taken, empty⟩
      simp only [run_of_some hfind] at hremains ⊢
      have hnodup' := nodup_strike taken hnodup
      have hne := ne_of_mem_names_strike (mem_names_of_mem_remaining hnodup' hremains)
      have hlength := length_strike_lt (mem_of_ready hfind)
      obtain ⟨d, hd, hnot⟩ := ih hnodup' (by omega) hremains (mem_strike hne h)
      obtain ⟨hd, htaken⟩ := List.mem_filter.1 hd
      refine ⟨d, hd, ?_⟩
      rw [List.mem_cons, not_or]
      exact ⟨by simpa using htaken, hnot⟩

/-- A step takes the least of the nodes that miss nothing. -/
private theorem taken_le {taken : String} (hsorted : (waiting.map Prod.fst).Pairwise (· < ·))
    (hfind : (waiting.find? fun w => w.2.isEmpty) = some (taken, missing))
    (h : (node, []) ∈ waiting) : taken ≤ node := by
  obtain ⟨-, front, back, rfl, hfront⟩ := List.find?_eq_some_iff_append.1 hfind
  rcases List.mem_append.1 h with hmem | hmem
  · have hblocked := hfront _ hmem
    simp at hblocked
  · rcases List.mem_cons.1 hmem with heq | hback
    · obtain rfl : node = taken := congrArg Prod.fst heq
      exact String.le_refl _
    · rw [List.map_append, List.map_cons] at hsorted
      have htail := (List.pairwise_append.1 hsorted).2.1
      exact String.lt_asymm ((List.pairwise_cons.1 htail).1 node (List.mem_map_of_mem hback))

/-- When a node comes, no smaller one could have come: whatever misses only nodes that stand before
it, and is not among them itself, is not smaller. -/
theorem run_least {other : String} (hsorted : (waiting.map Prod.fst).Pairwise (· < ·))
    (horder : (run steps waiting).order = before ++ node :: after)
    (h : (other, missing) ∈ waiting) (hother : other ∉ before)
    (hmissing : ∀ d ∈ missing, d ∈ before) : node ≤ other := by
  induction steps generalizing waiting missing before with
  | zero => simp [run] at horder
  | succ steps ih =>
    cases hfind : waiting.find? fun w => w.2.isEmpty with
    | none => simp [run_of_none hfind] at horder
    | some found =>
      rcases found with ⟨taken, empty⟩
      simp only [run_of_some hfind] at horder
      cases before with
      | nil =>
        obtain ⟨rfl, -⟩ := List.cons.inj horder
        obtain rfl : missing = [] := List.eq_nil_iff_forall_not_mem.2 fun d hd => by
          simpa using hmissing d hd
        exact taken_le hsorted hfind h
      | cons first between =>
        obtain ⟨rfl, hrest⟩ := List.cons.inj horder
        rw [List.mem_cons, not_or] at hother
        have hsorted' : ((strike taken waiting).map Prod.fst).Pairwise (· < ·) := by
          rw [names_strike]
          exact hsorted.filter _
        refine ih hsorted' hrest (mem_strike hother.1 h) hother.2 fun d hd => ?_
        obtain ⟨hd, hne⟩ := List.mem_filter.1 hd
        exact (List.mem_cons.1 (hmissing d hd)).resolve_left (by simpa using hne)

end Run

/-! ## Graphs -/

section Graph

variable {graph : Graph} {node : String} {before after : List String}

theorem names_start (graph : Graph) : (start graph).map Prod.fst = nodes graph := by
  rw [start, List.map_map]
  exact List.map_id _

theorem pairwise_nodes (graph : Graph) : (nodes graph).Pairwise (· < ·) :=
  Text.Order.pairwise_sortedDistinct _

theorem nodup_nodes (graph : Graph) : (nodes graph).Nodup :=
  Text.Order.nodup_of_pairwise_lt (pairwise_nodes graph)

theorem pairwise_start (graph : Graph) : ((start graph).map Prod.fst).Pairwise (· < ·) := by
  rw [names_start]
  exact pairwise_nodes graph

theorem nodup_start (graph : Graph) : ((start graph).map Prod.fst).Nodup :=
  Text.Order.nodup_of_pairwise_lt (pairwise_start graph)

/-- The number of steps does not decide the schedule. -/
theorem run_start {steps : Nat} (h : (nodes graph).length ≤ steps) :
    run steps (start graph) = ofGraph graph := by
  refine run_congr ?_ (Nat.le_refl _)
  rwa [start, List.length_map]

theorem mem_start (h : node ∈ nodes graph) : (node, dependencies graph node) ∈ start graph :=
  List.mem_map.2 ⟨node, h, rfl⟩

/-- What a node depends on is listed in an entry of it. -/
theorem exists_entry_of_mem_dependencies {d : String} (h : d ∈ dependencies graph node) :
    ∃ listed, (node, listed) ∈ graph ∧ d ∈ listed := by
  unfold dependencies at h
  cases hget : Assoc.get? node graph with
  | none => simp [hget] at h
  | some listed =>
    rw [hget, Option.getD_some] at h
    exact ⟨listed, Assoc.mem_of_get? hget, h⟩

theorem mem_dependencies {d : String} (hkeys : (Assoc.keys graph).Nodup) :
    d ∈ dependencies graph node ↔ ∃ listed, (node, listed) ∈ graph ∧ d ∈ listed := by
  constructor
  · exact exists_entry_of_mem_dependencies
  · rintro ⟨listed, hentry, hd⟩
    rwa [dependencies, Assoc.get?_of_mem hkeys hentry, Option.getD_some]

/-- What a node depends on is a node. -/
theorem mem_nodes_of_mem_dependencies {d : String} (h : d ∈ dependencies graph node) :
    d ∈ nodes graph := by
  obtain ⟨listed, hentry, hd⟩ := exists_entry_of_mem_dependencies h
  exact mem_nodes.2 ⟨(node, listed), hentry, Or.inr hd⟩

/-- **Every node is listed once**, in the order or among the remaining ones. -/
theorem order_append_remaining_perm (graph : Graph) :
    ((ofGraph graph).order ++ (ofGraph graph).remaining).Perm (nodes graph) := by
  have hperm := run_perm (start graph).length (nodup_start graph)
  rwa [names_start] at hperm

theorem nodup_order_append_remaining (graph : Graph) :
    ((ofGraph graph).order ++ (ofGraph graph).remaining).Nodup :=
  (order_append_remaining_perm graph).nodup_iff.2 (nodup_nodes graph)

theorem mem_order_or_mem_remaining :
    node ∈ (ofGraph graph).order ∨ node ∈ (ofGraph graph).remaining ↔ node ∈ nodes graph := by
  rw [← List.mem_append]
  exact (order_append_remaining_perm graph).mem_iff

/-- **A node follows its dependencies.** -/
theorem dependencies_before (h : (ofGraph graph).order = before ++ node :: after) :
    ∀ d ∈ dependencies graph node, d ∈ before := by
  have hnode : node ∈ nodes graph := mem_order_or_mem_remaining.1 (Or.inl (by simp [h]))
  exact run_dependencies (nodup_start graph) h (mem_start hnode)

/-- **What remains waits for something that remains.** -/
theorem exists_blocking (h : node ∈ (ofGraph graph).remaining) :
    ∃ d ∈ dependencies graph node, d ∈ (ofGraph graph).remaining := by
  have hnode : node ∈ nodes graph := mem_order_or_mem_remaining.1 (Or.inr h)
  obtain ⟨d, hd, hnot⟩ := run_blocked (nodup_start graph) (Nat.le_refl _) h (mem_start hnode)
  have hlisted := mem_order_or_mem_remaining.2 (mem_nodes_of_mem_dependencies hd)
  exact ⟨d, hd, hlisted.resolve_left hnot⟩

/-- A node without dependencies is ordered. -/
theorem mem_order_of_free (hnode : node ∈ nodes graph) (hfree : dependencies graph node = []) :
    node ∈ (ofGraph graph).order := by
  rcases mem_order_or_mem_remaining.2 hnode with horder | hremains
  · exact horder
  · obtain ⟨d, hd, -⟩ := exists_blocking hremains
    simp [hfree] at hd

/-- **A node without dependencies follows smaller nodes only.** -/
theorem lt_of_free (h : (ofGraph graph).order = before ++ node :: after)
    (hfree : dependencies graph node = []) : ∀ other ∈ before, other < node := by
  intro other hother
  obtain ⟨front, back, rfl⟩ := List.append_of_mem hother
  rw [List.append_assoc, List.cons_append] at h
  have hnode : node ∈ nodes graph := mem_order_or_mem_remaining.1 (Or.inl (by simp [h]))
  have hnodup := (List.nodup_append.1 (nodup_order_append_remaining graph)).1
  have hapart : node ∉ front ∧ other ≠ node := by
    rw [h] at hnodup
    grind
  have hstart := mem_start hnode
  rw [hfree] at hstart
  exact Text.Order.lt_of_le_of_ne (run_least (pairwise_start graph) h hstart hapart.1 (by simp))
    hapart.2

private theorem exists_bound (height : String → Nat) (names : List String) :
    ∃ bound, ∀ name ∈ names, height name ≤ bound := by
  induction names with
  | nil => exact ⟨0, by simp⟩
  | cons name rest ih =>
    obtain ⟨bound, hbound⟩ := ih
    refine ⟨max (height name) bound, fun other hother => ?_⟩
    rcases List.mem_cons.1 hother with rfl | hother
    · exact Nat.le_max_left _ _
    · exact Nat.le_trans (hbound other hother) (Nat.le_max_right _ _)

/-- **Nothing remains where dependencies lead upwards.** What a remaining node waits for remains as
well and is higher, and there is no end to that. -/
theorem remaining_eq_nil (height : String → Nat)
    (hup : ∀ node ∈ nodes graph, ∀ d ∈ dependencies graph node, height node < height d) :
    (ofGraph graph).remaining = [] := by
  obtain ⟨bound, hbound⟩ := exists_bound height (nodes graph)
  have hnone : ∀ n node, bound - height node = n → node ∉ (ofGraph graph).remaining := by
    intro n
    induction n using Nat.strongRecOn with
    | ind n ih =>
      intro node hn hremains
      obtain ⟨d, hd, hwaiting⟩ := exists_blocking hremains
      have hnode : node ∈ nodes graph := mem_order_or_mem_remaining.1 (Or.inr hremains)
      have hlt := hup node hnode d hd
      have hle := hbound d (mem_nodes_of_mem_dependencies hd)
      exact ih (bound - height d) (by omega) d rfl hwaiting
  exact List.eq_nil_iff_forall_not_mem.2 fun node => hnone _ node rfl

end Graph

end SampleTypes.Schedule
