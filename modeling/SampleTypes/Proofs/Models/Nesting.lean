import Mathlib.Logic.Relation
import SampleTypes.Proofs.Models.Building

/-!
# Documents whose types have class names of their own

Nothing checks that references do not run in circles. In the plan of a document they cannot, because
a reference leads to a definition that stands deeper in the document. Class names hide this as
soon as two definitions share one; where they are distinct, a class name has the depth of its
only definition, and depth increases along every reference. So the schedule leaves nothing over,
every model comes after those that it refers to, and none is deferred.

## Main results

* `depth_lt_of_refers`: depth increases along references.
* `remaining_schedule_eq_nil`, `order_schedule_perm`: the schedule orders all class names.
* `targets_before`, `deferred_eq_nil`: no model is made before one that it refers to.
* `distinct_names_need_no_forward_references`: all of it.
-/

namespace SampleTypes.Models

open Json (Members)

/-- The definition that counts under a class name refers to another one, or to itself. -/
def Refers (plan : Plan) (name target : String) : Prop :=
  ∃ d, lastNamed? plan name = some d ∧ target ∈ references d

/-- The class names of the definitions of a plan, in order. -/
def classNames (plan : Plan) : List String :=
  plan.definitions.map fun d => Identifier.className d.name

/-- Where class names are distinct, every definition counts. -/
theorem lastNamed?_of_nodup {plan : Plan} {d : Definition} (hdistinct : (classNames plan).Nodup)
    (hd : d ∈ plan.definitions) : lastNamed? plan (Identifier.className d.name) = some d := by
  have hkeys : (Assoc.keys (plan.definitions.map fun d =>
      (Identifier.className d.name, d))).Nodup := by
    rw [Assoc.keys_map]
    exact hdistinct
  rw [← get?_winners, winners, Assoc.ofList_eq_self hkeys]
  exact Assoc.get?_of_mem hkeys (List.mem_map.2 ⟨d, hd, rfl⟩)

/-- Where class names are distinct, they are all reserved, in order. -/
theorem keys_winners_of_nodup {plan : Plan} (hdistinct : (classNames plan).Nodup) :
    Assoc.keys (winners plan) = classNames plan := by
  have hkeys : Assoc.keys (plan.definitions.map fun d => (Identifier.className d.name, d)) =
      classNames plan := Assoc.keys_map _ _
  rw [winners, Assoc.ofList_eq_self (hkeys ▸ hdistinct), hkeys]

section

variable {discriminator root : String} {document : Members}

/-- The depth at which the definition with a class name stands. -/
def depth (discriminator root : String) (document : Members) (name : String) : Nat :=
  (Assoc.get? name ((placedTypes discriminator root document).map fun placed =>
    (Identifier.className placed.2, placed.1.length))).getD 0

/-- Where class names are distinct, a class name has the depth of its definition. -/
theorem depth_of_mem (hdistinct : (classNames (planOfMembers discriminator root document)).Nodup)
    {placed : Address × String} (h : placed ∈ placedTypes discriminator root document) :
    depth discriminator root document (Identifier.className placed.2) = placed.1.length := by
  have hkeys : (Assoc.keys ((placedTypes discriminator root document).map fun placed =>
      (Identifier.className placed.2, placed.1.length))).Nodup := by
    rw [classNames, definitions_eq_placed, List.map_map] at hdistinct
    rw [Assoc.keys_map]
    exact hdistinct
  have hpair := List.mem_map_of_mem
    (f := fun placed : Address × String => (Identifier.className placed.2, placed.1.length)) h
  rw [depth, Assoc.get?_of_mem hkeys hpair]
  rfl

/-- **Depth increases along references.** -/
theorem depth_lt_of_refers
    (hdistinct : (classNames (planOfMembers discriminator root document)).Nodup)
    {name target : String} (h : Refers (planOfMembers discriminator root document) name target) :
    depth discriminator root document name < depth discriminator root document target := by
  obtain ⟨d, hlast, hreference⟩ := h
  obtain ⟨field, hfield, hkind, rfl⟩ := mem_references.1 hreference
  obtain ⟨hd, rfl⟩ := mem_of_lastNamed? hlast
  rw [definitions_eq_placed] at hd
  obtain ⟨placed, hplaced, rfl⟩ := List.mem_map.1 hd
  obtain ⟨deeper, hdeeper, hname, hlt⟩ := exists_deeper hfield hkind root
  have hfrom := depth_of_mem hdistinct hplaced
  have hto := depth_of_mem hdistinct hdeeper
  rw [hname] at hto
  change depth discriminator root document (Identifier.className placed.2) < _
  omega

/-- References do not run in circles. -/
theorem depth_lt_of_transGen
    (hdistinct : (classNames (planOfMembers discriminator root document)).Nodup)
    {name target : String}
    (h : Relation.TransGen (Refers (planOfMembers discriminator root document)) name target) :
    depth discriminator root document name < depth discriminator root document target := by
  induction h with
  | single hstep => exact depth_lt_of_refers hdistinct hstep
  | tail _ hstep ih => exact Nat.lt_trans ih (depth_lt_of_refers hdistinct hstep)

/-- **The schedule leaves nothing over.** -/
theorem remaining_schedule_eq_nil
    (hdistinct : (classNames (planOfMembers discriminator root document)).Nodup) :
    (schedule (planOfMembers discriminator root document)).remaining = [] := by
  refine Schedule.remaining_eq_nil (depth discriminator root document) fun name _ target h => ?_
  obtain ⟨-, hrefers⟩ := mem_dependencies_graph.1 h
  exact depth_lt_of_refers hdistinct hrefers

theorem scheduled_eq_order
    (hdistinct : (classNames (planOfMembers discriminator root document)).Nodup) :
    scheduled (planOfMembers discriminator root document) =
      (schedule (planOfMembers discriminator root document)).order := by
  rw [scheduled, remaining_schedule_eq_nil hdistinct, List.append_nil]

/-- **The order lists the class names of all definitions.** -/
theorem order_schedule_perm
    (hdistinct : (classNames (planOfMembers discriminator root document)).Nodup) :
    (schedule (planOfMembers discriminator root document)).order.Perm
      (classNames (planOfMembers discriminator root document)) := by
  have hnodup := nodup_scheduled (planOfMembers discriminator root document)
  rw [scheduled_eq_order hdistinct] at hnodup
  refine (List.perm_ext_iff_of_nodup hnodup hdistinct).2 fun name => ?_
  rw [← scheduled_eq_order hdistinct, mem_scheduled, classNames, List.mem_map]
  constructor
  · rintro (hdefined | ⟨own, d, hlast, hreference⟩)
    · exact hdefined
    · exact exists_definition_of_mem_references (mem_of_lastNamed? hlast).1 hreference
  · exact Or.inl

/-- **A class comes after those that it refers to.** -/
theorem targets_before
    (hdistinct : (classNames (planOfMembers discriminator root document)).Nodup)
    {made rest : List String} {name target : String}
    (horder : (schedule (planOfMembers discriminator root document)).order =
      made ++ name :: rest)
    (h : Refers (planOfMembers discriminator root document) name target) : target ∈ made := by
  refine Schedule.dependencies_before horder target (mem_dependencies_graph.2 ⟨?_, h⟩)
  rintro rfl
  exact Nat.lt_irrefl _ (depth_lt_of_refers hdistinct h)

/-- **No model is deferred**, however far the run comes. -/
theorem deferred_eq_nil
    (hdistinct : (classNames (planOfMembers discriminator root document)).Nodup)
    {made rest : List String} {progress : Progress}
    (horder : (schedule (planOfMembers discriminator root document)).order = made ++ rest)
    (hrun : run (planOfMembers discriminator root document) made = .ok progress) :
    Assoc.keys progress.models = made ∧ progress.deferred = [] := by
  have hmade : made.Nodup := nodup_of_scheduled ((scheduled_eq_order hdistinct).trans horder)
  refine ⟨keys_of_run hrun hmade, List.eq_nil_iff_forall_not_mem.2 fun name hname => ?_⟩
  by_cases hmem : name ∈ made
  · obtain ⟨front, back, rfl⟩ := List.append_of_mem hmem
    obtain ⟨before, d, draft, -, -, hlast, -, -, hdeferred⟩ := stage_of_run hrun hmade
    rcases hdeferred.1 hname with hremains | ⟨target, htarget, hmissing⟩
    · rw [remaining_schedule_eq_nil hdistinct] at hremains
      cases hremains
    · rw [List.append_assoc] at horder
      exact hmissing (targets_before hdistinct horder ⟨d, hlast, htarget⟩)
  · have hnone := ((frame_of_run hrun hmem).2).1 hname
    cases hnone

/-- **Distinct class names need no forward references.** If the definitions of the plan of a document
have class names of their own, no class refers to itself, directly or through others; the schedule
has no remainder and orders exactly the class names; a class comes after those that it refers to; and
however many models are made, they are those of the classes that came and none is deferred, until
all are made. -/
theorem distinct_names_need_no_forward_references (discriminator root : String)
    (document : Members)
    (hdistinct : ((planOfMembers discriminator root document).definitions.map fun d =>
      Identifier.className d.name).Nodup) :
    (∀ name, ¬ Relation.TransGen (Refers (planOfMembers discriminator root document)) name name) ∧
      (schedule (planOfMembers discriminator root document)).remaining = [] ∧
      (schedule (planOfMembers discriminator root document)).order.Perm
        ((planOfMembers discriminator root document).definitions.map fun d =>
          Identifier.className d.name) ∧
      (∀ made name rest target,
        (schedule (planOfMembers discriminator root document)).order = made ++ name :: rest →
        Refers (planOfMembers discriminator root document) name target → target ∈ made) ∧
      (∀ made rest progress,
        (schedule (planOfMembers discriminator root document)).order = made ++ rest →
        run (planOfMembers discriminator root document) made = .ok progress →
        Assoc.keys progress.models = made ∧ progress.deferred = []) ∧
      ∀ final, drafts (planOfMembers discriminator root document) = .ok final →
        Assoc.keys final.models = (schedule (planOfMembers discriminator root document)).order ∧
        final.deferred = [] := by
  refine ⟨?_, remaining_schedule_eq_nil hdistinct, order_schedule_perm hdistinct, ?_, ?_, ?_⟩
  · intro name hcircle
    exact Nat.lt_irrefl _ (depth_lt_of_transGen hdistinct hcircle)
  · intro made name rest target horder
    exact targets_before hdistinct horder
  · intro made rest progress horder
    exact deferred_eq_nil hdistinct horder
  · intro final hdrafts
    rw [drafts_eq_run, scheduled_eq_order hdistinct] at hdrafts
    exact deferred_eq_nil hdistinct (List.append_nil _).symm hdrafts

end

/-- Three objects inside each other, each with its discriminator last, so that the reference to the
innermost one escapes to the root. -/
def lateDiscriminators : Members :=
  [("outer", .object
    [("middle", .object
      [("inner", .object [("@type", .string "Inner")]),
       ("@type", .string "Middle")]),
     ("@type", .string "Outer")])]

theorem distinct_names_need_no_forward_references_lateDiscriminators :
    ((planOfMembers "@type" "root" lateDiscriminators).definitions.map fun d =>
        Identifier.className d.name) = ["Inner", "Middle", "Outer", "Root"] ∧
      (schedule (planOfMembers "@type" "root" lateDiscriminators)).remaining = [] := by
  have hnames : ((planOfMembers "@type" "root" lateDiscriminators).definitions.map fun d =>
      Identifier.className d.name) = ["Inner", "Middle", "Outer", "Root"] := by decide
  have hdistinct : ((planOfMembers "@type" "root" lateDiscriminators).definitions.map fun d =>
      Identifier.className d.name).Nodup := by
    rw [hnames]
    decide
  exact ⟨hnames, (distinct_names_need_no_forward_references "@type" "root" lateDiscriminators
    hdistinct).2.1⟩

end SampleTypes.Models
