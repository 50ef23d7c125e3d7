import SampleTypes.Proofs.Models.Making
import SampleTypes.Proofs.Ownership.References

/-!
# Building the models of any plan

A plan need not come from a document: definitions may repeat a class name, refer to each other in
circles, and refer to class names that no definition has. The last case is the only one that the
making of models does not survive, given that no model is refused. Such a class name waits for
nothing, so the schedule puts it in the order, behind smaller names only, and the run stops at the
least one.

In all other cases every stage succeeds. A class that is made before one of its targets is
deferred, and since all targets are made in the end, completing it leaves no forward reference.

## Main results

* `undefined_iff`: the undefined class names are those that are scheduled without a definition.
* `le_of_first_undefined`: the run meets the least of them first.
* `built_of_ofPlan`: what models that could be built are like.
* `ofPlan_outcome`: what becomes of any plan, and of the plan of a document.
-/

namespace SampleTypes.Models

/-- A class name that a definition that counts refers to, although no definition has it. -/
def Undefined (plan : Plan) (target : String) : Prop :=
  (∃ name d, lastNamed? plan name = some d ∧ ∃ field ∈ d.fields, field.kind = .objectReference ∧
      Identifier.className field.reference = target) ∧
    ∀ d ∈ plan.definitions, Identifier.className d.name ≠ target

/-- A model is refused, whenever the run comes to it, for no other reason than the refused name of
an attribute. -/
def RefusedForNameOnly (plan : Plan) : Prop :=
  ∀ made name rest before d fault, scheduled plan = made ++ name :: rest →
    run plan made = .ok before → lastNamed? plan name = some d →
    Model.ofDefinition (Assoc.keys before.models) (Assoc.keys (winners plan)) d = .error fault →
    fault = .refusedAttribute

/-- No definition that counts yields an attribute with the refused name. -/
def WithoutRefusedName (plan : Plan) : Prop :=
  ∀ name d, lastNamed? plan name = some d →
    Model.refusedName ∉ Model.attributeNames (Assoc.keys (winners plan)) d

/-- What the models of a plan are like. `final` is the state when the last one was made. -/
structure Built (plan : Plan) (final : Progress) (models : Models) : Prop where
  /-- There is one model for each class name. -/
  nodup : (Assoc.keys models).Nodup
  /-- The class names are those of the definitions. -/
  mem_keys : ∀ name, name ∈ Assoc.keys models ↔
    ∃ d ∈ plan.definitions, Identifier.className d.name = name
  /-- Each model is built from the last definition of its class name when exactly the classes before
  it exist. It is deferred if it could not be ordered or if one of its targets was missing, and then
  completed when all of them exist. -/
  stage : ∀ made name rest, scheduled plan = made ++ name :: rest →
    ∃ before d draft, run plan made = .ok before ∧ Assoc.keys before.models = made ∧
      lastNamed? plan name = some d ∧
      Model.ofDefinition made (Assoc.keys (winners plan)) d = .ok draft ∧
      (name ∈ final.deferred ↔
        name ∈ (schedule plan).remaining ∨ ∃ target ∈ references d, target ∉ made) ∧
      (∀ target ∈ references d, target ∈ Assoc.keys models) ∧
      Assoc.get? name models =
        some (if name ∈ final.deferred then draft.rebuild (Assoc.keys models) else draft)
  /-- Optional types name classes that have models, and none is left to wait. -/
  target : ∀ name model, Assoc.get? name models = some model → model.name = name ∧
    ∀ field ∈ model.fields, ∀ target, field.type.target? = some target →
      target ∈ Assoc.keys models ∧ field.type ≠ .forward target

section

variable {plan : Plan} {name target : String} {made rest : List String}

/-! ## Undefined class names -/

/-- **The undefined class names are those that are scheduled without a definition.** -/
theorem undefined_iff :
    Undefined plan target ↔ target ∈ scheduled plan ∧ lastNamed? plan target = none := by
  have hnone : lastNamed? plan target = none ↔
      ∀ d ∈ plan.definitions, Identifier.className d.name ≠ target := by
    rw [← Option.not_isSome_iff_eq_none, isSome_lastNamed?]
    simp
  rw [hnone, mem_scheduled]
  constructor
  · rintro ⟨⟨own, d, hlast, hfield⟩, habsent⟩
    exact ⟨Or.inr ⟨own, d, hlast, mem_references.2 hfield⟩, habsent⟩
  · rintro ⟨⟨d, hd, hname⟩ | ⟨own, d, hlast, hreference⟩, habsent⟩
    · exact absurd hname (habsent d hd)
    · exact ⟨⟨own, d, hlast, mem_references.1 hreference⟩, habsent⟩

/-- An undefined class name waits for nothing. -/
theorem dependencies_of_undefined (h : Undefined plan target) :
    Schedule.dependencies (graph (winners plan)) target = [] := by
  rw [dependencies_graph, (undefined_iff.1 h).2]

/-- An undefined class name is ordered. -/
theorem mem_order_of_undefined (h : Undefined plan target) :
    target ∈ (schedule plan).order := by
  refine Schedule.mem_order_of_free ?_ (dependencies_of_undefined h)
  exact (Schedule.order_append_remaining_perm _).mem_iff.1 (undefined_iff.1 h).1

/-- **The run meets the least undefined class name first.** -/
theorem le_of_first_undefined (hsplit : scheduled plan = made ++ name :: rest)
    (hmade : ∀ earlier ∈ made, lastNamed? plan earlier ≠ none) (h : Undefined plan target) :
    name ≤ target := by
  by_cases heq : target = name
  · subst heq
    exact String.le_refl target
  obtain ⟨before, after, horder⟩ := List.append_of_mem (mem_order_of_undefined h)
  have hnot : target ∉ made := fun hmem => hmade target hmem (undefined_iff.1 h).2
  -- The target stands behind `name` in the schedule, so it does in the order.
  have hname : name ∈ before := by
    rw [scheduled, horder, List.append_assoc] at hsplit
    rcases List.append_eq_append_iff.1 hsplit with ⟨between, hbetween, hback⟩ |
        ⟨between, hbetween, hback⟩
    · cases between with
      | nil => exact absurd (List.cons.inj hback).1 heq
      | cons first others =>
        refine absurd ?_ hnot
        rw [(List.cons.inj hback).1, hbetween]
        simp
    · cases between with
      | nil => exact absurd (List.cons.inj hback).1.symm heq
      | cons first others =>
        rw [(List.cons.inj hback).1, hbetween]
        simp
  have hlt := Schedule.lt_of_free horder (dependencies_of_undefined h) name hname
  exact String.not_lt.1 fun hgt => String.lt_irrefl _ (String.lt_trans hlt hgt)

/-! ## Runs of a plan whose models are not refused -/

/-- The stages before any undefined class name succeed. -/
theorem exists_run (hassume : RefusedForNameOnly plan) (hnames : WithoutRefusedName plan)
    (hsplit : scheduled plan = made ++ rest)
    (hmade : ∀ earlier ∈ made, lastNamed? plan earlier ≠ none) :
    ∃ progress, run plan made = .ok progress := by
  cases hrun : run plan made with
  | ok progress => exact ⟨progress, rfl⟩
  | error fault =>
    obtain ⟨front, name, back, before, hfront, hbefore, hfault⟩ := stage_of_run_error hrun
    rcases hfault with ⟨hnone, -⟩ | ⟨d, hlast, hrefused⟩
    · exact absurd hnone (hmade name (by simp [hfront]))
    · have hsplit' : scheduled plan = front ++ name :: (back ++ rest) := by
        rw [hsplit, hfront]
        simp
      have hname := hassume front name _ before d fault hsplit' hbefore hlast hrefused
      exact absurd ((Model.unreachable_ne_of_ofDefinition hrefused).2 hname)
        (hnames name d hlast)

/-- A plan with undefined class names fails at the least one. -/
theorem ofPlan_of_undefined (hassume : RefusedForNameOnly plan)
    (hnames : WithoutRefusedName plan) (h : Undefined plan target) :
    ∃ least, Undefined plan least ∧ (∀ other, Undefined plan other → least ≤ other) ∧
      ofPlan plan = .error (undefinedFault least) := by
  obtain ⟨hscheduled, hnone⟩ := undefined_iff.1 h
  have hsome : ((scheduled plan).find? fun name => (lastNamed? plan name).isNone).isSome := by
    rw [List.find?_isSome]
    exact ⟨target, hscheduled, by simp [hnone]⟩
  obtain ⟨least, hleast⟩ := Option.isSome_iff_exists.1 hsome
  obtain ⟨hundefined, made, rest, hsplit, hmade⟩ := List.find?_eq_some_iff_append.1 hleast
  have hlast : lastNamed? plan least = none := by simpa using hundefined
  have hdefined : ∀ earlier ∈ made, lastNamed? plan earlier ≠ none := by
    intro earlier hmem heq
    simpa [heq] using hmade earlier hmem
  obtain ⟨before, hbefore⟩ := exists_run hassume hnames hsplit hdefined
  have hdrafts : drafts plan = .error (undefinedFault least) := by
    rw [drafts_eq_run, hsplit]
    exact Loops.foldlM_append_eq_error hbefore (make_eq_error.2 (Or.inl ⟨hlast, rfl⟩))
  refine ⟨least, undefined_iff.2 ⟨by simp [hsplit], hlast⟩, ?_, ?_⟩
  · intro other hother
    exact le_of_first_undefined hsplit hdefined hother
  · rw [ofPlan, hdrafts]
    rfl

/-- A plan without undefined class names has models. -/
theorem exists_ofPlan (hassume : RefusedForNameOnly plan) (hnames : WithoutRefusedName plan)
    (h : ∀ target, ¬ Undefined plan target) :
    ∃ final, drafts plan = .ok final ∧ ofPlan plan = .ok (complete final) := by
  have hdefined : ∀ name ∈ scheduled plan, lastNamed? plan name ≠ none :=
    fun name hmem hnone => h name (undefined_iff.2 ⟨hmem, hnone⟩)
  obtain ⟨final, hfinal⟩ := exists_run hassume hnames (List.append_nil _).symm hdefined
  refine ⟨final, hfinal, ?_⟩
  rw [ofPlan, drafts_eq_run, hfinal]
  rfl

/-- A plan has models if no definition that counts is refused and every reference is to a class of
the plan. -/
theorem exists_ofPlan_of_accepted
    (haccepted : ∀ name d, lastNamed? plan name = some d → ∀ made,
      ∃ m, Model.ofDefinition made (Assoc.keys (winners plan)) d = .ok m)
    (hdefined : ∀ d ∈ plan.definitions, ∀ target ∈ references d,
      ∃ other ∈ plan.definitions, Identifier.className other.name = target) :
    ∃ models, ofPlan plan = .ok models := by
  have hassume : RefusedForNameOnly plan := by
    intro made name rest before d fault _ _ hlast hfault
    obtain ⟨m, hm⟩ := haccepted name d hlast (Assoc.keys before.models)
    rw [hm] at hfault
    cases hfault
  have hnames : WithoutRefusedName plan := by
    intro name d hlast
    obtain ⟨m, hm⟩ := haccepted name d hlast []
    exact (Model.accepted_of_ofDefinition hm).2.1
  have hnone : ∀ target, ¬ Undefined plan target := by
    rintro target ⟨⟨name, d, hlast, hfield⟩, habsent⟩
    obtain ⟨other, hother, hname⟩ :=
      hdefined d (mem_of_lastNamed? hlast).1 target (mem_references.2 hfield)
    exact habsent other hother hname
  obtain ⟨final, -, hmodels⟩ := exists_ofPlan hassume hnames hnone
  exact ⟨_, hmodels⟩

/-- Completing does not fail, so building fails where the run does. -/
theorem ofPlan_eq_error {fault : Fault} (h : ofPlan plan = .error fault) :
    run plan (scheduled plan) = .error fault := by
  rw [← drafts_eq_run]
  unfold ofPlan at h
  cases hrun : drafts plan with
  | ok final =>
    rw [hrun] at h
    cases h
  | error other =>
    rw [hrun] at h
    cases h
    rfl

/-- No fault but an undefined class name is unreachable. -/
theorem undefined_of_unreachable {reason : String} {details : List (String × Text.Literal)}
    (h : ofPlan plan = .error (.unreachable reason details)) : ∃ target, Undefined plan target := by
  obtain ⟨made, name, rest, before, hsplit, -, hfault⟩ := stage_of_run_error (ofPlan_eq_error h)
  rcases hfault with ⟨hnone, -⟩ | ⟨d, -, hrefused⟩
  · exact ⟨name, undefined_iff.2 ⟨by simp [hsplit], hnone⟩⟩
  · exact absurd rfl ((Model.unreachable_ne_of_ofDefinition hrefused).1 reason details)

/-! ## Models that could be built -/

theorem ofPlan_eq_ok {models : Models} (h : ofPlan plan = .ok models) :
    ∃ final, drafts plan = .ok final ∧ models = complete final := by
  unfold ofPlan at h
  cases hrun : drafts plan with
  | ok final =>
    rw [hrun] at h
    cases h
    exact ⟨final, rfl, rfl⟩
  | error fault =>
    rw [hrun] at h
    cases h

theorem keys_complete (progress : Progress) :
    Assoc.keys (complete progress) = Assoc.keys progress.models := by
  unfold complete Assoc.keys
  rw [List.map_map]
  rfl

/-- The classes that exist in the end are the scheduled ones. -/
theorem keys_of_drafts {final : Progress} (h : drafts plan = .ok final) :
    Assoc.keys (complete final) = scheduled plan := by
  rw [drafts_eq_run] at h
  rw [keys_complete, keys_of_run h (nodup_scheduled plan)]

theorem get?_complete (name : String) (progress : Progress) :
    Assoc.get? name (complete progress) =
      (Assoc.get? name progress.models).map fun model =>
        if name ∈ progress.deferred then model.rebuild (Assoc.keys progress.models)
        else model :=
  Assoc.get?_map (fun name model =>
    if name ∈ progress.deferred then Model.rebuild (Assoc.keys progress.models) model
    else model) name progress.models

/-- Completing keeps the class that a type names. -/
theorem target?_resolveType (made : List String) (type : FieldType) :
    (Model.resolveType made type).target? = type.target? := by
  cases type with
  | forward className =>
    by_cases h : className ∈ made <;> simp [Model.resolveType, h, FieldType.target?]
  | _ => rfl

/-- A type that is completed does not wait for a class that is made. -/
theorem resolveType_ne_forward {made : List String} {target : String} (h : target ∈ made)
    (type : FieldType) : Model.resolveType made type ≠ .forward target := by
  intro hwaits
  cases type with
  | forward className =>
    by_cases hmade : className ∈ made
    · simp [Model.resolveType, hmade] at hwaits
    · simp only [Model.resolveType, if_neg hmade, FieldType.forward.injEq] at hwaits
      exact hmade (hwaits ▸ h)
  | _ => cases hwaits

/-- Each class has the draft of its stage, completed if the stage put it off. -/
private theorem stage_of_drafts {final : Progress} (hfinal : drafts plan = .ok final)
    (hsplit : scheduled plan = made ++ name :: rest) :
    ∃ before d draft, run plan made = .ok before ∧ Assoc.keys before.models = made ∧
      lastNamed? plan name = some d ∧
      Model.ofDefinition made (Assoc.keys (winners plan)) d = .ok draft ∧
      (name ∈ final.deferred ↔ Late plan made name d) ∧
      (∀ target ∈ references d, target ∈ Assoc.keys (complete final)) ∧
      Assoc.get? name (complete final) =
        some (if name ∈ final.deferred then draft.rebuild (Assoc.keys (complete final))
          else draft) := by
  have hkeys := keys_of_drafts hfinal
  have hnodup := nodup_scheduled plan
  rw [drafts_eq_run, hsplit] at hfinal
  rw [hsplit] at hnodup
  obtain ⟨before, d, draft, hbefore, hmade, hlast, hdraft, hget, hdeferred⟩ :=
    stage_of_run hfinal hnodup
  refine ⟨before, d, draft, hbefore, hmade, hlast, hdraft, hdeferred, ?_, ?_⟩
  · intro target htarget
    rw [hkeys, mem_scheduled]
    exact Or.inr ⟨name, d, hlast, htarget⟩
  · rw [get?_complete, hget, keys_complete]
    rfl

/-- A completed model waits for none of the classes that exist. -/
private theorem target_rebuilt {d : Definition} {draft : Model} {known : List String}
    (hdraft : Model.ofDefinition made (Assoc.keys (winners plan)) d = .ok draft)
    (hknown : ∀ target ∈ references d, target ∈ known) {field : ModelField}
    (hfield : field ∈ (draft.rebuild known).fields) (htarget : field.type.target? = some target) :
    target ∈ known ∧ field.type ≠ .forward target := by
  obtain ⟨source, hsource, rfl⟩ := List.mem_map.1 hfield
  rw [target?_resolveType] at htarget
  have hmem := hknown target (Model.target_of_ofDefinition hdraft hsource htarget).1
  exact ⟨hmem, resolveType_ne_forward hmem source.type⟩

/-- A draft whose targets were all made before it waits for none of them. -/
private theorem target_punctual {d : Definition} {draft : Model} {known : List String}
    (hdraft : Model.ofDefinition made (Assoc.keys (winners plan)) d = .ok draft)
    (hknown : ∀ target ∈ references d, target ∈ known) (hlate : ¬ Late plan made name d)
    {field : ModelField} (hfield : field ∈ draft.fields)
    (htarget : field.type.target? = some target) :
    target ∈ known ∧ field.type ≠ .forward target := by
  obtain ⟨hreference, hwaits, -⟩ := Model.target_of_ofDefinition hdraft hfield htarget
  refine ⟨hknown target hreference, fun hforward => hlate ?_⟩
  exact Or.inr ⟨target, hreference, hwaits hforward⟩

/-- **What models that could be built are like.** -/
theorem built_of_ofPlan {models : Models} (h : ofPlan plan = .ok models) :
    ∃ final, drafts plan = .ok final ∧ Built plan final models := by
  obtain ⟨final, hfinal, rfl⟩ := ofPlan_eq_ok h
  have hkeys := keys_of_drafts hfinal
  refine ⟨final, hfinal, ?_, ?_, fun made name rest => stage_of_drafts hfinal, ?_⟩
  · rw [hkeys]
    exact nodup_scheduled plan
  · intro name
    rw [hkeys]
    constructor
    · intro hmem
      obtain ⟨made, rest, hsplit⟩ := List.append_of_mem hmem
      obtain ⟨before, d, draft, -, -, hlast, -⟩ := stage_of_drafts hfinal hsplit
      exact ⟨d, mem_of_lastNamed? hlast⟩
    · intro hdefined
      exact mem_scheduled.2 (Or.inl hdefined)
  · intro name model hmodel
    have hmem : name ∈ scheduled plan := by
      rw [← hkeys]
      exact Assoc.mem_keys_of_get? hmodel
    obtain ⟨made, rest, hsplit⟩ := List.append_of_mem hmem
    obtain ⟨before, d, draft, -, -, hlast, hdraft, hdeferred, hall, hget⟩ :=
      stage_of_drafts hfinal hsplit
    have hclass : draft.name = name := by
      rw [(Model.settled_of_ofDefinition hdraft).1]
      exact (mem_of_lastNamed? hlast).2
    rw [hget] at hmodel
    cases hmodel
    by_cases hlate : name ∈ final.deferred
    · rw [if_pos hlate]
      exact ⟨hclass, fun field hfield target => target_rebuilt hdraft hall hfield⟩
    · rw [if_neg hlate]
      exact ⟨hclass, fun field hfield target =>
        target_punctual hdraft hall (fun h => hlate (hdeferred.2 h)) hfield⟩

/-- A model is made from the last definition of its class name, and completed or left alone. -/
theorem model_of_stage {models : Models} (h : ofPlan plan = .ok models)
    (hsplit : scheduled plan = made ++ name :: rest) :
    ∃ d draft model, lastNamed? plan name = some d ∧
      Model.ofDefinition made (Assoc.keys (winners plan)) d = .ok draft ∧
      Assoc.get? name models = some model ∧
      (model = draft ∨ model = draft.rebuild (Assoc.keys models)) := by
  obtain ⟨final, -, hbuilt⟩ := built_of_ofPlan h
  obtain ⟨-, d, draft, -, -, hlast, hdraft, -, -, hget⟩ := hbuilt.stage made name rest hsplit
  refine ⟨d, draft, _, hlast, hdraft, hget, ?_⟩
  by_cases hdeferred : name ∈ final.deferred
  · exact Or.inr (if_pos hdeferred)
  · exact Or.inl (if_neg hdeferred)

/-- Every model has its stage. -/
theorem exists_stage {models : Models} {model : Model} (h : ofPlan plan = .ok models)
    (hmodel : Assoc.get? name models = some model) :
    ∃ made rest d draft, scheduled plan = made ++ name :: rest ∧ lastNamed? plan name = some d ∧
      Model.ofDefinition made (Assoc.keys (winners plan)) d = .ok draft ∧
      (model = draft ∨ model = draft.rebuild (Assoc.keys models)) := by
  obtain ⟨final, -, hbuilt⟩ := built_of_ofPlan h
  have hname := (hbuilt.mem_keys name).1 (Assoc.mem_keys_of_get? hmodel)
  obtain ⟨made, rest, hsplit⟩ := List.append_of_mem (mem_scheduled.2 (Or.inl hname))
  obtain ⟨d, draft, model', hlast, hdraft, hmodel', hcompleted⟩ := model_of_stage h hsplit
  rw [hmodel] at hmodel'
  cases hmodel'
  exact ⟨made, rest, d, draft, hsplit, hlast, hdraft, hcompleted⟩

end

/-! ## Plans of documents -/

section

open Json (Members)

variable {discriminator root : String} {document : Members}

/-- A plan that was synthesized is the plan of a document. -/
theorem planOfMembers_of_synthesize {discriminator root source text : String} {plan : Plan}
    (h : synthesize discriminator root source text = .ok plan) :
    ∃ document, plan = planOfMembers discriminator root document := by
  obtain ⟨document, -, h⟩ := Loops.bind_eq_ok.1 h
  unfold planOfDocument at h
  split at h
  · rename_i members
    cases h
    exact ⟨members, rfl⟩
  · cases h

/-- What a definition of a document refers to is the class name of a definition. -/
theorem exists_definition_of_mem_references {d : Definition} {target : String}
    (hd : d ∈ (planOfMembers discriminator root document).definitions)
    (htarget : target ∈ references d) :
    ∃ other ∈ (planOfMembers discriminator root document).definitions,
      Identifier.className other.name = target := by
  obtain ⟨field, hfield, hkind, rfl⟩ := mem_references.1 htarget
  obtain ⟨other, hother, hname⟩ := exists_definition_of_reference hd hfield hkind
  exact ⟨other, hother, by rw [hname]⟩

/-- A document refers to types of its own only. -/
theorem not_undefined_of_document (target : String) :
    ¬ Undefined (planOfMembers discriminator root document) target := by
  rintro ⟨⟨name, d, hlast, hfield⟩, habsent⟩
  obtain ⟨other, hother, hname⟩ := exists_definition_of_mem_references
    (mem_of_lastNamed? hlast).1 (mem_references.2 hfield)
  exact habsent other hother hname

/-- The root stands last, so its definition counts whatever else has its class name. -/
theorem lastNamed?_root (discriminator root : String) (document : Members) :
    ∃ d, (planOfMembers discriminator root document).rootDefinition? = some d ∧ d.name = root ∧
      lastNamed? (planOfMembers discriminator root document)
        (rootName (planOfMembers discriminator root document)) = some d := by
  refine ⟨{ name := root, fields := ownedFields discriminator "$" document none }, ?_, rfl, ?_⟩
  · rw [Plan.rootDefinition?, definitions_eq_owned, List.getLast?_append]
    rfl
  · rw [lastNamed?, rootName, root_planOfMembers, definitions_eq_owned, List.filter_append,
      List.getLast?_append]
    simp

/-- The model of the root is built from the definition of the root. -/
theorem named_root {models : Models}
    (h : ofPlan (planOfMembers discriminator root document) = .ok models) :
    ∃ d made rest draft final,
      (planOfMembers discriminator root document).rootDefinition? = some d ∧ d.name = root ∧
      scheduled (planOfMembers discriminator root document) =
        made ++ rootName (planOfMembers discriminator root document) :: rest ∧
      Model.ofDefinition made
        (Assoc.keys (winners (planOfMembers discriminator root document))) d = .ok draft ∧
      drafts (planOfMembers discriminator root document) = .ok final ∧
      named (rootName (planOfMembers discriminator root document)) models =
        .ok (if rootName (planOfMembers discriminator root document) ∈ final.deferred then
          draft.rebuild (Assoc.keys models) else draft) := by
  obtain ⟨d, hroot, hname, hlast⟩ := lastNamed?_root discriminator root document
  obtain ⟨final, hfinal, hbuilt⟩ := built_of_ofPlan h
  have hscheduled := mem_scheduled.2 (Or.inl ⟨d, mem_of_lastNamed? hlast⟩)
  obtain ⟨made, rest, hsplit⟩ := List.append_of_mem hscheduled
  obtain ⟨before, d', draft, -, -, hlast', hdraft, -, -, hget⟩ := hbuilt.stage made _ rest hsplit
  obtain rfl := Option.some.inj (hlast.symm.trans hlast')
  refine ⟨d, made, rest, draft, final, hroot, hname, hsplit, hdraft, hfinal, ?_⟩
  rw [named, hget]

end

/-! ## Any plan -/

theorem message_undefinedFault (name : String) :
    (undefinedFault name).message =
      "reference to an undefined type (name=" ++ (Text.Literal.text name).written ++ ")" := by
  have hdetail : Fault.detailText [("name", .text name)] =
      "name=" ++ (Text.Literal.text name).written := by
    unfold Fault.detailText
    rw [List.mergeSort_singleton]
    simp only [List.map_cons, List.map_nil, String.intercalate_singleton]
    rw [show "name" ++ "=" = "name=" from by decide]
  have hreason : "reference to an undefined type" ≠ "" := by decide
  have hopen : "reference to an undefined type" ++ " (" ++ "name=" =
      "reference to an undefined type (name=" := by decide
  unfold undefinedFault Fault.message
  simp only [hdetail, if_neg hreason, List.isEmpty_cons, Bool.false_eq_true, if_false]
  rw [← String.append_assoc, hopen]

/-- **What becomes of any plan**, if models are refused for the refused name only and no definition
that counts yields it. Building fails as unreachable exactly if a definition that counts refers to a
class name that no definition has, and then names the least such class name. In all other cases
there is one model for each class name, built and completed as `Built` says. The plan of a document
has no such class name, and the model under the name of its root is built from the definition of the
root. -/
theorem ofPlan_outcome {plan : Plan} (hassume : RefusedForNameOnly plan)
    (hnames : WithoutRefusedName plan) :
    ((∃ reason details, ofPlan plan = .error (.unreachable reason details)) ↔
        ∃ target, Undefined plan target) ∧
      ((∃ target, Undefined plan target) →
        ∃ least, Undefined plan least ∧ (∀ other, Undefined plan other → least ≤ other) ∧
          ofPlan plan = .error (undefinedFault least) ∧
          (undefinedFault least).message =
            "reference to an undefined type (name=" ++ (Text.Literal.text least).written ++ ")") ∧
      ((∀ target, ¬ Undefined plan target) →
        ∃ final models, drafts plan = .ok final ∧ ofPlan plan = .ok models ∧
          Built plan final models) ∧
      ∀ discriminator root source text synthesized,
        synthesize discriminator root source text = .ok synthesized →
          (∀ target, ¬ Undefined synthesized target) ∧
          ∀ models, ofPlan synthesized = .ok models →
            ∃ d made rest draft final, synthesized.rootDefinition? = some d ∧ d.name = root ∧
              scheduled synthesized = made ++ rootName synthesized :: rest ∧
              Model.ofDefinition made (Assoc.keys (winners synthesized)) d = .ok draft ∧
              drafts synthesized = .ok final ∧
              named (rootName synthesized) models =
                .ok (if rootName synthesized ∈ final.deferred then
                  draft.rebuild (Assoc.keys models) else draft) := by
  refine ⟨⟨?_, ?_⟩, ?_, ?_, ?_⟩
  · rintro ⟨reason, details, h⟩
    exact undefined_of_unreachable h
  · rintro ⟨target, h⟩
    obtain ⟨least, -, -, hfails⟩ := ofPlan_of_undefined hassume hnames h
    exact ⟨_, _, hfails⟩
  · rintro ⟨target, h⟩
    obtain ⟨least, hundefined, hleast, hfails⟩ := ofPlan_of_undefined hassume hnames h
    exact ⟨least, hundefined, hleast, hfails, message_undefinedFault least⟩
  · intro h
    obtain ⟨final, hdrafts, hmodels⟩ := exists_ofPlan hassume hnames h
    obtain ⟨final', hdrafts', hbuilt⟩ := built_of_ofPlan hmodels
    exact ⟨final', _, hdrafts', hmodels, hbuilt⟩
  · intro discriminator root source text synthesized h
    obtain ⟨document, rfl⟩ := planOfMembers_of_synthesize h
    exact ⟨not_undefined_of_document, fun models => named_root⟩

/-- A plan with two classes that refer to each other, one of them defined twice. -/
def circle : Plan :=
  let next (target : String) : Field :=
    { wireName := "next", identifier := "Next", kind := .objectReference, reference := target }
  { root := "A"
    definitions :=
      [{ name := "B" }, { name := "b", fields := [next "a"] },
        { name := "A", fields := [next "B"] }] }

/-- The models of the circle are built; one of them is completed at the end. -/
theorem ofPlan_outcome_circle :
    RefusedForNameOnly circle ∧ WithoutRefusedName circle ∧
      (∀ target, ¬ Undefined circle target) ∧
      ∃ final models, drafts circle = .ok final ∧ ofPlan circle = .ok models ∧
        Built circle final models := by
  have hkeys : Assoc.keys (winners circle) = ["B", "A"] := by decide
  have hplain : ∀ d ∈ circle.definitions,
      (∀ target ∈ references d, Meaning.within (Identifier.className d.name)
        (Model.attributeNames ["B", "A"] d) target = .awaited) ∧
      Model.refusedName ∉ Model.attributeNames ["B", "A"] d ∧
      (∀ name ∈ Model.attributeNames ["B", "A"] d, name ∉ Model.protectedNames) ∧
      Model.settingsName ∉ Model.attributeNames ["B", "A"] d := by decide
  have hdefined : ∀ d ∈ circle.definitions, ∀ target ∈ references d,
      ∃ other ∈ circle.definitions, Identifier.className other.name = target := by decide
  have hassume : RefusedForNameOnly circle := by
    intro made name rest before d fault _ _ hlast hfault
    obtain ⟨hawaited, hrefused, hprotected, hsettings⟩ := hplain d (mem_of_lastNamed? hlast).1
    rw [hkeys, Model.ofDefinition_of_awaited (fun target htarget => Or.inr (hawaited target htarget))
      hrefused hprotected hsettings] at hfault
    cases hfault
  have hnames : WithoutRefusedName circle := by
    intro name d hlast
    rw [hkeys]
    exact (hplain d (mem_of_lastNamed? hlast).1).2.1
  have hnone : ∀ target, ¬ Undefined circle target := by
    rintro target ⟨⟨name, d, hlast, hfield⟩, habsent⟩
    obtain ⟨other, hother, hname⟩ :=
      hdefined d (mem_of_lastNamed? hlast).1 target (mem_references.2 hfield)
    exact habsent other hother hname
  exact ⟨hassume, hnames, hnone, (ofPlan_outcome hassume hnames).2.2.1 hnone⟩

end SampleTypes.Models
