import SampleTypes.Proofs.Models.Attributes

/-!
# Making the models of a plan

The models are made one after another in the order of the schedule. Because no class comes twice,
the classes that exist when a model is made are exactly those before it, and what was made for one
class is not touched later. So a run is known stage by stage: which definition a stage builds, from
which classes, and whether it has to be completed at the end.

## Main results

* `keys_of_run`: the classes that exist are those that were made, in order.
* `stage_of_run`: one stage of a run that succeeds.
* `stage_of_run_error`: the stage at which a run fails.
-/

namespace SampleTypes.Models

/-- The models after the classes in `names` were made. -/
def run (plan : Plan) (names : List String) : Except Fault Progress :=
  names.foldlM (make (winners plan) (schedule plan).remaining) {}

/-- The class is completed at the end when its definition `d` is built after those in `made`: it
could not be ordered, or something that it refers to does not exist yet. -/
def Late (plan : Plan) (made : List String) (name : String) (d : Definition) : Prop :=
  name ∈ (schedule plan).remaining ∨ ∃ target ∈ references d, target ∉ made

/-- The fault of a reference to a class name that no definition has. -/
def undefinedFault (name : String) : Fault :=
  .unreachable "reference to an undefined type" [("name", .text name)]

theorem drafts_eq_run (plan : Plan) : drafts plan = run plan (scheduled plan) := rfl

section

variable {plan : Plan} {name other : String} {names made rest : List String}
  {progress next : Progress} {fault : Fault}

/-! ## One stage -/

/-- A stage that succeeds builds the definition that counts from what exists. -/
theorem make_eq_ok
    (h : make (winners plan) (schedule plan).remaining progress name = .ok next) :
    ∃ d draft, lastNamed? plan name = some d ∧
      Model.ofDefinition (Assoc.keys progress.models) (Assoc.keys (winners plan)) d = .ok draft ∧
      next.models = Assoc.put name draft progress.models ∧
      (Late plan (Assoc.keys progress.models) name d →
        next.deferred = progress.deferred ++ [name]) ∧
      (¬ Late plan (Assoc.keys progress.models) name d → next.deferred = progress.deferred) := by
  unfold make at h
  rw [get?_winners] at h
  cases hlast : lastNamed? plan name with
  | none =>
    rw [hlast] at h
    cases h
  | some d =>
    rw [hlast] at h
    obtain ⟨draft, hdraft, h⟩ := Loops.bind_eq_ok.1 h
    cases h
    refine ⟨d, draft, rfl, hdraft, rfl, ?_, ?_⟩
    · intro hlate
      refine if_pos ?_
      simpa [Late] using hlate
    · intro hlate
      refine if_neg ?_
      simpa [Late] using hlate

/-- A stage fails because no definition has the class name or because the model is refused. -/
theorem make_eq_error :
    make (winners plan) (schedule plan).remaining progress name = .error fault ↔
      (lastNamed? plan name = none ∧ fault = undefinedFault name) ∨
        ∃ d, lastNamed? plan name = some d ∧
          Model.ofDefinition (Assoc.keys progress.models) (Assoc.keys (winners plan)) d =
            .error fault := by
  unfold make
  rw [get?_winners]
  cases hlast : lastNamed? plan name with
  | none =>
    constructor
    · intro h
      cases h
      exact Or.inl ⟨rfl, rfl⟩
    · rintro (⟨-, rfl⟩ | ⟨d, h, -⟩)
      · rfl
      · cases h
  | some d =>
    constructor
    · intro h
      rcases Loops.bind_eq_error.1 h with h | ⟨draft, -, h⟩
      · exact Or.inr ⟨d, rfl, h⟩
      · cases h
    · rintro (⟨h, -⟩ | ⟨d', h, hfault⟩)
      · cases h
      · cases h
        exact Loops.bind_eq_error.2 (Or.inl hfault)

/-! ## Runs -/

/-- Later stages leave a class alone. -/
theorem frame_of_run
    (h : names.foldlM (make (winners plan) (schedule plan).remaining) progress = .ok next)
    (hother : other ∉ names) :
    Assoc.get? other next.models = Assoc.get? other progress.models ∧
      (other ∈ next.deferred ↔ other ∈ progress.deferred) := by
  induction names generalizing progress with
  | nil =>
    cases h
    exact ⟨rfl, Iff.rfl⟩
  | cons name rest ih =>
    obtain ⟨middle, hmiddle, hrest⟩ := Loops.foldlM_cons_eq_ok.1 h
    rw [List.mem_cons, not_or] at hother
    obtain ⟨hget, hdeferred⟩ := ih hrest hother.2
    obtain ⟨d, draft, -, -, hmodels, hlate, hearly⟩ := make_eq_ok hmiddle
    constructor
    · rw [hget, hmodels, Assoc.get?_put, if_neg (Ne.symm hother.1)]
    · rw [hdeferred]
      by_cases hcase : Late plan (Assoc.keys progress.models) name d
      · rw [hlate hcase]
        simp [hother.1]
      · rw [hearly hcase]

/-- **The classes that exist are those that were made**, in order. -/
theorem keys_of_run (h : run plan names = .ok progress) (hnodup : names.Nodup) :
    Assoc.keys progress.models = names := by
  induction names using List.reverseRecOn generalizing progress with
  | nil =>
    cases h
    rfl
  | append_singleton names name ih =>
    obtain ⟨middle, hmiddle, hlast⟩ := Loops.foldlM_append_eq_ok.1 h
    obtain ⟨last, hmake, hnil⟩ := Loops.foldlM_cons_eq_ok.1 hlast
    cases hnil
    obtain ⟨d, draft, -, -, hmodels, -, -⟩ := make_eq_ok hmake
    rw [List.nodup_append] at hnodup
    have hkeys := ih hmiddle hnodup.1
    have hnew : name ∉ Assoc.keys middle.models := by
      rw [hkeys]
      intro hmem
      exact hnodup.2.2 name hmem name (by simp) rfl
    rw [hmodels, Assoc.put_of_notMem hnew, Assoc.keys_append, hkeys]
    rfl

/-- **One stage of a run that succeeds.** The definition that counts is built when exactly the
classes before it exist, its model stays as it was built, and it is deferred exactly if it is
late. -/
theorem stage_of_run (h : run plan (made ++ name :: rest) = .ok progress)
    (hnodup : (made ++ name :: rest).Nodup) :
    ∃ before d draft, run plan made = .ok before ∧ Assoc.keys before.models = made ∧
      lastNamed? plan name = some d ∧
      Model.ofDefinition made (Assoc.keys (winners plan)) d = .ok draft ∧
      Assoc.get? name progress.models = some draft ∧
      (name ∈ progress.deferred ↔ Late plan made name d) := by
  obtain ⟨before, hbefore, hstage⟩ := Loops.foldlM_append_eq_ok.1 h
  obtain ⟨middle, hmake, hrest⟩ := Loops.foldlM_cons_eq_ok.1 hstage
  obtain ⟨d, draft, hlast, hdraft, hmodels, hlate, hearly⟩ := make_eq_ok hmake
  rw [List.nodup_append, List.nodup_cons] at hnodup
  obtain ⟨hmade, ⟨hnew, -⟩, hapart⟩ := hnodup
  have hkeys := keys_of_run hbefore hmade
  rw [hkeys] at hdraft hlate hearly
  obtain ⟨hget, hdeferred⟩ := frame_of_run hrest hnew
  have hnot : name ∉ before.deferred := by
    have hname : name ∉ made := fun hmem => hapart name hmem name (by simp) rfl
    rw [(frame_of_run hbefore hname).2]
    simp
  refine ⟨before, d, draft, hbefore, hkeys, hlast, hdraft, ?_, ?_⟩
  · rw [hget, hmodels, Assoc.get?_put, if_pos rfl]
  · rw [hdeferred]
    constructor
    · intro hmem
      refine Classical.byContradiction fun hcase => ?_
      rw [hearly hcase] at hmem
      exact hnot hmem
    · intro hcase
      rw [hlate hcase]
      simp

/-- **The stage at which a run fails.** -/
theorem stage_of_run_error (h : run plan names = .error fault) :
    ∃ made name rest before, names = made ++ name :: rest ∧ run plan made = .ok before ∧
      ((lastNamed? plan name = none ∧ fault = undefinedFault name) ∨
        ∃ d, lastNamed? plan name = some d ∧
          Model.ofDefinition (Assoc.keys before.models) (Assoc.keys (winners plan)) d =
            .error fault) := by
  obtain ⟨made, name, rest, before, hsplit, hbefore, hmake⟩ := Loops.exists_of_foldlM_error h
  exact ⟨made, name, rest, before, hsplit, hbefore, make_eq_error.1 hmake⟩

end

end SampleTypes.Models
