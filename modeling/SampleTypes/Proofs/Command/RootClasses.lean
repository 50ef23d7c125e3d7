import SampleTypes.Proofs.Command.Stems
import SampleTypes.Proofs.Identifier.Stability
import SampleTypes.Proofs.Models.Building
import SampleTypes.Proofs.Rendering.Classes

/-!
# The class of a root

Commands make a class name of the name of a model, or of a sample, and pass that on as the name of
the root; whoever renders the plan or looks for the model of its root makes a class name of it once
more. All of them mean one class, because class names are stable.

How class names look is settled before: they are plain, start with a capital, and hold a low line
only behind a keyword.

## Main results

* `isClassName_className`: how class names look.
* `hasRootClass_of_synthesize`: the class of a root that goes by a class name.
* `class_names_are_legal_and_stable`: both together.
-/

namespace SampleTypes

open Identifier (className className_className isAlphanumeric keywords)

/-- A capital letter of ASCII, letters and digits of ASCII behind it, and at the end at most one low
line. -/
def Identifier.IsClassName (name : String) : Prop :=
  ∃ first letters tail, name.toList = first :: (letters ++ tail) ∧
    DeclaredModel.isUpper first = true ∧ (∀ c ∈ letters, isAlphanumeric c = true) ∧
    (tail = [] ∨ tail = ['_'])

/-- The root of a plan stands for a class: the model of the root is looked up under its name, the last
class of the module has this name, and so has the model of the root. -/
structure Plan.HasRootClass (plan : Plan) (name : String) : Prop where
  lookedUp : Models.rootName plan = name
  emitted : ∃ m block, ClassModule.Module.ofPlan plan = .ok m ∧ m.classes.getLast? = some block ∧
    block.name = name
  built : ∀ models, Models.ofPlan plan = .ok models →
    ∃ model, Models.named (Models.rootName plan) models = .ok model ∧ model.name = name

/-- **How class names look.** -/
theorem Identifier.isClassName_className (name : String) : IsClassName (className name) := by
  obtain ⟨first, others, hchars, hcapital⟩ := DeclaredModel.head_className name
  rcases Identifier.className_cases name with hletters | ⟨keyword, hkeyword, hname⟩
  · rw [hchars, List.forall_mem_cons] at hletters
    refine ⟨first, others, [], ?_, hcapital, hletters.2, Or.inl rfl⟩
    rw [hchars, List.append_nil]
  · have hplain : ∀ word ∈ keywords, word ≠ "" ∧ ∀ c ∈ word.toList, isAlphanumeric c = true := by
      decide
    obtain ⟨hsome, hall⟩ := hplain keyword hkeyword
    obtain ⟨start, letters, hword⟩ :=
      List.exists_cons_of_ne_nil (mt String.toList_eq_nil_iff.1 hsome)
    have hend : (className name).toList = start :: (letters ++ ['_']) := by
      rw [hname, String.toList_append, hword]
      rfl
    rw [hword, List.forall_mem_cons] at hall
    obtain ⟨rfl, -⟩ := List.cons.inj (hchars.symm.trans hend)
    exact ⟨first, letters, ['_'], hend, hcapital, hall.2, Or.inr rfl⟩

section

variable {discriminator root source text name : String} {plan : Plan} {models : Models}
  {model : Model}

theorem Models.get?_of_named (h : named name models = .ok model) :
    Assoc.get? name models = some model := by
  unfold named at h
  split at h
  · cases h
    assumption
  · cases h

/-- **The root of a synthesized plan** has the class that its name is made into. -/
theorem Plan.hasRootClass_of_synthesize
    (h : synthesize discriminator root source text = .ok plan) :
    plan.HasRootClass (className root) := by
  obtain ⟨document, rfl⟩ := Models.planOfMembers_of_synthesize h
  refine ⟨rfl, ?_, fun models hmodels => ?_⟩
  · obtain ⟨d, hroot, hname, -⟩ := Models.lastNamed?_root discriminator root document
    have hlast := congrArg (Option.map (ClassModule.blockOf (ClassModule.reservedNames
      (planOfMembers discriminator root document).definitions))) hroot
    rw [Plan.rootDefinition?, ← List.getLast?_map] at hlast
    exact ⟨_, _, ClassModule.ofPlan_eq _, hlast, congrArg className hname⟩
  · obtain ⟨_, _, _, _, _, -, -, -, -, -, hnamed⟩ := Models.named_root hmodels
    obtain ⟨_, -, hbuilt⟩ := Models.built_of_ofPlan hmodels
    exact ⟨_, hnamed, (hbuilt.target _ _ (Models.get?_of_named hnamed)).1⟩

end

/-- **Class names are legal and stable.** Whatever text a class name is made of, it is a capital of
ASCII with letters and digits behind it and at most one low line at the end; it is no keyword; and it
is its own class name. So a root that is passed on under a class name has this very class, in the
module that is written and among the live models. -/
theorem class_names_are_legal_and_stable (name : String) :
    Identifier.IsClassName (className name) ∧ className name ∉ keywords ∧
      className (className name) = className name ∧
      ∀ discriminator source text plan,
        synthesize discriminator (className name) source text = .ok plan →
          plan.HasRootClass (className name) := by
  refine ⟨Identifier.isClassName_className name, DeclaredModel.className_notMem_keywords name,
    className_className name, fun discriminator source text plan h => ?_⟩
  have hroot := Plan.hasRootClass_of_synthesize h
  rwa [className_className] at hroot

/-- The plan of a document with one truth value under the class name of `none`, a keyword in camel
case. -/
def nonePlan : Plan :=
  { root := "None_"
    definitions :=
      [{ name := "None_"
         fields := [{ wireName := "a", identifier := "A", kind := .boolean, path := "$.a" }] }] }

theorem class_names_are_legal_and_stable_none :
    synthesize "@type" (className "none") "" "\x7b\"a\": true\x7d" = .ok nonePlan ∧
      nonePlan.HasRootClass "None_" ∧
      ∃ models model, Models.ofPlan nonePlan = .ok models ∧
        Models.named "None_" models = .ok model ∧ model.name = "None_" := by
  have hname : className "none" = "None_" := by decide
  have hplan : synthesize "@type" (className "none") "" "\x7b\"a\": true\x7d" = .ok nonePlan :=
    Loops.toOption_eq_some.1 (by decide +kernel)
  have hroot : nonePlan.HasRootClass "None_" := by
    rw [← hname]
    exact (class_names_are_legal_and_stable "none").2.2.2 _ _ _ _ hplan
  have hsome : (Models.ofPlan nonePlan).toOption.isSome = true := by decide +kernel
  obtain ⟨models, hmodels⟩ := Option.isSome_iff_exists.1 hsome
  have hmodels := Loops.toOption_eq_some.1 hmodels
  obtain ⟨model, hnamed, hclass⟩ := hroot.built models hmodels
  rw [hroot.lookedUp] at hnamed
  exact ⟨hplan, hroot, models, model, hmodels, hnamed, hclass⟩

end SampleTypes
