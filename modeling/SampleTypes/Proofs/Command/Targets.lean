import SampleTypes.Command.Run
import SampleTypes.Proofs.Identifier.Words
import SampleTypes.Proofs.Text.Splitting

/-!
# The files of declared models

The name of a generated file is made from the class name of a model, so it is one part of a path
and means nothing but itself: it holds no slash, and its ending keeps it from being a point, two
points or the mark of standard output. All files of a run stand in one directory, and two of them
are the same file exactly if the stems of their models agree.

## Main results

* `targetName_inj`: two models have one file name if their stems agree.
* `targetOf_eq`, `text_targetOf_ne`: a target is a name in the directory, and no mark.
-/

namespace SampleTypes

open Files (Path)
open Identifier (isAlphanumeric isAlphanumeric_iff)

/-! ## Paths of one part -/

namespace Files.Path

theorem splitSlashes_eq_singleton {cs : List Char} (h : '/' ∉ cs) : splitSlashes cs = [cs] := by
  rw [Text.splitSlashes_eq]
  exact List.splitOn_eq_singleton h

/-- A text without slashes is one part, unless it says nothing. -/
theorem ofText_eq_singleton {s : String} (hslash : '/' ∉ s.toList) (hsome : s ≠ "")
    (hpoint : s ≠ ".") : ofText s = { root := "", parts := [s] } := by
  have hroot : rootOf s.toList = "" := by
    unfold rootOf
    split
    case h_4 => rfl
    all_goals
      rename_i heq
      exact absurd (heq ▸ List.mem_cons_self) hslash
  rw [ofText, hroot, splitSlashes_eq_singleton hslash]
  simp [hsome, hpoint]

/-- The text of a path is at least as long as its last part. -/
theorem length_le_length_text {p : Path} {parts : List String} {name : String}
    (h : p.parts = parts ++ [name]) : name.length ≤ p.text.length := by
  have hjoined : name.length ≤ ("/".intercalate p.parts).length := by
    rw [h]
    clear h
    induction parts with
    | nil => simp
    | cons part rest ih =>
      rw [List.cons_append, String.intercalate_cons_of_ne_nil (by simp), String.length_append]
      omega
  have hnot : ¬ (p.root = "" ∧ p.parts.isEmpty = true) := by simp [h]
  rw [text, if_neg hnot, String.length_append]
  omega

end Files.Path

/-! ## Names of generated files -/

namespace DeclaredModel

theorem isAlphanumeric_toLower {c : Char} (h : isAlphanumeric c = true) :
    isAlphanumeric c.toLower = true := by
  have hcode := isAlphanumeric_iff.1 h
  unfold Char.toLower
  split
  · rename_i hcapital
    simp only [ge_iff_le, UInt32.le_iff_toNat_le] at hcapital
    have hlow : 65 ≤ c.toNat := hcapital.1
    have hhigh : c.toNat ≤ 90 := hcapital.2
    have hlower : (c.val + ('a'.val - 'A'.val)).toNat = c.toNat + 32 := by
      rw [UInt32.toNat_add]
      exact Nat.mod_eq_of_lt (by show c.toNat + 32 < 4294967296; omega)
    refine isAlphanumeric_iff.2 (Or.inl (Or.inl ?_))
    show 97 ≤ (c.val + ('a'.val - 'A'.val)).toNat ∧ (c.val + ('a'.val - 'A'.val)).toNat ≤ 122
    rw [hlower]
    omega
  · exact h

theorem mem_snakeCase {cs : List Char} {c : Char} (h : c ∈ snakeCase cs) :
    c = '_' ∨ ∃ original ∈ cs, c = original.toLower := by
  fun_induction snakeCase cs with
  | case1 a b rest hturn ih =>
    rcases List.mem_cons.1 h with rfl | h
    · exact Or.inr ⟨a, List.mem_cons_self, rfl⟩
    · rcases List.mem_cons.1 h with rfl | h
      · exact Or.inl rfl
      · exact (ih h).imp_right fun ⟨original, hmem, heq⟩ =>
          ⟨original, List.mem_cons_of_mem _ hmem, heq⟩
  | case2 a b rest hturn ih =>
    rcases List.mem_cons.1 h with rfl | h
    · exact Or.inr ⟨a, List.mem_cons_self, rfl⟩
    · exact (ih h).imp_right fun ⟨original, hmem, heq⟩ =>
        ⟨original, List.mem_cons_of_mem _ hmem, heq⟩
  | case3 a =>
    rw [List.mem_singleton] at h
    exact Or.inr ⟨a, List.mem_cons_self, h⟩
  | case4 => cases h

/-- A stem is made of letters, digits and low lines. -/
theorem isAlphanumeric_of_mem_stem {m : DeclaredModel} {c : Char} (h : c ∈ m.stem.toList) :
    isAlphanumeric c = true ∨ c = '_' := by
  obtain ⟨first, others, hchars, hletter, -, hothers⟩ := Identifier.isPlain_className m.name
  rw [stem, String.toList_ofList, hchars] at h
  rcases mem_snakeCase h with rfl | ⟨original, hmem, rfl⟩
  · exact Or.inr rfl
  · have hplain : isAlphanumeric original = true ∨ original = '_' := by
      rcases List.mem_cons.1 hmem with rfl | hmem
      · exact Or.inl hletter
      · exact hothers original hmem
    rcases hplain with halpha | rfl
    · exact Or.inl (isAlphanumeric_toLower halpha)
    · exact Or.inr rfl

end DeclaredModel

namespace Command

section

variable {directory : Path} {form : OutputForm} {m other : DeclaredModel}

/-- The name of the generated file of a model. -/
def targetName (form : OutputForm) (m : DeclaredModel) : String :=
  m.stem ++ form.suffix

/-- Two models have one file name if their stems agree. -/
theorem targetName_inj : targetName form m = targetName form other ↔ m.stem = other.stem :=
  String.append_left_inj _

theorem three_le_length_targetName (form : OutputForm) (m : DeclaredModel) :
    3 ≤ (targetName form m).length := by
  have hsuffix : 3 ≤ form.suffix.length := by
    cases form <;> decide
  rw [targetName, String.length_append]
  omega

theorem targetName_ne {s : String} (h : s.length < 3) : targetName form m ≠ s := by
  have hlong := three_le_length_targetName form m
  rintro rfl
  omega

theorem slash_not_mem_targetName : '/' ∉ (targetName form m).toList := by
  rw [targetName, String.toList_append, List.mem_append, not_or]
  constructor
  · intro h
    rcases DeclaredModel.isAlphanumeric_of_mem_stem h with halpha | hline
    · exact absurd halpha (by decide)
    · exact absurd hline (by decide)
  · cases form <;> decide

/-- **A target is a name in the directory.** -/
theorem targetOf_eq : targetOf directory form m =
    { directory with parts := directory.parts ++ [targetName form m] } := by
  have hpath : Path.ofText (m.stem ++ form.suffix) = { root := "", parts := [targetName form m] } :=
    Path.ofText_eq_singleton slash_not_mem_targetName (targetName_ne (by decide))
      (targetName_ne (by decide))
  rw [targetOf, hpath]
  rfl

/-- A target is never taken for the mark of standard output. -/
theorem text_targetOf_ne : (targetOf directory form m).text ≠ Action.stdoutName := by
  have hparts : (targetOf directory form m).parts = directory.parts ++ [targetName form m] := by
    rw [targetOf_eq]
  have hlong := Path.length_le_length_text hparts
  have hname := three_le_length_targetName form m
  intro h
  rw [h] at hlong
  have hmark : Action.stdoutName.length = 1 := by decide
  omega

end

end Command

end SampleTypes
