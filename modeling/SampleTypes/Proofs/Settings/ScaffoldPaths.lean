import SampleTypes.Proofs.Text.Splitting
import SampleTypes.Settings

/-!
# Lists of paths

The paths to scan may be written as one text with commas or as a list, whose items may hold commas
themselves. Both are read alike: a comma between two texts and the border between two items part the
same names, so a list says what its texts say when they are joined with commas, and items that are no
texts say nothing.

What is read is a list of clean names: not empty, without commas, and without blanks at either end.
A clean name in a list is read as it stands. So the lists of clean names are those that are read as
they are written, and what has been read is read again unchanged.

## Main results

* `commaParts_intercalate`: texts joined with commas.
* `isName_of_mem_commaParts`, `commaParts_of_isName`: what is read, and what is read as it stands.
* `flatMap_commaParts_eq_self_iff`: the lists that are read as they are written.
* `path_lists_are_comma_texts`: the paths of a section.
-/

namespace SampleTypes

namespace Text.Blank

variable {s : String}

/-- A name that is read as it stands in a comma-separated text. -/
structure IsName (s : String) : Prop where
  ne_empty : s ≠ ""
  comma_notMem : ',' ∉ s.toList
  trimmed : IsTrimmed isBlank s.toList

/-- What is read from the parts of a text. -/
def namesOf (parts : List (List Char)) : List String :=
  (parts.map fun part => String.ofList (trimBoth isBlank part)).filter (· ≠ "")

theorem commaParts_eq (s : String) : commaParts s = namesOf (s.toList.splitOn ',') := by
  rw [commaParts, splitOn_eq, namesOf]

theorem namesOf_flatMap {α : Type _} (f : α → List (List Char)) (items : List α) :
    namesOf (items.flatMap f) = items.flatMap fun item => namesOf (f item) := by
  rw [namesOf, List.map_flatMap, List.filter_flatMap]
  rfl

/-- **Texts joined with commas** say what each of them says. -/
theorem commaParts_intercalate (texts : List String) :
    commaParts (",".intercalate texts) = texts.flatMap commaParts := by
  by_cases hsome : texts = []
  · subst hsome
    rfl
  · have hparts : (",".intercalate texts).toList.splitOn ',' =
        texts.flatMap fun text => text.toList.splitOn ',' := by
      rw [String.toList_intercalate]
      exact (splitOn_intercalate_eq_flatMap (by simpa using hsome)).trans (List.flatMap_map ..)
    rw [commaParts_eq, hparts, namesOf_flatMap]
    exact List.flatMap_congr fun text _ => (commaParts_eq text).symm

theorem isName_of_mem_commaParts {name : String} (h : name ∈ commaParts s) : IsName name := by
  rw [commaParts_eq, namesOf, List.mem_filter, decide_eq_true_eq] at h
  obtain ⟨hname, hsome⟩ := h
  obtain ⟨part, hpart, rfl⟩ := List.mem_map.1 hname
  refine ⟨hsome, ?_, ?_⟩
  · rw [String.toList_ofList]
    exact fun hcomma => notMem_of_mem_splitOn hpart (mem_of_mem_trimBoth hcomma)
  · rw [String.toList_ofList]
    exact isTrimmed_trimBoth isBlank part

/-- A clean name is read as it stands. -/
theorem commaParts_of_isName (h : IsName s) : commaParts s = [s] := by
  rw [commaParts_eq, List.splitOn_eq_singleton h.comma_notMem, namesOf, List.map_singleton,
    trimBoth_eq_self_iff.2 h.trimmed, String.ofList_toList]
  exact List.filter_eq_self.2 (by simp [h.ne_empty])

/-- **Lists that are read as they are written** are those of clean names. -/
theorem flatMap_commaParts_eq_self_iff {names : List String} :
    names.flatMap commaParts = names ↔ ∀ name ∈ names, IsName name := by
  constructor
  · intro h name hname
    rw [← h] at hname
    obtain ⟨text, -, hpart⟩ := List.mem_flatMap.1 hname
    exact isName_of_mem_commaParts hpart
  · intro h
    calc names.flatMap commaParts
        = names.flatMap fun name => [name] :=
          List.flatMap_congr fun name hname => commaParts_of_isName (h name hname)
      _ = names := List.flatMap_singleton' names

end Text.Blank

namespace Settings

open Text.Blank (IsName commaParts)

/-- The text that a setting is. -/
def text? : Setting → Option String
  | .text s => some s
  | _ => none

/-- The texts among the items of a list; all other items are passed over. -/
def texts (items : List Setting) : List String :=
  items.filterMap text?

/-- The section that configures `paths`, and the rest like `others`. -/
def withPaths (paths : Setting) (others : Section) : Setting :=
  .table (Assoc.put "paths" paths others)

theorem texts_map_text (names : List String) : texts (names.map Setting.text) = names := by
  rw [texts, List.filterMap_map]
  exact List.filterMap_some

theorem nameList_list (items : List Setting) :
    nameList (.list items) = (texts items).flatMap commaParts := by
  rw [nameList]
  induction items with
  | nil => rfl
  | cons item rest ih =>
    rw [List.flatMap_cons, ih]
    cases item <;> rfl

theorem isName_of_mem_nameList {setting : Setting} {name : String} (h : name ∈ nameList setting) :
    IsName name := by
  cases setting with
  | text s => exact Text.Blank.isName_of_mem_commaParts h
  | list items =>
    rw [nameList_list] at h
    obtain ⟨text, -, hname⟩ := List.mem_flatMap.1 h
    exact Text.Blank.isName_of_mem_commaParts hname
  | _ => cases h

theorem scaffoldPaths_withPaths (paths : Setting) (others : Section) :
    scaffoldPaths (withPaths paths others) = nameList paths := by
  rw [scaffoldPaths, withPaths, Setting.toSection, Assoc.get?_put, if_pos rfl]

theorem isName_of_mem_scaffoldPaths {s : Setting} {path : String} (h : path ∈ scaffoldPaths s) :
    IsName path := by
  unfold scaffoldPaths at h
  split at h
  · exact isName_of_mem_nameList h
  · cases h

/-- **Lists of paths and comma-separated paths agree.** A section with a list of texts has the paths
of the section with these texts joined by commas, and items that are no texts may stand anywhere
between them. Whatever a section configures, its paths are clean names, and given as a list they are
read unchanged; no other lists are. -/
theorem path_lists_are_comma_texts (others : Section) (names : List String) (s : Setting) :
    scaffoldPaths (withPaths (.list (names.map .text)) others) =
        scaffoldPaths (withPaths (.text (",".intercalate names)) others) ∧
      (∀ items, texts items = names →
        scaffoldPaths (withPaths (.list items) others) =
          scaffoldPaths (withPaths (.list (names.map .text)) others)) ∧
      (∀ path ∈ scaffoldPaths s, IsName path) ∧
      scaffoldPaths (withPaths (.list ((scaffoldPaths s).map .text)) others) = scaffoldPaths s ∧
      (scaffoldPaths (withPaths (.list (names.map .text)) others) = names ↔
        ∀ name ∈ names, IsName name) := by
  have hlist : ∀ items, scaffoldPaths (withPaths (.list items) others) =
      (texts items).flatMap commaParts := fun items => by
    rw [scaffoldPaths_withPaths, nameList_list]
  have hclean : ∀ path ∈ scaffoldPaths s, IsName path :=
    fun _ => isName_of_mem_scaffoldPaths
  refine ⟨?_, fun items hitems => ?_, hclean, ?_, ?_⟩
  · rw [hlist, texts_map_text, scaffoldPaths_withPaths, nameList,
      Text.Blank.commaParts_intercalate]
  · rw [hlist, hlist, texts_map_text, hitems]
  · rw [hlist, texts_map_text]
    exact Text.Blank.flatMap_commaParts_eq_self_iff.2 hclean
  · rw [hlist, texts_map_text]
    exact Text.Blank.flatMap_commaParts_eq_self_iff

/-- A list with commas, blanks and items that are no texts. -/
def untidyPaths : List Setting :=
  [.int 1, .text " src, tests ,", .unset, .text "", .list [.text "docs"], .text "\u3000lib\t"]

theorem path_lists_are_comma_texts_untidy :
    texts untidyPaths = [" src, tests ,", "", "\u3000lib\t"] ∧
      scaffoldPaths (withPaths (.list untidyPaths) []) = ["src", "tests", "lib"] ∧
      scaffoldPaths (withPaths (.text " src, tests ,,,\u3000lib\t") []) =
        ["src", "tests", "lib"] ∧
      IsName "tests" ∧
      scaffoldPaths (withPaths (.list [.text "src", .text "tests", .text "lib"]) []) =
        ["src", "tests", "lib"] := by
  have htexts : texts untidyPaths = [" src, tests ,", "", "\u3000lib\t"] := rfl
  have hread : scaffoldPaths (withPaths (.list untidyPaths) []) = ["src", "tests", "lib"] := by
    decide +kernel
  obtain ⟨hcommas, hmixed, hclean, hagain, -⟩ :=
    path_lists_are_comma_texts [] _ (withPaths (.list untidyPaths) [])
  rw [← hmixed untidyPaths htexts, hread] at hcommas
  rw [hread] at hclean hagain
  exact ⟨htexts, hread, hcommas.symm, hclean "tests" (by decide), hagain⟩

end Settings

end SampleTypes
