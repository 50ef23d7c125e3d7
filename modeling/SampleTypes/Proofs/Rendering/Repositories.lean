import Mathlib.Data.List.Sort
import SampleTypes.Proofs.Loops
import SampleTypes.Proofs.Source.Imports
import SampleTypes.Scaffold

/-!
# Modules of repositories

A module of repositories says two things of a list of types. Its imports depend on which types there
are, and on nothing else; its classes depend on which type comes first, too. So repetitions change
nothing at all, and another order changes the classes only.

Of types with legal names and modules such a module is always written, and no line of it breaks, so
its class statements can be read off its text. What is not kept apart are types of one name: a class
goes by the name of its type alone.

## Main results

* `firstOccurrences_eraseDups`, `listing_importsOf`: what the classes and the imports stand for.
* `importsOf_congr`: imports of the same types are the same.
* `render_of_legal`: a module is written for legal types.
* `repositories_ignore_repetition`: what repetition and order change in it.
* `classNames_ofTypes`: the class statements in its text.
* `repositories_distinct_iff`: when its classes have names of their own.
-/

namespace SampleTypes

/-- The name of a module: nothing, or legal names with points between them. -/
def IsModuleName (source : String) : Prop :=
  source = "" ∨ ∃ part parts, source = ".".intercalate (part :: parts) ∧
    ∀ one ∈ part :: parts, Source.IsName one

/-- A type whose name and module may stand in code. -/
structure EntityType.Legal (t : EntityType) : Prop where
  name : Source.IsName t.name
  moduleName : IsModuleName t.moduleName

namespace Scaffold

/-! ## The types that are kept -/

/-- The types of a list without repetition, each in the place where it stands first. -/
structure FirstOccurrences (types kept : List EntityType) : Prop where
  mem_iff : ∀ t, t ∈ kept ↔ t ∈ types
  ordered : kept.Pairwise fun one other => types.idxOf one < types.idxOf other

section

variable {types other kept : List EntityType} {t u : EntityType}

theorem idxOf_cons_of_ne (h : t ≠ u) : (t :: types).idxOf u = types.idxOf u + 1 := by
  rw [List.idxOf_cons, beq_false_of_ne h]
  rfl

/-- Of what a filter lets through, it keeps the order. -/
theorem idxOf_lt_of_filter {p : EntityType → Bool} (ht : p t = true) (hu : p u = true)
    (h : (types.filter p).idxOf t < (types.filter p).idxOf u) : types.idxOf t < types.idxOf u := by
  induction types with
  | nil => exact h
  | cons first rest ih =>
    by_cases hfirst : p first = true
    · rw [List.filter_cons_of_pos hfirst] at h
      by_cases hu' : first = u
      · rw [hu', List.idxOf_cons_self] at h
        omega
      · by_cases ht' : first = t
        · rw [ht', List.idxOf_cons_self, idxOf_cons_of_ne (ht' ▸ hu')]
          omega
        · rw [idxOf_cons_of_ne ht', idxOf_cons_of_ne hu'] at h
          rw [idxOf_cons_of_ne ht', idxOf_cons_of_ne hu']
          have hrest := ih (by omega)
          omega
    · have hne : ∀ {one : EntityType}, p one = true → first ≠ one := by
        rintro one hone rfl
        exact hfirst hone
      rw [List.filter_cons_of_neg hfirst] at h
      rw [idxOf_cons_of_ne (hne ht), idxOf_cons_of_ne (hne hu)]
      have hrest := ih h
      omega

/-- **The types that are kept** are all of them, each where it stands first. -/
theorem firstOccurrences_eraseDups (types : List EntityType) :
    FirstOccurrences types types.eraseDups := by
  refine ⟨fun t => List.mem_eraseDups, ?_⟩
  match types with
  | [] => exact List.Pairwise.nil
  | first :: rest =>
    have hother : ∀ t ∈ (rest.filter fun other => !other == first).eraseDups,
        first ≠ t ∧ (!t == first) = true := by
      intro t ht
      have hmem := (List.mem_filter.1 (List.mem_eraseDups.1 ht)).2
      exact ⟨by rintro rfl; simp at hmem, hmem⟩
    have hrest := (firstOccurrences_eraseDups (rest.filter fun other => !other == first)).ordered
    rw [List.eraseDups_cons, List.pairwise_cons]
    constructor
    · intro t ht
      rw [List.idxOf_cons_self, idxOf_cons_of_ne (hother t ht).1]
      omega
    · refine hrest.imp_of_mem fun {t u} ht hu hlt => ?_
      rw [idxOf_cons_of_ne (hother t ht).1, idxOf_cons_of_ne (hother u hu).1]
      have hrest := idxOf_lt_of_filter (hother t ht).2 (hother u hu).2 hlt
      omega
termination_by types.length
decreasing_by
  have hle := List.length_filter_le (fun other => !other == first) rest
  simp only [List.length_cons]
  omega

/-- Types that occur once are all kept. -/
theorem eraseDups_of_nodup (h : types.Nodup) : types.eraseDups = types := by
  induction types with
  | nil => rfl
  | cons first rest ih =>
    obtain ⟨hfirst, hrest⟩ := List.nodup_cons.1 h
    have hfilter : (rest.filter fun other => !other == first) = rest := by
      refine List.filter_eq_self.2 fun t ht => ?_
      simpa using ne_of_mem_of_not_mem ht hfirst
    rw [List.eraseDups_cons, hfilter, ih hrest]

theorem FirstOccurrences.nodup (h : FirstOccurrences types kept) : kept.Nodup :=
  h.ordered.imp fun hlt heq => by rw [heq] at hlt; omega

/-! ## The imports -/

/-- The imports of the types in a list, without regard to order and repetition: a line for each
module, in order, with the names of the types in the module, in order. -/
structure Listing (types : List EntityType) (imports : List Import) : Prop where
  sources_ordered : (imports.map Import.source).Pairwise (· < ·)
  mem_sources : ∀ source, source ∈ imports.map Import.source ↔
    source ≠ "" ∧ ∃ t ∈ types, t.moduleName = source
  names_ordered : ∀ i ∈ imports, i.names.Pairwise (· < ·)
  mem_names : ∀ i ∈ imports, ∀ name, name ∈ i.names ↔
    { name := name, moduleName := i.source } ∈ types

theorem mem_sources {source : String} :
    source ∈ sources types ↔ source ≠ "" ∧ ∃ t ∈ types, t.moduleName = source := by
  simp [sources, Text.Order.mem_sortedDistinct, and_comm]

theorem mem_namesFrom {source name : String} :
    name ∈ namesFrom source types ↔ { name := name, moduleName := source } ∈ types := by
  simp only [namesFrom, Text.Order.mem_sortedDistinct, List.mem_map, List.mem_filter,
    decide_eq_true_eq]
  constructor
  · rintro ⟨t, ⟨ht, rfl⟩, rfl⟩
    exact ht
  · exact fun h => ⟨_, ⟨h, rfl⟩, rfl⟩

theorem pairwise_sources (types : List EntityType) : (sources types).Pairwise (· < ·) :=
  (Text.Order.pairwise_sortedDistinct _).sublist List.filter_sublist

theorem pairwise_namesFrom (source : String) (types : List EntityType) :
    (namesFrom source types).Pairwise (· < ·) :=
  Text.Order.pairwise_sortedDistinct _

/-- **The imports of a module** are those of its types. -/
theorem listing_importsOf (types : List EntityType) : Listing types (importsOf types) := by
  have hsources : (importsOf types).map Import.source = sources types := by
    simp [importsOf, Function.comp_def]
  refine ⟨?_, fun source => ?_, fun i hi => ?_, fun i hi name => ?_⟩
  · rw [hsources]
    exact pairwise_sources types
  · rw [hsources]
    exact mem_sources
  · obtain ⟨source, -, rfl⟩ := List.mem_map.1 hi
    exact pairwise_namesFrom source types
  · obtain ⟨source, -, rfl⟩ := List.mem_map.1 hi
    exact mem_namesFrom

/-- **The same types have the same imports**, in whatever order and however often they are given. -/
theorem importsOf_congr (h : ∀ t, t ∈ other ↔ t ∈ types) : importsOf other = importsOf types := by
  -- Both lists are in order, so what is in them decides which lists they are.
  have hsources : sources other = sources types := by
    refine (pairwise_sources other).eq_of_mem_iff (pairwise_sources types) fun source => ?_
    simp only [mem_sources, h]
  have hnames : ∀ source, namesFrom source other = namesFrom source types := by
    intro source
    refine (pairwise_namesFrom source other).eq_of_mem_iff (pairwise_namesFrom source types)
      fun name => ?_
    simp only [mem_namesFrom, h]
  simp only [importsOf, hsources, hnames]

/-! ## Writing the module -/

/-- The suffix of repositories keeps a name one. -/
theorem isIdentifier_repositoryName {name : String}
    (h : Text.CharClass.isIdentifier name = true) :
    Text.CharClass.isIdentifier (repositoryName name) = true := by
  unfold Text.CharClass.isIdentifier at h ⊢
  rw [repositoryName, String.toList_append]
  cases hchars : name.toList with
  | nil =>
    rw [hchars] at h
    cases h
  | cons first others =>
    rw [hchars] at h
    simp only [Bool.and_eq_true] at h
    have hsuffix : "Repository".toList.all Text.CharClass.isIdentifierRest = true := by
      decide +kernel
    simp only [List.cons_append, List.all_append, Bool.and_eq_true]
    exact ⟨h.1, h.2, hsuffix⟩

theorem checkName_of_isIdentifier {name : String}
    (h : Text.CharClass.isIdentifier name = true) : checkName name = .ok () := by
  have hne : name ≠ "" := by
    rintro rfl
    cases h
  rw [checkName, if_neg hne, if_pos h]

theorem check_import (hlegal : ∀ t ∈ types, t.Legal) {i : Import} (hi : i ∈ importsOf types) :
    i.check = .ok () := by
  have hlisting := listing_importsOf types
  obtain ⟨hne, t, ht, hsource⟩ := (hlisting.mem_sources i.source).1 (List.mem_map_of_mem hi)
  obtain ⟨part, parts, hmodule, hparts⟩ := ((hlegal t ht).moduleName).resolve_left (hsource ▸ hne)
  obtain ⟨hpart, hparts⟩ := List.forall_mem_cons.1 hparts
  have hnames : ∀ name ∈ i.names, Source.IsName name :=
    fun name hname => (hlegal _ ((hlisting.mem_names i hi name).1 hname)).name
  have hsome : t.name ∈ i.names := by
    rw [hlisting.mem_names i hi, ← hsource]
    exact ht
  obtain ⟨name, names, hlist⟩ := List.exists_cons_of_ne_nil (List.ne_nil_of_mem hsome)
  rw [hlist] at hnames
  obtain ⟨hname, hnames⟩ := List.forall_mem_cons.1 hnames
  have hstatement : Source.checkStatement i.text = .ok () := by
    rw [Import.text, ← hsource, hmodule, hlist]
    exact Source.checkStatement_import hpart hparts hname hnames
  rw [Import.check, hstatement]

theorem check_class (hlegal : ∀ t ∈ types, t.Legal) {c : RepositoryClass}
    (hc : c ∈ classesOf types) : c.check = .ok () := by
  obtain ⟨t, ht, rfl⟩ := List.mem_map.1 hc
  have hname := (hlegal t (List.mem_eraseDups.1 ht)).name.1
  rw [RepositoryClass.check, checkName_of_isIdentifier (isIdentifier_repositoryName hname),
    checkName_of_isIdentifier hname]
  rfl

/-- **For legal types a module is written.** -/
theorem render_of_legal (hlegal : ∀ t ∈ types, t.Legal) :
    render types = .ok (Module.ofTypes types).text := by
  have himports : (importsOf types).forM Import.check = .ok ⟨⟩ :=
    Loops.forM_eq_ok_iff.2 fun i hi => check_import hlegal hi
  have hclasses : (classesOf types).forM RepositoryClass.check = .ok ⟨⟩ :=
    Loops.forM_eq_ok_iff.2 fun c hc => check_class hlegal hc
  have hcheck : (Module.ofTypes types).check = .ok () := by
    rw [Module.check, Module.ofTypes, himports]
    exact hclasses
  rw [render, hcheck]
  rfl

/-- The class for a type. -/
def classFor (t : EntityType) : RepositoryClass :=
  { name := repositoryName t.name, entity := t.name }

/-- A repetition adds nothing to a module. -/
theorem ofTypes_eraseDups (types : List EntityType) :
    Module.ofTypes types.eraseDups = Module.ofTypes types := by
  have hnodup := (firstOccurrences_eraseDups types).nodup
  rw [Module.ofTypes, Module.ofTypes, importsOf_congr fun t => List.mem_eraseDups, classesOf,
    eraseDups_of_nodup hnodup, classesOf]

end

/-- Types found twice, in a module and in none. -/
def overlapping : List EntityType :=
  [{ name := "User", moduleName := "app.models" }, { name := "Order", moduleName := "app.models" },
   { name := "User", moduleName := "app.models" }, { name := "Site", moduleName := "" }]

theorem legal_overlapping : ∀ t ∈ overlapping, t.Legal := by
  have hmodule : IsModuleName "app.models" :=
    .inr ⟨"app", ["models"], by decide +kernel, by decide +kernel⟩
  have huser : EntityType.Legal { name := "User", moduleName := "app.models" } :=
    ⟨by decide +kernel, hmodule⟩
  have horder : EntityType.Legal { name := "Order", moduleName := "app.models" } :=
    ⟨by decide +kernel, hmodule⟩
  have hsite : EntityType.Legal { name := "Site", moduleName := "" } :=
    ⟨by decide +kernel, .inl rfl⟩
  intro t ht
  simp only [overlapping, List.mem_cons, List.not_mem_nil, or_false] at ht
  obtain rfl | rfl | rfl | rfl := ht
  · exact huser
  · exact horder
  · exact huser
  · exact hsite

/-- The name of the class that a line begins. -/
def className? (line : List Char) : Option String :=
  if "class ".toList.isPrefixOf line then
    some (String.ofList ((line.drop 6).takeWhile (· ≠ '(')))
  else none

/-- The names of the classes in a text. -/
def classNames (output : String) : List String :=
  (output.toList.splitOn '\n').filterMap className?

section

variable {types : List EntityType} {lines : List String} {name : String} {c : Char}

/-- An end behind the last line begins an empty one. -/
theorem intercalate_ended (h : lines ≠ []) :
    "\n".intercalate lines ++ "\n" = "\n".intercalate (lines ++ [""]) := by
  induction lines with
  | nil => exact absurd rfl h
  | cons line others ih =>
    cases others with
    | nil =>
      rw [List.singleton_append, String.intercalate_cons_cons, String.intercalate_singleton,
        String.intercalate_singleton, String.append_empty]
    | cons next later =>
      have hrest := ih (List.cons_ne_nil next later)
      rw [String.intercalate_cons_cons, String.append_assoc, hrest]
      exact String.intercalate_cons_cons.symm

/-- Lines that hold no line end are the lines of their text. -/
theorem classNames_intercalate (hsome : lines ≠ []) (h : ∀ line ∈ lines, '\n' ∉ line.toList) :
    classNames ("\n".intercalate lines ++ "\n") =
      lines.filterMap fun line => className? line.toList := by
  have hall : ∀ line ∈ lines ++ [""], '\n' ∉ line.toList :=
    List.forall_mem_append.2 ⟨h, List.forall_mem_singleton.2 List.not_mem_nil⟩
  have hsplit : ("\n".intercalate (lines ++ [""])).toList.splitOn '\n' =
      (lines ++ [""]).map String.toList := by
    rw [String.toList_intercalate]
    exact List.splitOn_intercalate '\n' (List.forall_mem_map.2 hall) (by simp)
  rw [intercalate_ended hsome, classNames, hsplit, List.filterMap_map, List.filterMap_append]
  exact List.append_nil _

/-- The characters of an identifier. -/
theorem notMem_of_isIdentifier (h : Text.CharClass.isIdentifier name = true)
    (hc : Source.Token.isNameChar c = false) : c ∉ name.toList := by
  obtain ⟨-, first, others, hchars, -, hall⟩ := Source.Token.readsAsName_of_isIdentifier h
  intro hmem
  rw [hchars] at hmem
  rw [hall c hmem] at hc
  cases hc

theorem newline_notMem_intercalate {separator : String} (hseparator : '\n' ∉ separator.toList)
    (h : ∀ line ∈ lines, '\n' ∉ line.toList) : '\n' ∉ (separator.intercalate lines).toList := by
  cases lines with
  | nil => exact List.not_mem_nil
  | cons first others =>
    obtain ⟨hfirst, hothers⟩ := List.forall_mem_cons.1 h
    rw [Source.toList_intercalate, List.mem_append, not_or]
    refine ⟨hfirst, fun hmem => ?_⟩
    obtain ⟨other, hother, hmem⟩ := List.mem_flatMap.1 hmem
    exact (List.mem_append.1 hmem).elim hseparator (hothers other hother)

/-- A class has one statement, and the statement has its name. -/
theorem classNames_class {r : RepositoryClass} (h : '(' ∉ r.name.toList) :
    (r.lines.filterMap fun line => className? line.toList) = [r.name] := by
  have hdocumentation :
      className? ("    \"\"\"Repository for " ++ r.entity ++ " entities.\"\"\"").toList = none := by
    rw [String.toList_append, String.toList_append]
    rfl
  have hname : ∀ rest, (r.name.toList ++ '(' :: rest).takeWhile (· ≠ '(') = r.name.toList := by
    intro rest
    have hall : ∀ c ∈ r.name.toList, decide (c ≠ '(') = true :=
      fun c hc => decide_eq_true (ne_of_mem_of_not_mem hc h)
    rw [List.takeWhile_append_of_pos hall, List.takeWhile_cons_of_neg (by decide), List.append_nil]
  have hstatement : className?
      ("class " ++ r.name ++ "(RepositoryBase[" ++ r.entity ++ "]):").toList = some r.name := by
    simp only [String.toList_append, List.append_assoc]
    show some (String.ofList ((r.name.toList ++ '(' :: _).takeWhile (· ≠ '('))) = some r.name
    rw [hname, String.ofList_toList]
  have hempty : className? "".toList = none := rfl
  simp only [RepositoryClass.lines, List.filterMap_cons, hempty, hstatement, hdocumentation,
    List.filterMap_nil]

theorem newline_notMem_class {r : RepositoryClass} (hname : '\n' ∉ r.name.toList)
    (hentity : '\n' ∉ r.entity.toList) : ∀ line ∈ r.lines, '\n' ∉ line.toList := by
  simp [RepositoryClass.lines, hname, hentity]

theorem newline_notMem_import {i : Import} (hsource : '\n' ∉ i.source.toList)
    (hnames : ∀ name ∈ i.names, '\n' ∉ name.toList) : '\n' ∉ i.text.toList := by
  have hcomma : '\n' ∉ ", ".toList := by decide
  have hlist := newline_notMem_intercalate hcomma hnames
  simp only [Import.text, String.toList_append, List.mem_append, not_or]
  exact ⟨⟨⟨by decide, hsource⟩, by decide⟩, hlist⟩

/-- **The class statements of a module** are those of its classes, if no line breaks. -/
theorem classNames_text {m : Module}
    (himports : ∀ i ∈ m.imports, '\n' ∉ i.text.toList)
    (hclasses : ∀ r ∈ m.classes, ∀ line ∈ r.lines, '\n' ∉ line.toList)
    (hnames : ∀ r ∈ m.classes, '(' ∉ r.name.toList) :
    classNames m.text = m.classes.map RepositoryClass.name := by
  have hheader : ∀ line ∈ header, '\n' ∉ line.toList := by decide
  have hlines : ∀ line ∈ header ++ m.imports.map Import.text ++
      m.classes.flatMap RepositoryClass.lines, '\n' ∉ line.toList := by
    refine List.forall_mem_append.2 ⟨List.forall_mem_append.2 ⟨hheader, ?_⟩, ?_⟩
    · exact List.forall_mem_map.2 himports
    · intro line hline
      obtain ⟨r, hr, hline⟩ := List.mem_flatMap.1 hline
      exact hclasses r hr line hline
  have hfront : (header.filterMap fun line => className? line.toList) = [] := by decide
  have hmiddle : ((m.imports.map Import.text).filterMap fun line => className? line.toList) =
      [] := by
    refine List.filterMap_eq_nil_iff.2 (List.forall_mem_map.2 fun i _ => ?_)
    simp only [Import.text, String.toList_append, List.append_assoc]
    rfl
  have hback : ((m.classes.flatMap RepositoryClass.lines).filterMap
      fun line => className? line.toList) = m.classes.map RepositoryClass.name := by
    rw [List.filterMap_flatMap, List.map_eq_flatMap]
    exact List.flatMap_congr fun r hr => classNames_class (hnames r hr)
  rw [Module.text, classNames_intercalate (by simp [header]) hlines, List.filterMap_append,
    List.filterMap_append, hfront, hmiddle, hback]
  rfl

theorem newline_notMem_of_isModuleName {source : String} (h : IsModuleName source) :
    '\n' ∉ source.toList := by
  obtain rfl | ⟨part, parts, rfl, hparts⟩ := h
  · exact List.not_mem_nil
  · exact newline_notMem_intercalate (by decide)
      fun one hone => notMem_of_isIdentifier (hparts one hone).1 (by decide)

/-- **The class statements for legal types** are those of the types that are kept. -/
theorem classNames_ofTypes (hlegal : ∀ t ∈ types, t.Legal) :
    classNames (Module.ofTypes types).text =
      types.eraseDups.map fun t => repositoryName t.name := by
  have hlisting := listing_importsOf types
  have himports : ∀ i ∈ importsOf types, '\n' ∉ i.text.toList := by
    intro i hi
    obtain ⟨-, t, ht, hsource⟩ := (hlisting.mem_sources i.source).1 (List.mem_map_of_mem hi)
    refine newline_notMem_import ?_ fun name hname => ?_
    · rw [← hsource]
      exact newline_notMem_of_isModuleName (hlegal t ht).moduleName
    · have hmem := (hlisting.mem_names i hi name).1 hname
      exact notMem_of_isIdentifier (hlegal _ hmem).name.1 (by decide)
  have hidentifiers : ∀ r ∈ classesOf types, Text.CharClass.isIdentifier r.name = true ∧
      Text.CharClass.isIdentifier r.entity = true := by
    intro r hr
    obtain ⟨t, ht, rfl⟩ := List.mem_map.1 hr
    have hname := (hlegal t (List.mem_eraseDups.1 ht)).name.1
    exact ⟨isIdentifier_repositoryName hname, hname⟩
  have hclasses : ∀ r ∈ classesOf types, ∀ line ∈ r.lines, '\n' ∉ line.toList :=
    fun r hr => newline_notMem_class (notMem_of_isIdentifier (hidentifiers r hr).1 (by decide))
      (notMem_of_isIdentifier (hidentifiers r hr).2 (by decide))
  have hnames : ∀ r ∈ classesOf types, '(' ∉ r.name.toList :=
    fun r hr => notMem_of_isIdentifier (hidentifiers r hr).1 (by decide)
  rw [classNames_text himports hclasses hnames, Module.ofTypes, classesOf, List.map_map]
  rfl

theorem repositoryName_injective : Function.Injective repositoryName :=
  fun _ _ h => (String.append_left_inj "Repository").1 h

/-- **When each class has a name of its own.** The classes of a module have names of their own
exactly if no two of its types share a name, whichever modules they are from. -/
theorem repositories_distinct_iff (hlegal : ∀ t ∈ types, t.Legal) :
    ∃ output, render types = .ok output ∧
      ((classNames output).Nodup ↔
        ∀ t ∈ types, ∀ u ∈ types, t.name = u.name → t.moduleName = u.moduleName) := by
  refine ⟨_, render_of_legal hlegal, ?_⟩
  have hnodup := (firstOccurrences_eraseDups types).nodup
  rw [classNames_ofTypes hlegal, List.nodup_map_iff_inj_on hnodup]
  simp only [List.mem_eraseDups, repositoryName_injective.eq_iff]
  constructor
  · intro h t ht u hu hname
    rw [h t ht u hu hname]
  · intro h t ht u hu hname
    exact congrArg₂ EntityType.mk hname (h t ht u hu hname)

end

theorem repositories_distinct_iff_overlapping : (∀ t ∈ overlapping, t.Legal) ∧
    ∃ output, render overlapping = .ok output ∧ (classNames output).Nodup := by
  obtain ⟨output, hrender, hiff⟩ := repositories_distinct_iff legal_overlapping
  exact ⟨legal_overlapping, output, hrender, hiff.2 (by decide +kernel)⟩

/-- Two types of one name, from two modules. -/
def namesakes : List EntityType :=
  [{ name := "Person", moduleName := "a" }, { name := "Person", moduleName := "b" }]

theorem legal_namesakes : ∀ t ∈ namesakes, t.Legal := by
  have hname : Source.IsName "Person" := by decide +kernel
  have hmodule : ∀ source, Source.IsName source → IsModuleName source := by
    intro source hsource
    exact .inr ⟨source, [], String.intercalate_singleton.symm,
      List.forall_mem_singleton.2 hsource⟩
  refine List.forall_mem_cons.2 ⟨⟨hname, hmodule "a" (by decide +kernel)⟩, ?_⟩
  exact List.forall_mem_singleton.2 ⟨hname, hmodule "b" (by decide +kernel)⟩

/-- Types of one name have classes of one name, although they are from two modules. -/
theorem repositories_of_namesakes : (∀ t ∈ namesakes, t.Legal) ∧
    ∃ output, render namesakes = .ok output ∧
      classNames output = ["PersonRepository", "PersonRepository"] ∧
      ¬ (classNames output).Nodup := by
  have hnames : classNames (Module.ofTypes namesakes).text =
      ["PersonRepository", "PersonRepository"] := by
    rw [classNames_ofTypes legal_namesakes]
    decide +kernel
  refine ⟨legal_namesakes, _, render_of_legal legal_namesakes, hnames, ?_⟩
  rw [hnames]
  decide

end Scaffold

end SampleTypes
