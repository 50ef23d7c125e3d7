import Mathlib.Data.List.Sort
import SampleTypes.Discovery
import SampleTypes.Proofs.Files.Listings

/-!
# The source files below a directory

A scan goes through a directory and all that is below it, but for a few directories that are not
entered. What it finds is said of places: a file at the end of a way through directories that are
entered, with the ending of sources. And the order in which it finds them is one in which a file
never stands before itself, so each file is found once and the scan is known from what is in it.
That is why the order in which directories list their entries does not matter.

The induction is on the tree: what holds below the entries of a directory holds below it.

## Main results

* `mem_below`: the files that are found.
* `pairwise_below`: the order in which they are found.
* `filesOfPaths_of_relisted`: another listing of the tree changes nothing.
* `source_scan_is_exact`: the scan of a directory.
-/

namespace SampleTypes.Discovery

open Files (FileSystem Path Entry)

/-- A source file that a scan of an entry comes to: what stands at the end of a way through
directories that are entered is no directory and has the ending of sources. -/
structure IsSourceFile (e : Entry) (directories : List String) (name : String) : Prop where
  stands : ∃ found, Entry.at? (directories ++ [name]) e = some found ∧ found.shell ≠ .directory []
  ends : ∃ stem, name = stem ++ sourceEnding
  entered : ∀ directory ∈ directories, directory ∉ excludedNames

/-- The order of a scan, on ways that start from one directory: its own files come first, in order,
then the subdirectories, in order, each with all that is below it. -/
inductive Before : List String → List String → Prop where
  | files {name other : String} : name < other → Before [name] [other]
  | own {name directory : String} {way : List String} : way ≠ [] → Before [name] (directory :: way)
  | directories {directory other : String} {way further : List String} : directory < other →
      way ≠ [] → further ≠ [] → Before (directory :: way) (other :: further)
  | inside {directory : String} {way further : List String} : Before way further →
      Before (directory :: way) (directory :: further)

/-! ## The order -/

section

variable {way further : List String}

theorem Before.ne_nil (h : Before way further) : way ≠ [] ∧ further ≠ [] := by
  cases h <;> exact ⟨List.cons_ne_nil _ _, List.cons_ne_nil _ _⟩

/-- Of two ways one at most comes before the other. -/
theorem Before.asymm (h : Before way further) : ¬ Before further way := by
  induction h with
  | files hlt =>
    intro hback
    cases hback with
    | files hback => exact String.lt_asymm hlt hback
    | own hway => exact hway rfl
    | directories _ hway _ => exact hway rfl
    | inside hback => exact hback.ne_nil.1 rfl
  | own hway =>
    intro hback
    cases hback with
    | files _ => exact hway rfl
    | own hnil => exact hnil rfl
    | directories _ _ hnil => exact hnil rfl
    | inside hback => exact hback.ne_nil.2 rfl
  | directories hlt hway hfurther =>
    intro hback
    cases hback with
    | files _ => exact hway rfl
    | own _ => exact hfurther rfl
    | directories hback _ _ => exact String.lt_asymm hlt hback
    | inside _ => exact String.lt_irrefl _ hlt
  | inside hinner ih =>
    intro hback
    cases hback with
    | files _ => exact hinner.ne_nil.1 rfl
    | own _ => exact hinner.ne_nil.2 rfl
    | directories hback _ _ => exact String.lt_irrefl _ hback
    | inside hback => exact ih hback

theorem Before.irrefl (way : List String) : ¬ Before way way :=
  fun h => h.asymm h

instance : Std.Irrefl Before :=
  ⟨Before.irrefl⟩

instance : Std.Antisymm Before :=
  ⟨fun _ _ h hback => absurd hback h.asymm⟩

end

/-! ## One directory -/

section

variable {name : String} {paths : List (List String)} {entries : List (String × Entry)} {e : Entry}
  {directories parts : List String}

theorem isSourceName_iff : isSourceName name = true ↔ ∃ stem, name = stem ++ sourceEnding := by
  unfold isSourceName
  rw [List.isSuffixOf_iff_suffix]
  constructor
  · rintro ⟨stem, hname⟩
    refine ⟨String.ofList stem, String.toList_inj.1 ?_⟩
    rw [String.toList_append, String.toList_ofList, hname]
  · rintro ⟨stem, rfl⟩
    rw [String.toList_append]
    exact List.suffix_append _ _

theorem ownFiles_cons {listed : String} (h : e.shell ≠ .directory [])
    (rest : List (String × Entry)) :
    ownFiles ((listed, e) :: rest) =
      if isSourceName listed = true then listed :: ownFiles rest else ownFiles rest := by
  cases e with
  | directory inner => exact absurd rfl h
  | _ =>
    by_cases hsource : isSourceName listed = true
    · rw [if_pos hsource]
      exact List.filterMap_cons_some (if_pos hsource)
    · rw [if_neg hsource]
      exact List.filterMap_cons_none (if_neg hsource)

theorem ownFiles_sublist (entries : List (String × Entry)) :
    (ownFiles entries).Sublist (Assoc.keys entries) := by
  induction entries with
  | nil => exact List.Sublist.refl _
  | cons first rest ih =>
    obtain ⟨listed, found⟩ := first
    by_cases hfound : found.shell = .directory []
    · obtain ⟨inner, rfl⟩ := Entry.eq_directory_of_shell hfound
      exact ih.cons listed
    · rw [ownFiles_cons hfound]
      split
      · exact ih.cons_cons listed
      · exact ih.cons listed

/-- What is no directory is kept if it has the name of a source file. -/
theorem mem_ownFiles :
    name ∈ ownFiles entries ↔
      ∃ found, (name, found) ∈ entries ∧ found.shell ≠ .directory [] ∧
        isSourceName name = true := by
  induction entries with
  | nil => simp [ownFiles]
  | cons first rest ih =>
    obtain ⟨listed, found⟩ := first
    have hlater : (∃ other, (name, other) ∈ (listed, found) :: rest ∧
          other.shell ≠ .directory [] ∧ isSourceName name = true) ↔
        (name = listed ∧ found.shell ≠ .directory [] ∧ isSourceName name = true) ∨
          name ∈ ownFiles rest := by
      rw [ih]
      simp only [List.mem_cons, Prod.mk.injEq, or_and_right, exists_or, and_assoc,
        exists_and_left, exists_eq_left]
    rw [hlater]
    by_cases hfound : found.shell = .directory []
    · obtain ⟨inner, rfl⟩ := Entry.eq_directory_of_shell hfound
      show name ∈ ownFiles rest ↔ _
      simp [hfound]
    · rw [ownFiles_cons hfound]
      by_cases hsource : isSourceName listed = true
      · rw [if_pos hsource, List.mem_cons]
        constructor
        · rintro (rfl | hrest)
          · exact Or.inl ⟨rfl, hfound, hsource⟩
          · exact Or.inr hrest
        · rintro (⟨rfl, -, -⟩ | hrest)
          · exact Or.inl rfl
          · exact Or.inr hrest
      · rw [if_neg hsource]
        constructor
        · exact Or.inr
        · rintro (⟨rfl, -, hname⟩ | hrest)
          · exact absurd hname hsource
          · exact hrest

/-- The source files among the entries of a directory are its own. -/
theorem isSourceFile_nil (h : (Assoc.keys entries).Nodup) :
    IsSourceFile (.directory entries) [] name ↔ name ∈ ownFiles entries := by
  have hplace : ∀ found, Entry.at? ([] ++ [name]) (.directory entries) = some found ↔
      (name, found) ∈ entries := by
    intro found
    rw [← Entry.child?_eq_some h]
    show (Entry.child? name entries).bind some = some found ↔ _
    rw [Option.bind_fun_some]
  rw [mem_ownFiles]
  constructor
  · rintro ⟨⟨found, hstands, hfound⟩, hends, -⟩
    exact ⟨found, (hplace found).1 hstands, hfound, isSourceName_iff.2 hends⟩
  · rintro ⟨found, hmem, hfound, hsource⟩
    exact ⟨⟨found, (hplace found).2 hmem, hfound⟩, isSourceName_iff.1 hsource, nofun⟩

/-- The subdirectories that are entered, with what is found below each. -/
theorem mem_belowEach :
    (name, paths) ∈ belowEach entries ↔
      ∃ inner, (name, .directory inner) ∈ entries ∧ name ∉ excludedNames ∧
        paths = below (.directory inner) := by
  induction entries with
  | nil => simp [belowEach]
  | cons first rest ih =>
    obtain ⟨listed, found⟩ := first
    cases found with
    | directory inner =>
      by_cases hexcluded : listed ∈ excludedNames
      · rw [belowEach, if_pos hexcluded, ih]
        constructor
        · rintro ⟨other, hmem, hname, hpaths⟩
          exact ⟨other, List.mem_cons_of_mem _ hmem, hname, hpaths⟩
        · rintro ⟨other, hmem, hname, hpaths⟩
          rcases List.mem_cons.1 hmem with hsame | hmem
          · cases hsame
            exact absurd hexcluded hname
          · exact ⟨other, hmem, hname, hpaths⟩
      · rw [belowEach, if_neg hexcluded, List.mem_cons, ih]
        constructor
        · rintro (hsame | ⟨other, hmem, hname, hpaths⟩)
          · cases hsame
            exact ⟨inner, List.mem_cons_self, hexcluded, rfl⟩
          · exact ⟨other, List.mem_cons_of_mem _ hmem, hname, hpaths⟩
        · rintro ⟨other, hmem, hname, hpaths⟩
          rcases List.mem_cons.1 hmem with hsame | hmem
          · cases hsame
            exact Or.inl (hpaths ▸ rfl)
          · exact Or.inr ⟨other, hmem, hname, hpaths⟩
    | file octets =>
      show (name, paths) ∈ belowEach rest ↔ _
      rw [ih]
      simp
    | sink =>
      show (name, paths) ∈ belowEach rest ↔ _
      rw [ih]
      simp

/-- The subdirectories are among the entries, in the order of the listing. -/
theorem keys_belowEach_sublist (entries : List (String × Entry)) :
    (Assoc.keys (belowEach entries)).Sublist (Assoc.keys entries) := by
  induction entries with
  | nil => exact List.Sublist.refl _
  | cons first rest ih =>
    obtain ⟨listed, found⟩ := first
    cases found with
    | directory inner =>
      by_cases hexcluded : listed ∈ excludedNames
      · rw [belowEach, if_pos hexcluded]
        exact ih.cons listed
      · rw [belowEach, if_neg hexcluded]
        exact ih.cons_cons listed
    | file octets => exact ih.cons listed
    | sink => exact ih.cons listed

theorem mem_inOrder {α : Type} {named : String × α} {listed : List (String × α)} :
    named ∈ inOrder listed ↔ named ∈ listed :=
  List.mem_mergeSort

/-- Entries with names of their own are put in strict order. -/
theorem pairwise_inOrder {α : Type} {listed : List (String × α)} (h : (Assoc.keys listed).Nodup) :
    (inOrder listed).Pairwise fun one other => one.1 < other.1 := by
  have hsorted : (inOrder listed).Pairwise fun one other =>
      decide (one.1 ≤ other.1) = true := by
    apply List.pairwise_mergeSort
    · intro one other last hfirst hsecond
      exact decide_eq_true (String.le_trans (of_decide_eq_true hfirst) (of_decide_eq_true hsecond))
    · intro one other
      rw [Bool.or_eq_true, decide_eq_true_iff, decide_eq_true_iff]
      exact String.le_total one.1 other.1
  have hnames : (inOrder listed).Pairwise fun one other => one.1 ≠ other.1 :=
    List.pairwise_map.1 (((List.mergeSort_perm listed _).map Prod.fst).nodup_iff.2 h)
  exact (hsorted.and hnames).imp fun hboth =>
    Text.Order.lt_of_le_of_ne (of_decide_eq_true hboth.1) hboth.2

/-- What is found in a directory is a file of its own, or is found in a subdirectory. -/
theorem mem_below_directory :
    parts ∈ below (.directory entries) ↔
      (∃ name ∈ ownFiles entries, parts = [name]) ∨
        ∃ name inner rest, (name, .directory inner) ∈ entries ∧ name ∉ excludedNames ∧
          rest ∈ below (.directory inner) ∧ parts = name :: rest := by
  rw [below, List.mem_append, List.mem_map, List.mem_flatMap]
  constructor
  · rintro (⟨name, hname, rfl⟩ | ⟨⟨name, paths⟩, hmem, hparts⟩)
    · exact Or.inl ⟨name, Text.Order.mem_sort.1 hname, rfl⟩
    · obtain ⟨rest, hrest, rfl⟩ := List.mem_map.1 hparts
      obtain ⟨inner, hinner, hentered, rfl⟩ := mem_belowEach.1 (mem_inOrder.1 hmem)
      exact Or.inr ⟨name, inner, rest, hinner, hentered, hrest, rfl⟩
  · rintro (⟨name, hname, rfl⟩ | ⟨name, inner, rest, hinner, hentered, hrest, rfl⟩)
    · exact Or.inl ⟨name, Text.Order.mem_sort.2 hname, rfl⟩
    · exact Or.inr ⟨_, mem_inOrder.2 (mem_belowEach.2 ⟨inner, hinner, hentered, rfl⟩),
        List.mem_map_of_mem hrest⟩

end

/-! ## The whole tree -/

section

variable {e other : Entry} {entries : List (String × Entry)} {name : String}
  {directories parts : List String}

/-- A source file that is not a directory's own is one of an entry of it. -/
theorem isSourceFile_cons (h : (Assoc.keys entries).Nodup) {directory : String} :
    IsSourceFile (.directory entries) (directory :: directories) name ↔
      ∃ inner, (directory, .directory inner) ∈ entries ∧ directory ∉ excludedNames ∧
        IsSourceFile (.directory inner) directories name := by
  constructor
  · rintro ⟨⟨found, hstands, hfound⟩, hends, hentered⟩
    obtain ⟨_, next, hsame, hnext, hrest⟩ := Entry.at?_cons_eq_some hstands
    cases hsame
    obtain ⟨hfirst, hothers⟩ := List.forall_mem_cons.1 hentered
    -- The way goes on, so what stands behind the first name is a directory.
    obtain ⟨inner, hinner⟩ : ∃ inner, next = .directory inner := by
      cases directories with
      | nil =>
        obtain ⟨inner, _, hdirectory, -, -⟩ := Entry.at?_cons_eq_some hrest
        exact ⟨inner, hdirectory⟩
      | cons _ _ =>
        obtain ⟨inner, _, hdirectory, -, -⟩ := Entry.at?_cons_eq_some hrest
        exact ⟨inner, hdirectory⟩
    subst hinner
    exact ⟨inner, (Entry.child?_eq_some h).1 hnext, hfirst, ⟨found, hrest, hfound⟩, hends, hothers⟩
  · rintro ⟨inner, hinner, hfirst, ⟨found, hstands, hfound⟩, hends, hothers⟩
    refine ⟨⟨found, ?_, hfound⟩, hends, List.forall_mem_cons.2 ⟨hfirst, hothers⟩⟩
    show (Entry.child? directory entries).bind (Entry.at? (directories ++ [name])) = some found
    rw [(Entry.child?_eq_some h).2 hinner]
    exact hstands

/-- **The files that are found**: exactly the source files, by the ways to them. -/
theorem mem_below (h : (Entry.directory entries).Distinct) :
    parts ∈ below (.directory entries) ↔
      ∃ directories name, parts = directories ++ [name] ∧
        IsSourceFile (.directory entries) directories name := by
  generalize he : Entry.directory entries = e at h
  induction e using Entry.treeInduction generalizing entries parts with
  | file octets => cases he
  | sink => cases he
  | directory _ ih =>
    cases he
    rw [mem_below_directory]
    constructor
    · rintro (⟨name, hname, rfl⟩ | ⟨first, inner, rest, hinner, hentered, hrest, rfl⟩)
      · exact ⟨[], name, rfl, (isSourceFile_nil h.names).2 hname⟩
      · obtain ⟨directories, name, rfl, hfile⟩ := (ih _ hinner rfl (h.each _ hinner)).1 hrest
        exact ⟨first :: directories, name, rfl,
          (isSourceFile_cons h.names).2 ⟨inner, hinner, hentered, hfile⟩⟩
    · rintro ⟨directories, name, rfl, hfile⟩
      cases directories with
      | nil => exact Or.inl ⟨name, (isSourceFile_nil h.names).1 hfile, rfl⟩
      | cons first directories =>
        obtain ⟨inner, hinner, hentered, hrest⟩ := (isSourceFile_cons h.names).1 hfile
        exact Or.inr ⟨first, inner, directories ++ [name], hinner, hentered,
          (ih _ hinner rfl (h.each _ hinner)).2 ⟨directories, name, rfl, hrest⟩, rfl⟩

theorem ne_nil_of_mem_below (h : parts ∈ below (.directory entries)) : parts ≠ [] := by
  rcases mem_below_directory.1 h with ⟨name, -, rfl⟩ | ⟨name, inner, rest, -, -, -, rfl⟩
  · exact List.cons_ne_nil _ _
  · exact List.cons_ne_nil _ _

/-- **The order in which files are found.** -/
theorem pairwise_below (h : (Entry.directory entries).Distinct) :
    (below (.directory entries)).Pairwise Before := by
  generalize he : Entry.directory entries = e at h
  induction e using Entry.treeInduction generalizing entries with
  | file octets => cases he
  | sink => cases he
  | directory entries ih =>
    cases he
    have hown : ((Text.Order.sort (ownFiles entries)).map fun name => [name]).Pairwise Before := by
      rw [List.pairwise_map]
      exact (Text.Order.pairwise_lt_sort ((ownFiles_sublist entries).nodup h.names)).imp .files
    have heach : ∀ found ∈ inOrder (belowEach entries),
        ∃ inner, (found.1, .directory inner) ∈ entries ∧ found.2 = below (.directory inner) := by
      intro found hfound
      obtain ⟨inner, hinner, -, hpaths⟩ := mem_belowEach.1 (mem_inOrder.1 hfound)
      exact ⟨inner, hinner, hpaths⟩
    have hinside : ∀ found ∈ inOrder (belowEach entries),
        (found.2.map (found.1 :: ·)).Pairwise Before := by
      intro found hfound
      obtain ⟨inner, hinner, hpaths⟩ := heach found hfound
      rw [List.pairwise_map, hpaths]
      exact (ih _ hinner rfl (h.each _ hinner)).imp .inside
    have hways : ∀ found ∈ inOrder (belowEach entries), ∀ way ∈ found.2.map (found.1 :: ·),
        ∃ rest, way = found.1 :: rest ∧ rest ≠ [] := by
      intro found hfound way hway
      obtain ⟨inner, -, hpaths⟩ := heach found hfound
      obtain ⟨rest, hrest, rfl⟩ := List.mem_map.1 hway
      exact ⟨rest, rfl, ne_nil_of_mem_below (hpaths ▸ hrest)⟩
    have hbetween : (inOrder (belowEach entries)).Pairwise fun one other =>
        ∀ way ∈ one.2.map (one.1 :: ·), ∀ further ∈ other.2.map (other.1 :: ·),
          Before way further := by
      have hnames := pairwise_inOrder ((keys_belowEach_sublist entries).nodup h.names)
      refine hnames.imp_of_mem fun {one other} hone hother hlt way hway further hfurther => ?_
      obtain ⟨rest, rfl, hrest⟩ := hways one hone way hway
      obtain ⟨more, rfl, hmore⟩ := hways other hother further hfurther
      exact .directories hlt hrest hmore
    rw [below, List.pairwise_append]
    refine ⟨hown, List.pairwise_flatMap.2 ⟨hinside, hbetween⟩, fun way hway further hfurther => ?_⟩
    obtain ⟨name, -, rfl⟩ := List.mem_map.1 hway
    obtain ⟨found, hfound, hfurther⟩ := List.mem_flatMap.1 hfurther
    obtain ⟨rest, rfl, hrest⟩ := hways found hfound further hfurther
    exact .own hrest

/-- Where the same stands at each place, the same files are found. -/
theorem below_congr {others : List (String × Entry)} (h : (Entry.directory entries).Distinct)
    (hothers : (Entry.directory others).Distinct)
    (hshells : ∀ path, (Entry.at? path (.directory others)).map Entry.shell =
      (Entry.at? path (.directory entries)).map Entry.shell) :
    below (.directory others) = below (.directory entries) := by
  have hfile : ∀ {entries others : List (String × Entry)} {directories : List String}
      {name : String}, (∀ path, (Entry.at? path (.directory others)).map Entry.shell =
        (Entry.at? path (.directory entries)).map Entry.shell) →
      IsSourceFile (.directory entries) directories name →
        IsSourceFile (.directory others) directories name := by
    rintro entries others directories name hshells ⟨⟨found, hstands, hfound⟩, hends, hentered⟩
    have hthere := hshells (directories ++ [name])
    rw [hstands, Option.map_some] at hthere
    obtain ⟨same, hsame, hshell⟩ := Option.map_eq_some_iff.1 hthere
    exact ⟨⟨same, hsame, hshell ▸ hfound⟩, hends, hentered⟩
  refine (pairwise_below hothers).eq_of_mem_iff (pairwise_below h) fun parts => ?_
  rw [mem_below hothers, mem_below h]
  constructor
  · rintro ⟨directories, name, hparts, hsource⟩
    exact ⟨directories, name, hparts, hfile (fun path => (hshells path).symm) hsource⟩
  · rintro ⟨directories, name, hparts, hsource⟩
    exact ⟨directories, name, hparts, hfile hshells hsource⟩

/-! ## Scans -/

variable {fs others : FileSystem} {p : Path}

/-- The scan of a directory goes through what the path leads to. -/
theorem filesOfPath_of_directory (h : fs.isDirectory p = true) :
    ∃ entries, fs.find p = .ok (.directory entries) ∧
      filesOfPath fs p =
        (below (.directory entries)).map fun way => { p with parts := p.parts ++ way } := by
  have hfound : ∃ entries, fs.find p = .ok (.directory entries) := by
    unfold FileSystem.isDirectory at h
    split at h
    · rename_i entries hentries
      exact ⟨entries, hentries⟩
    · cases h
  obtain ⟨entries, hentries⟩ := hfound
  refine ⟨entries, hentries, ?_⟩
  rw [filesOfPath, h, hentries]

/-- No name stands twice in what a path leads to. -/
theorem distinct_of_find (hdistinct : fs.Distinct) (h : fs.find p = .ok e) : e.Distinct := by
  obtain ⟨place, -, hentry⟩ := FileSystem.find_eq_ok_iff.1 h
  exact hdistinct.at? hentry

/-- What a path leads to is found in another listing, too, with the same below it. -/
theorem exists_find_of_relisted (hrelisted : fs.Relisted others) (hdistinct : fs.Distinct)
    (h : fs.find p = .ok e) :
    ∃ same, others.find p = .ok same ∧
      ∀ path, (Entry.at? path same).map Entry.shell = (Entry.at? path e).map Entry.shell := by
  obtain ⟨place, hplace, hentry⟩ := FileSystem.find_eq_ok_iff.1 h
  have hshells := hrelisted.shellAt? hdistinct
  have hsame : (others.entryAt? place).map Entry.shell = some e.shell := by
    have hthere := hshells place
    rw [FileSystem.shellAt?, FileSystem.shellAt?, hentry] at hthere
    exact hthere
  obtain ⟨same, hstands, -⟩ := Option.map_eq_some_iff.1 hsame
  have horigin : others.origin p = fs.origin p := by
    rw [FileSystem.origin, FileSystem.origin, hrelisted.working]
  refine ⟨same, FileSystem.find_eq_ok_iff.2 ⟨place, ?_, hstands⟩, fun path => ?_⟩
  · rw [horigin]
    exact (hrelisted.follow hdistinct).2 hplace
  · have hthere := hshells (place ++ path)
    simp only [FileSystem.shellAt?, FileSystem.entryAt?, Entry.at?_append] at hthere
    rw [FileSystem.entryAt?] at hentry hstands
    rwa [hentry, hstands] at hthere

/-- What is a directory is one in every listing. -/
theorem isDirectory_of_relisted (hrelisted : fs.Relisted others) (hdistinct : fs.Distinct)
    (h : fs.isDirectory p = true) : others.isDirectory p = true := by
  have hnull : p.hasNull = false := by
    unfold FileSystem.isDirectory at h
    split at h
    · simpa using h
    · cases h
  obtain ⟨entries, hentries, -⟩ := filesOfPath_of_directory h
  obtain ⟨same, hsame, hshells⟩ := exists_find_of_relisted hrelisted hdistinct hentries
  have hshell : same.shell = .directory [] := Option.some.inj (hshells [])
  obtain ⟨listed, rfl⟩ := Entry.eq_directory_of_shell hshell
  rw [FileSystem.isDirectory, hsame]
  simp [hnull]

/-- **Another listing of the tree changes nothing.** -/
theorem filesOfPath_of_relisted (hrelisted : fs.Relisted others) (hdistinct : fs.Distinct)
    (p : Path) : filesOfPath others p = filesOfPath fs p := by
  by_cases hdirectory : fs.isDirectory p = true
  · obtain ⟨entries, hentries, hfiles⟩ := filesOfPath_of_directory hdirectory
    obtain ⟨listed, hlisted, hothers⟩ :=
      filesOfPath_of_directory (isDirectory_of_relisted hrelisted hdistinct hdirectory)
    obtain ⟨same, hsame, hshells⟩ := exists_find_of_relisted hrelisted hdistinct hentries
    obtain rfl : same = .directory listed := Except.ok.inj (hsame.symm.trans hlisted)
    have hbelow : below (.directory listed) = below (.directory entries) :=
      below_congr (distinct_of_find hdistinct hentries)
        (distinct_of_find (hrelisted.distinct hdistinct) hlisted) hshells
    rw [hfiles, hothers, hbelow]
  · have hplain : ∀ {fs : FileSystem}, ¬ fs.isDirectory p = true →
        filesOfPath fs p = if p.ending = sourceEnding then [p] else [] := by
      intro fs hfile
      rw [filesOfPath, Bool.eq_false_iff.2 hfile]
    have hother : ¬ others.isDirectory p = true := fun h =>
      hdirectory (isDirectory_of_relisted hrelisted.symm (hrelisted.distinct hdistinct) h)
    rw [hplain hdirectory, hplain hother]

/-- **The scan of a directory is exact and stable.** If no directory lists a name twice, the scan
of a directory finds the ways to the source files below it that lead through no directory that is
left out, each once: in every directory its own files come first, in order, and then its
subdirectories, in order. The order in which directories list their entries makes no difference,
and several paths are scanned one after another. -/
theorem source_scan_is_exact (hdistinct : fs.Distinct) :
    (∀ p, fs.isDirectory p = true → ∃ (e : Entry) (ways : List (List String)),
        fs.find p = .ok e ∧
        filesOfPaths fs [p] = ways.map (fun way => { p with parts := p.parts ++ way }) ∧
        (∀ way, way ∈ ways ↔
          ∃ directories name, way = directories ++ [name] ∧ IsSourceFile e directories name) ∧
        ways.Pairwise Before ∧ (filesOfPaths fs [p]).Nodup) ∧
      (∀ others, fs.Relisted others → ∀ paths, filesOfPaths others paths = filesOfPaths fs paths) ∧
      ∀ paths, filesOfPaths fs paths = paths.flatMap fun p => filesOfPaths fs [p] := by
  have hsingle : ∀ (fs : FileSystem) (p : Path), filesOfPaths fs [p] = filesOfPath fs p :=
    fun fs p => List.append_nil _
  refine ⟨fun p hdirectory => ?_, fun others hrelisted paths => ?_, fun paths => ?_⟩
  · obtain ⟨entries, hentries, hfiles⟩ := filesOfPath_of_directory hdirectory
    have hbelow := distinct_of_find hdistinct hentries
    have hordered := pairwise_below hbelow
    refine ⟨_, below (.directory entries), hentries, ?_, fun way => mem_below hbelow, hordered, ?_⟩
    · rw [hsingle, hfiles]
    · have hnodup : (below (.directory entries)).Nodup := by
        refine hordered.imp fun {way further} h heq => ?_
        rw [heq] at h
        exact Before.irrefl further h
      rw [hsingle, hfiles]
      refine hnodup.map fun way further heq => ?_
      exact List.append_cancel_left (congrArg Path.parts heq)
  · exact List.flatMap_congr fun p _ => filesOfPath_of_relisted hrelisted hdistinct p
  · exact List.flatMap_congr fun p _ => (hsingle fs p).symm

end

/-- A project with a directory that has the name of a source file, and one that is left out. -/
def project : FileSystem where
  root :=
    [("app", .directory
      [("views", .directory [("b.py", .file .empty), ("a.py", .file .empty)]),
       ("build", .directory [("c.py", .file .empty)]),
       ("main.py", .file .empty),
       ("data.py", .directory [("table.py", .file .empty), ("notes.txt", .file .empty)]),
       ("__init__.py", .file .empty)])]

theorem source_scan_is_exact_project : project.Distinct ∧
    project.isDirectory (.ofText "app") = true ∧
    ∃ ways : List (List String),
      filesOfPaths project [.ofText "app"] =
        ways.map (fun way => { Path.ofText "app" with parts := ["app"] ++ way }) ∧
      ways.Pairwise Before ∧ ["data.py", "table.py"] ∈ ways ∧ ["data.py"] ∉ ways ∧
      ["build", "c.py"] ∉ ways := by
  have hfile : (Entry.file .empty).Distinct := .file .empty
  have hdistinct : project.Distinct := by
    refine .directory (by decide) ?_
    simp only [project, List.forall_mem_cons]
    refine ⟨.directory (by decide) ?_, nofun⟩
    simp only [List.forall_mem_cons]
    refine ⟨.directory (by decide) ?_, .directory (by decide) ?_, hfile,
      .directory (by decide) ?_, hfile, nofun⟩
    · simp [hfile]
    · simp [hfile]
    · simp [hfile]
  have hdirectory : project.isDirectory (.ofText "app") = true := by decide +kernel
  obtain ⟨e, ways, hfind, hfiles, hways, hordered, -⟩ :=
    (source_scan_is_exact hdistinct).1 (.ofText "app") hdirectory
  cases hfind
  refine ⟨hdistinct, hdirectory, ways, hfiles, hordered, (hways _).2 ?_, fun hdata => ?_,
    fun hbuild => ?_⟩
  · exact ⟨["data.py"], "table.py", rfl, ⟨_, rfl, nofun⟩, ⟨"table", by decide⟩, by decide⟩
  · obtain ⟨directories, name, hway, ⟨found, hstands, hfound⟩, -, -⟩ := (hways _).1 hdata
    have hsplit : [] ++ ["data.py"] = directories ++ [name] := hway
    obtain ⟨rfl, hname⟩ := List.append_inj' hsplit rfl
    cases hname
    cases hstands
    exact hfound rfl
  · obtain ⟨directories, name, hway, -, -, hentered⟩ := (hways _).1 hbuild
    have hsplit : ["build"] ++ ["c.py"] = directories ++ [name] := hway
    obtain ⟨rfl, -⟩ := List.append_inj' hsplit rfl
    exact hentered "build" List.mem_cons_self (by decide)

end SampleTypes.Discovery
