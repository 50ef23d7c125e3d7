import SampleTypes.Proofs.Assoc.Bindings
import SampleTypes.Proofs.Files.Trees
import SampleTypes.Proofs.Loops

/-!
# Trees and their listings

A directory lists its entries in some order, and a tree may be listed in many ways. As long as no
name stands twice in a directory, nothing that a path leads to depends on this order: what stands at
a place, seen from outside, is the same in all listings of a tree.

## Main results

* `Entry.Relisted.shell_at?`: at each place two listings of a tree have the same.
* `FileSystem.Relisted.follow`: paths lead to the same places.
-/

namespace SampleTypes.Files

namespace Entry

/-- Induction over the directories of a tree: what holds of files, and of a directory when it holds
of its entries, holds of every entry. -/
@[elab_as_elim]
theorem treeInduction {motive : Entry → Prop} (file : ∀ octets, motive (.file octets))
    (sink : motive .sink)
    (directory : ∀ entries : List (String × Entry), (∀ named ∈ entries, motive named.2) →
      motive (.directory entries)) (e : Entry) : motive e := by
  match e with
  | .file octets => exact file octets
  | .sink => exact sink
  | .directory entries =>
    exact directory entries fun named _ => treeInduction file sink directory named.2
termination_by sizeOf e
decreasing_by
  rename_i h
  have hlt := List.sizeOf_lt_of_mem h
  rcases named with ⟨name, e⟩
  simp only [Prod.mk.sizeOf_spec, Entry.directory.sizeOf_spec] at hlt ⊢
  omega

/-- No directory of the tree lists a name twice. -/
inductive Distinct : Entry → Prop where
  | file (octets : ByteArray) : Distinct (.file octets)
  | sink : Distinct .sink
  | directory {entries : List (String × Entry)} (names : (Assoc.keys entries).Nodup)
      (each : ∀ named ∈ entries, Distinct named.2) : Distinct (.directory entries)

/-- Two listings of one tree: the entries of directories are listed in different orders. -/
inductive Relisted : Entry → Entry → Prop where
  | refl (e : Entry) : Relisted e e
  | trans {e other last : Entry} : Relisted e other → Relisted other last → Relisted e last
  | reordered {entries others : List (String × Entry)} :
      entries.Perm others → Relisted (.directory entries) (.directory others)
  | inside {e other : Entry} (front : List (String × Entry)) (name : String)
      (back : List (String × Entry)) : Relisted e other →
      Relisted (.directory (front ++ (name, e) :: back))
        (.directory (front ++ (name, other) :: back))

section

variable {name : String} {e other found : Entry} {entries others : List (String × Entry)}
  {path : List String}

/-- The entry of a name is what the listing binds the name to. -/
theorem child?_eq_get? (name : String) (entries : List (String × Entry)) :
    child? name entries = Assoc.get? name entries := by
  induction entries with
  | nil => rfl
  | cons first rest ih =>
    show (if first.1 = name then some first.2 else child? name rest) = _
    rw [ih, Assoc.get?_cons]

/-- Where no name stands twice, the entry of a name is the one that is listed under it. -/
theorem child?_eq_some (h : (Assoc.keys entries).Nodup) :
    child? name entries = some e ↔ (name, e) ∈ entries := by
  rw [child?_eq_get?]
  exact ⟨Assoc.mem_of_get?, Assoc.get?_of_mem h⟩

/-- What is found behind a name stands in a directory, under this name. -/
theorem at?_cons_eq_some (h : at? (name :: path) e = some found) :
    ∃ entries inner, e = .directory entries ∧ child? name entries = some inner ∧
      at? path inner = some found := by
  cases e with
  | directory entries =>
    obtain ⟨inner, hinner, hfound⟩ := Option.bind_eq_some_iff.1 h
    exact ⟨entries, inner, rfl, hinner, hfound⟩
  | file octets => cases h
  | sink => cases h

theorem Distinct.names (h : Distinct (.directory entries)) : (Assoc.keys entries).Nodup := by
  cases h with
  | directory names each => exact names

theorem Distinct.each (h : Distinct (.directory entries)) : ∀ named ∈ entries, Distinct named.2 := by
  cases h with
  | directory names each => exact each

/-- No name stands twice in any part of the tree. -/
theorem Distinct.at? (h : Distinct e) (hfound : at? path e = some found) : Distinct found := by
  induction path generalizing e with
  | nil =>
    cases hfound
    exact h
  | cons name rest ih =>
    obtain ⟨entries, inner, rfl, hinner, hrest⟩ := at?_cons_eq_some hfound
    have hmem : (name, inner) ∈ entries := (child?_eq_some h.names).1 hinner
    exact ih (h.each _ hmem) hrest

/-- In another listing no name stands twice either. -/
theorem Relisted.distinct (h : Relisted e other) (hdistinct : Distinct e) : Distinct other := by
  induction h with
  | refl e => exact hdistinct
  | trans _ _ ihfirst ihsecond => exact ihsecond (ihfirst hdistinct)
  | reordered hperm =>
    apply Distinct.directory
    · exact (hperm.map Prod.fst).nodup_iff.1 hdistinct.names
    · exact fun named hnamed => hdistinct.each named (hperm.mem_iff.2 hnamed)
  | @inside e other front name back _ ih =>
    have hkeys : Assoc.keys (front ++ (name, other) :: back) =
        Assoc.keys (front ++ (name, e) :: back) := by
      simp only [Assoc.keys, List.map_append, List.map_cons]
    apply Distinct.directory
    · rw [hkeys]
      exact hdistinct.names
    · intro named hnamed
      rw [List.mem_append, List.mem_cons] at hnamed
      rcases hnamed with hfront | rfl | hback
      · exact hdistinct.each named (List.mem_append_left _ hfront)
      · exact ih (hdistinct.each (name, e) (by simp))
      · exact hdistinct.each named (by simp [hback])

/-- An entry that is listed in another way leaves the others of its directory as they are. -/
theorem child?_append_cons (start : String) (front : List (String × Entry)) (name : String)
    (e other : Entry) (back : List (String × Entry)) :
    child? start (front ++ (name, other) :: back) = child? start (front ++ (name, e) :: back) ∨
      child? start (front ++ (name, e) :: back) = some e ∧
        child? start (front ++ (name, other) :: back) = some other := by
  induction front with
  | nil =>
    by_cases hstart : name = start
    · right
      exact ⟨if_pos hstart, if_pos hstart⟩
    · left
      show (if name = start then _ else child? start back) = if name = start then _ else _
      rw [if_neg hstart, if_neg hstart]
  | cons first rest ih =>
    by_cases hstart : first.1 = start
    · left
      show (if first.1 = start then _ else _) = if first.1 = start then _ else _
      rw [if_pos hstart, if_pos hstart]
    · have hskip : ∀ entries : List (String × Entry),
          child? start (first :: entries) = child? start entries := fun _ => if_neg hstart
      rw [List.cons_append, List.cons_append, hskip, hskip]
      exact ih

theorem Relisted.symm (h : Relisted e other) : Relisted other e := by
  induction h with
  | refl e => exact .refl e
  | trans _ _ ihfirst ihsecond => exact .trans ihsecond ihfirst
  | reordered hperm => exact .reordered hperm.symm
  | inside front name back _ ih => exact .inside front name back ih

/-- **At each place two listings of a tree have the same**, seen from outside. -/
theorem Relisted.shell_at? (h : Relisted e other) (hdistinct : Distinct e) (path : List String) :
    (at? path other).map shell = (at? path e).map shell := by
  induction h generalizing path with
  | refl e => rfl
  | trans hfirst _ ihfirst ihsecond =>
    rw [ihsecond (hfirst.distinct hdistinct), ihfirst hdistinct]
  | @reordered entries others hperm =>
    cases path with
    | nil => rfl
    | cons start rest =>
      have hothers : (Assoc.keys others).Nodup := (hperm.map Prod.fst).nodup_iff.1 hdistinct.names
      have hsame : child? start others = child? start entries := by
        apply Option.ext
        intro found
        rw [child?_eq_some hothers, child?_eq_some hdistinct.names, hperm.mem_iff]
      show ((child? start others).bind (at? rest)).map shell = _
      rw [hsame]
      rfl
  | @inside e other front name back _ ih =>
    cases path with
    | nil => rfl
    | cons start rest =>
      show ((child? start (front ++ (name, other) :: back)).bind (at? rest)).map shell =
        ((child? start (front ++ (name, e) :: back)).bind (at? rest)).map shell
      rcases child?_append_cons start front name e other back with hsame | ⟨hold, hnew⟩
      · rw [hsame]
      · rw [hold, hnew]
        exact ih (hdistinct.each (name, e) (by simp)) rest

end

end Entry

namespace FileSystem

/-- No directory lists a name twice. -/
def Distinct (fs : FileSystem) : Prop :=
  (Entry.directory fs.root).Distinct

/-- Two listings of the same files, seen from the same directory. -/
structure Relisted (fs other : FileSystem) : Prop where
  root : (Entry.directory fs.root).Relisted (.directory other.root)
  working : other.working = fs.working

section

variable {fs other : FileSystem} {p : Path} {here parts place : List String} {e : Entry}

theorem Relisted.symm (h : Relisted fs other) : Relisted other fs :=
  ⟨h.root.symm, h.working.symm⟩

theorem Relisted.distinct (h : Relisted fs other) (hdistinct : fs.Distinct) : other.Distinct :=
  h.root.distinct hdistinct

theorem Relisted.shellAt? (h : Relisted fs other) (hdistinct : fs.Distinct) (path : List String) :
    other.shellAt? path = fs.shellAt? path :=
  h.root.shell_at? hdistinct path

/-- **Paths lead to the same places** in all listings. -/
theorem Relisted.follow (h : Relisted fs other) (hdistinct : fs.Distinct) :
    other.follow here parts = .ok place ↔ fs.follow here parts = .ok place := by
  have hshells := h.shellAt? hdistinct
  have hforth : Kept (fun _ => False) fs other :=
    ⟨h.working, fun path e he => Or.inl ((hshells path).trans he)⟩
  have hback : Kept (fun _ => False) other fs :=
    ⟨h.working.symm, fun path e he => Or.inl ((hshells path).symm.trans he)⟩
  exact ⟨hback.follow, hforth.follow⟩

/-- What a path leads to stands at a place. -/
theorem find_eq_ok_iff :
    fs.find p = .ok e ↔
      ∃ place, fs.follow (fs.origin p) p.parts = .ok place ∧ fs.entryAt? place = some e := by
  unfold FileSystem.find
  rw [Loops.bind_eq_ok]
  refine exists_congr fun place => and_congr_right fun _ => ?_
  cases fs.entryAt? place with
  | none =>
    constructor
    · intro h
      cases h
    · intro h
      cases h
  | some found =>
    constructor
    · intro h
      cases h
      rfl
    · intro h
      cases h
      rfl

end

end FileSystem

end SampleTypes.Files
