import SampleTypes.Proofs.Command.Targets

/-!
# Paths and their texts

A path that comes from a text is canonical: its root is one of three, and no part of it is empty, a
point, or has a slash in it. The text of a canonical path leads back to the path; so it says
something, and no two of them have one text.

The text is read back by splitting it at its slashes, which no part holds. Those of the root leave
empty parts, which are dropped, so the root is looked at last.

## Main results

* `isCanonical_ofText`, `IsCanonical.join`: the paths that commands work on.
* `ofText_text`: a canonical path is read back from its text.
* `IsCanonical.text_ne`: the text says something.
-/

namespace SampleTypes.Files.Path

/-- A part that a text can write. -/
structure IsPart (part : String) : Prop where
  ne_empty : part ≠ ""
  ne_point : part ≠ "."
  slash_notMem : '/' ∉ part.toList

/-- A path as it comes from a text. -/
structure IsCanonical (p : Path) : Prop where
  root_eq : p.root = "" ∨ p.root = "/" ∨ p.root = "//"
  parts : ∀ part ∈ p.parts, IsPart part

variable {p base : Path}

/-! ## Splitting -/

/-- A slash in front leaves an empty part. -/
theorem splitSlashes_slash (rest : List Char) :
    splitSlashes ('/' :: rest) = [] :: splitSlashes rest := by
  rw [Text.splitSlashes_eq, Text.splitSlashes_eq, List.splitOn_cons_eq_if_modifyHead]
  rfl

/-- Parts with slashes between them are read back. -/
theorem splitSlashes_intercalate {parts : List String} (hsome : parts ≠ [])
    (h : ∀ part ∈ parts, '/' ∉ part.toList) :
    splitSlashes ("/".intercalate parts).toList = parts.map String.toList := by
  rw [Text.splitSlashes_eq, String.toList_intercalate]
  exact List.splitOn_intercalate '/' (List.forall_mem_map.2 h) (by simpa using hsome)

/-! ## Canonical paths -/

theorem isCanonical_ofText (s : String) : (ofText s).IsCanonical where
  root_eq := by
    show rootOf s.toList = "" ∨ rootOf s.toList = "/" ∨ rootOf s.toList = "//"
    unfold rootOf
    split <;> simp
  parts := by
    intro part hpart
    simp only [ofText, List.mem_filter, List.mem_map, decide_eq_true_eq] at hpart
    obtain ⟨⟨chars, hchars, rfl⟩, hempty, hpoint⟩ := hpart
    refine ⟨hempty, hpoint, ?_⟩
    rw [Text.splitSlashes_eq] at hchars
    rw [String.toList_ofList]
    exact Text.notMem_of_mem_splitOn hchars

theorem IsCanonical.join (hbase : base.IsCanonical) (hp : p.IsCanonical) :
    (base.join p).IsCanonical := by
  unfold Path.join
  split
  · exact hp
  · exact ⟨hbase.root_eq, fun part hpart =>
      (List.mem_append.1 hpart).elim (hbase.parts part) (hp.parts part)⟩

/-- The text of parts starts with a character of the first one. -/
theorem exists_cons_of_intercalate {part : String} (h : IsPart part) (others : List String) :
    ∃ c rest, ("/".intercalate (part :: others)).toList = c :: rest ∧ c ≠ '/' := by
  obtain ⟨c, rest, hpart⟩ := List.exists_cons_of_ne_nil
    fun hnil => h.ne_empty (String.toList_eq_nil_iff.1 hnil)
  have hslash : c ≠ '/' := by
    rintro rfl
    exact h.slash_notMem (hpart ▸ List.mem_cons_self)
  cases others with
  | nil => exact ⟨c, rest, by rw [String.intercalate_singleton, hpart], hslash⟩
  | cons next others =>
    refine ⟨c, rest ++ ("/" ++ "/".intercalate (next :: others)).toList, ?_, hslash⟩
    rw [String.intercalate_cons_of_ne_nil (List.cons_ne_nil _ _), String.append_assoc,
      String.toList_append, hpart, List.cons_append]

/-- The parts that characters write. -/
def partsOf (cs : List Char) : List String :=
  ((splitSlashes cs).map String.ofList).filter fun part => part ≠ "" ∧ part ≠ "."

/-- The slashes of a root say nothing about the parts. -/
theorem partsOf_slash (rest : List Char) : partsOf ('/' :: rest) = partsOf rest := by
  rw [partsOf, splitSlashes_slash, List.map_cons]
  exact List.filter_cons_of_neg (by decide)

theorem partsOf_intercalate {parts : List String} (hsome : parts ≠ [])
    (h : ∀ part ∈ parts, IsPart part) : partsOf ("/".intercalate parts).toList = parts := by
  rw [partsOf, splitSlashes_intercalate hsome fun part hpart => (h part hpart).slash_notMem,
    List.map_map]
  simp only [Function.comp_def, String.ofList_toList, List.map_id']
  exact List.filter_eq_self.2 fun part hpart =>
    decide_eq_true ⟨(h part hpart).ne_empty, (h part hpart).ne_point⟩

/-- The root is read off the slashes in front. -/
theorem rootOf_cons {c : Char} (h : c ≠ '/') (rest : List Char) :
    rootOf (c :: rest) = "" ∧ rootOf ('/' :: c :: rest) = "/" ∧
      rootOf ('/' :: '/' :: c :: rest) = "//" := by
  simp [rootOf, h]

/-- **A canonical path is read back from its text.** -/
theorem ofText_text (h : p.IsCanonical) : ofText p.text = p := by
  rcases p with ⟨root, parts⟩
  obtain ⟨hroot, hparts⟩ := h
  dsimp only at hroot hparts
  cases parts with
  | nil => rcases hroot with rfl | rfl | rfl <;> rfl
  | cons part others =>
    have htext : (Path.mk root (part :: others)).text = root ++ "/".intercalate (part :: others) :=
      if_neg (by simp)
    obtain ⟨c, rest, hchars, hslash⟩ :=
      exists_cons_of_intercalate (hparts part List.mem_cons_self) others
    obtain ⟨hrelative, hsingle, hdouble⟩ := rootOf_cons hslash rest
    have hkept := partsOf_intercalate (List.cons_ne_nil part others) hparts
    rw [hchars] at hkept
    have hread : ofText (root ++ "/".intercalate (part :: others)) =
        { root := rootOf (root.toList ++ c :: rest)
          parts := partsOf (root.toList ++ c :: rest) } := by
      rw [← hchars, ← String.toList_append]
      rfl
    rw [htext, hread]
    rcases hroot with rfl | rfl | rfl
    · show Path.mk (rootOf (c :: rest)) (partsOf (c :: rest)) = _
      rw [hrelative, hkept]
    · show Path.mk (rootOf ('/' :: c :: rest)) (partsOf ('/' :: c :: rest)) = _
      rw [hsingle, partsOf_slash, hkept]
    · show Path.mk (rootOf ('/' :: '/' :: c :: rest)) (partsOf ('/' :: '/' :: c :: rest)) = _
      rw [hdouble, partsOf_slash, partsOf_slash, hkept]

/-- The text of a path says something. -/
theorem IsCanonical.text_ne (h : p.IsCanonical) : p.text ≠ "" := by
  intro hnothing
  have hread := ofText_text h
  rw [hnothing] at hread
  rw [← hread] at hnothing
  exact absurd hnothing (by decide)

end SampleTypes.Files.Path
