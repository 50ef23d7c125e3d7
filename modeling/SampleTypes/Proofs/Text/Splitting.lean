import Mathlib.Data.List.DropRight
import SampleTypes.Files.Path
import SampleTypes.Text.Blank

/-!
# Splitting and trimming

Texts are split at commas, slashes and points, always in the same way: between two marks stands a
part, and so does in front of the first and behind the last. No part holds the mark. What is joined
with marks falls apart into the parts of each piece, whether or not the pieces hold marks of their
own.

Trimming leaves nothing that trimming removes at either end, and a list with such ends is not
touched. So the trimmed lists are those that trimming leaves alone (`trimBoth_eq_self_iff`).

## Main results

* `Blank.splitOn_eq`, `splitSlashes_eq`: the splitting of lists in general.
* `notMem_of_mem_splitOn`: no part holds the mark.
* `splitOn_intercalate_eq_flatMap`: the parts of lists joined with marks.
* `isTrimmed_trimBoth`, `trimBoth_eq_self_iff`: what trimming leaves alone.
-/

namespace SampleTypes.Text

variable {mark : Char} {cs : List Char}

/-! ## Splitting -/

/-- What puts each character where splitting puts it is splitting. -/
theorem eq_splitOn_of_step {f : List Char → List (List Char)} (hnil : f [] = [[]])
    (hcons : ∀ c rest part parts, f rest = part :: parts →
      f (c :: rest) = if c = mark then [] :: part :: parts else (c :: part) :: parts)
    (cs : List Char) : f cs = cs.splitOn mark := by
  induction cs with
  | nil => exact hnil
  | cons c rest ih =>
    obtain ⟨part, parts, hrest⟩ := List.exists_cons_of_ne_nil (List.splitOn_ne_nil mark rest)
    rw [hcons c rest part parts (ih.trans hrest), List.splitOn_cons_eq_if_modifyHead, hrest]
    by_cases hmark : c = mark <;> simp [hmark]

theorem Blank.splitOn_eq (mark : Char) (cs : List Char) :
    Blank.splitOn mark cs = cs.splitOn mark :=
  eq_splitOn_of_step rfl (fun c rest part parts h => by simp only [Blank.splitOn, h]) cs

theorem splitSlashes_eq (cs : List Char) : Files.Path.splitSlashes cs = cs.splitOn '/' :=
  eq_splitOn_of_step rfl (fun c rest part parts h => by simp only [Files.Path.splitSlashes, h]) cs

/-- No part holds the mark. -/
theorem notMem_of_mem_splitOn {part : List Char} (h : part ∈ cs.splitOn mark) : mark ∉ part := by
  induction cs generalizing part with
  | nil =>
    rw [List.splitOn_nil, List.mem_singleton] at h
    exact h ▸ List.not_mem_nil
  | cons c rest ih =>
    obtain ⟨first, others, hrest⟩ := List.exists_cons_of_ne_nil (List.splitOn_ne_nil mark rest)
    rw [hrest] at ih
    rw [List.splitOn_cons_eq_if_modifyHead, hrest] at h
    split at h
    · rcases List.mem_cons.1 h with rfl | h
      · exact List.not_mem_nil
      · exact ih h
    · rename_i hmark
      rcases List.mem_cons.1 h with rfl | h
      · rw [List.mem_cons, not_or]
        exact ⟨fun hc => hmark (beq_iff_eq.2 hc.symm), ih List.mem_cons_self⟩
      · exact ih (List.mem_cons_of_mem _ h)

/-- **Lists joined with marks** fall apart into the parts of each of them. -/
theorem splitOn_intercalate_eq_flatMap {pieces : List (List Char)} (h : pieces ≠ []) :
    ([mark].intercalate pieces).splitOn mark = pieces.flatMap (List.splitOn mark) := by
  induction pieces with
  | nil => exact absurd rfl h
  | cons piece rest ih =>
    cases rest with
    | nil => simp
    | cons next others =>
      rw [List.intercalate_cons_cons, List.append_assoc, List.singleton_append,
        List.splitOn_append_cons_self, ih (List.cons_ne_nil _ _)]
      rfl

/-! ## Trimming -/

/-- Neither end is what trimming removes. -/
structure IsTrimmed (p : Char → Bool) (cs : List Char) : Prop where
  head : ∀ c, cs.head? = some c → p c = false
  last : ∀ c, cs.getLast? = some c → p c = false

variable {p : Char → Bool}

/-- Trimming takes characters away and adds none. -/
theorem mem_of_mem_trimBoth {c : Char} (h : c ∈ Blank.trimBoth p cs) : c ∈ cs := by
  rw [Blank.trimBoth, List.mem_reverse] at h
  have hfront := List.mem_reverse.1 ((List.dropWhile_sublist p).subset h)
  exact (List.dropWhile_sublist p).subset hfront

theorem isTrimmed_trimBoth (p : Char → Bool) (cs : List Char) :
    IsTrimmed p (Blank.trimBoth p cs) where
  head := by
    intro c hc
    -- What is left begins where the front has been trimmed already.
    obtain ⟨behind, hfront⟩ := List.rdropWhile_prefix p (cs.dropWhile p)
    have hhead : (cs.dropWhile p).head? = some c := by
      rw [← hfront, List.head?_append, show ((cs.dropWhile p).rdropWhile p).head? = some c from hc]
      rfl
    have hnot := List.head?_dropWhile_not p cs
    rwa [hhead] at hnot
  last := by
    intro c hc
    have hsome : (cs.dropWhile p).rdropWhile p ≠ [] := by
      intro hnil
      rw [Blank.trimBoth, ← List.rdropWhile, hnil] at hc
      cases hc
    have hnot := List.rdropWhile_last_not p (cs.dropWhile p) hsome
    rw [Blank.trimBoth, ← List.rdropWhile, List.getLast?_eq_some_getLast hsome] at hc
    rwa [Option.some.inj hc, Bool.not_eq_true] at hnot

/-- **Trimming leaves alone** exactly what is trimmed. -/
theorem trimBoth_eq_self_iff : Blank.trimBoth p cs = cs ↔ IsTrimmed p cs := by
  constructor
  · intro h
    exact h ▸ isTrimmed_trimBoth p cs
  · intro h
    have hfront : cs.dropWhile p = cs := by
      cases cs with
      | nil => rfl
      | cons c rest => exact List.dropWhile_cons_of_neg (by simp [h.head c rfl])
    have hback : cs.rdropWhile p = cs := by
      refine List.rdropWhile_eq_self_iff.2 fun hsome => ?_
      simp [h.last _ (List.getLast?_eq_some_getLast hsome)]
    show (cs.dropWhile p).rdropWhile p = cs
    rw [hfront, hback]

end SampleTypes.Text
