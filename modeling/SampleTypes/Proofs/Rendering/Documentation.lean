import Mathlib.Algebra.Group.Even
import SampleTypes.Proofs.Rendering.Lines

/-!
# Documentation cannot be left

The name of a type and the keys of its skipped fields are taken from a document, and they are
written between the triple quotes of a string in code. A reader of source looks for two things
there: quotes, which could end the string early, and backslashes, which could protect the quotes at
its end. Double quotes are replaced by single ones, and every backslash is doubled, so that none is
left over.

That backslashes stand in pairs is the invariant of this module. It makes the escapes undoable and
the runs of backslashes even, and where there are no double quotes it keeps the reader inside.

## Main results

* `undone?_documentationChars`: the escapes can be undone.
* `evenRuns_of_undone?`: where escapes can be undone, every run of backslashes is even.
* `documentation_stays_inside`: the documentation of any class.
-/

namespace SampleTypes.ClassModule

/-- A text with its escapes undone: two backslashes are one. A backslash of its own, and one in
front of anything else, is no escape that a documentation may hold. -/
def undone? : List Char → Option (List Char)
  | [] => some []
  | '\\' :: '\\' :: rest => (undone? rest).map ('\\' :: ·)
  | '\\' :: _ => none
  | c :: rest => (undone? rest).map (c :: ·)

/-- Every run of backslashes that no further one makes longer is of even length. -/
def EvenRuns (cs : List Char) : Prop :=
  ∀ front back n, cs = front ++ (List.replicate n '\\' ++ back) → front.getLast? ≠ some '\\' →
    back.head? ≠ some '\\' → Even n

/-- A character as a documentation shows it. -/
def unquoted (c : Char) : Char :=
  if c = '"' then '\'' else c

/-- The documentation of a class between its quotes. -/
def ClassBlock.literal (c : ClassBlock) : String :=
  "\"\"\"" ++ c.documentation ++ "\"\"\""

section

variable {c : Char} {front back rest text : List Char}

/-! ## Escapes in pairs -/

theorem undone?_cons (h : c ≠ '\\') (rest : List Char) :
    undone? (c :: rest) = (undone? rest).map (c :: ·) := by
  rw [undone?.eq_def]
  split
  case h_1 heq => cases heq
  case h_2 heq => exact absurd (List.cons.inj heq).1 h
  case h_3 heq => exact absurd (List.cons.inj heq).1 h
  case h_4 heq =>
    cases heq
    rfl

/-- A backslash that is not one of a pair cannot be undone. -/
theorem undone?_loose (h : rest.head? ≠ some '\\') : undone? ('\\' :: rest) = none := by
  rw [undone?.eq_def]
  split
  case h_1 heq => cases heq
  case h_2 heq =>
    cases heq
    exact absurd rfl h
  case h_3 => rfl
  case h_4 hslash heq => exact absurd (List.cons.inj heq).1.symm hslash

/-- **The escapes can be undone**, and what is left is the text with single quotes. -/
theorem undone?_documentationChars (cs : List Char) :
    undone? (documentationChars cs) = some (cs.map unquoted) := by
  induction cs with
  | nil => rfl
  | cons c others ih =>
    have hsplit : documentationChars (c :: others) =
        (if c = '\\' then ['\\', '\\'] else if c = '"' then ['\''] else [c]) ++
          documentationChars others := List.flatMap_cons
    rw [hsplit, List.map_cons, unquoted]
    by_cases hslash : c = '\\'
    · subst hslash
      show (undone? (documentationChars others)).map ('\\' :: ·) = _
      rw [ih]
      rfl
    · rw [if_neg hslash]
      by_cases hquote : c = '"'
      · rw [if_pos hquote, if_pos hquote, List.singleton_append, undone?_cons (by decide), ih]
        rfl
      · rw [if_neg hquote, if_neg hquote, List.singleton_append, undone?_cons hslash, ih]
        rfl

/-- Pairs do not reach over a character that is no backslash. -/
theorem undone?_of_append (h : undone? (front ++ rest) = some text)
    (hfront : front.getLast? ≠ some '\\') : ∃ inner, undone? rest = some inner := by
  induction front using undone?.induct generalizing text with
  | case1 => exact ⟨text, h⟩
  | case2 later ih =>
    obtain ⟨inner, hinner, -⟩ := Option.map_eq_some_iff.1 h
    cases later with
    | nil => exact absurd rfl hfront
    | cons next others => exact ih hinner hfront
  | case3 later hpair =>
    cases later with
    | nil => exact absurd rfl hfront
    | cons next others =>
      have hnext : (next :: (others ++ rest)).head? ≠ some '\\' := by
        intro heq
        cases heq
        exact hpair others rfl
      rw [List.cons_append, List.cons_append, undone?_loose hnext] at h
      cases h
  | case4 c later hpair hslash ih =>
    rw [List.cons_append, undone?_cons hslash] at h
    obtain ⟨inner, hinner, -⟩ := Option.map_eq_some_iff.1 h
    cases later with
    | nil => exact ⟨inner, hinner⟩
    | cons next others => exact ih hinner hfront

/-- A run of backslashes that can be undone is even. -/
theorem even_of_undone?_replicate {n : Nat} {text : List Char}
    (h : undone? (List.replicate n '\\' ++ back) = some text) (hback : back.head? ≠ some '\\') :
    Even n := by
  match n with
  | 0 => exact ⟨0, rfl⟩
  | 1 =>
    rw [List.replicate_one, List.singleton_append, undone?_loose hback] at h
    cases h
  | n + 2 =>
    obtain ⟨inner, hinner, -⟩ := Option.map_eq_some_iff.1 h
    obtain ⟨half, rfl⟩ := even_of_undone?_replicate hinner hback
    exact ⟨half + 1, by omega⟩

/-- **Where escapes can be undone, every run of backslashes is even.** -/
theorem evenRuns_of_undone? {cs : List Char} (h : undone? cs = some text) : EvenRuns cs := by
  rintro front back n rfl hfront hback
  obtain ⟨inner, hinner⟩ := undone?_of_append h hfront
  exact even_of_undone?_replicate hinner hback

/-! ## Inside the quotes -/

theorem notMem_documentationChars (cs : List Char) : '"' ∉ documentationChars cs := by
  intro hmem
  obtain ⟨c, -, hc⟩ := List.mem_flatMap.1 hmem
  split at hc
  · simp at hc
  · split at hc
    · simp at hc
    · rename_i hquote
      exact hquote (List.mem_singleton.1 hc).symm

/-- **Documentation cannot be left.** Every definition has a class, whose documentation stands in
triple quotes below its first line, whatever the type and its fields are called and whatever the
notes say. It holds no double quote, and its runs of backslashes are even. So a reader of code that
comes to the quotes reads one string up to the last of them, whatever stands behind it; and if the
escapes are undone, what is left is the intended text with single quotes for double ones. -/
theorem documentation_stays_inside (reserved : List String) (d : Definition) :
    ∃ block, classBlock reserved d = .ok block ∧ block.lines[1]? = some ("    " ++ block.literal) ∧
      '"' ∉ block.documentation.toList ∧ EvenRuns block.documentation.toList ∧
      (∀ fuel contexts rest, block.literal.length ≤ fuel →
        Source.Token.codeStep fuel contexts (block.literal.toList ++ rest) =
          .ok (some (.string, "\""), contexts, rest)) ∧
      undone? block.documentation.toList = some ((documentation d).toList.map unquoted) := by
  have hchars : (blockOf reserved d).documentation.toList =
      documentationChars (documentation d).toList := String.toList_ofList
  have hundone : undone? (blockOf reserved d).documentation.toList =
      some ((documentation d).toList.map unquoted) := by
    rw [hchars]
    exact undone?_documentationChars _
  refine ⟨_, classBlock_eq reserved d, rfl, ?_, evenRuns_of_undone? hundone, ?_, hundone⟩
  · rw [hchars]
    exact notMem_documentationChars _
  · intro fuel contexts rest hfuel
    have hliteral : (blockOf reserved d).literal.toList ++ rest =
        '"' :: '"' :: '"' :: (documentationChars (documentation d).toList ++
          '"' :: '"' :: '"' :: rest) := by
      simp [ClassBlock.literal, hchars]
    have hlength : (documentationChars (documentation d).toList).length < fuel := by
      rw [← String.length_toList] at hfuel
      simp only [ClassBlock.literal, String.toList_append, hchars, List.length_append] at hfuel
      have hquotes : "\"\"\"".toList.length = 3 := rfl
      omega
    rw [hliteral]
    exact Source.Token.codeStep_block (inside_documentation _) hlength

/-- A name that tries to end the string, and then to protect its end. -/
example : (blockOf [] { name := "x\"\"\"y\\" }).literal =
    "\"\"\"Synthesized type x'''y\\\\.\"\"\"" := by
  decide

end

end SampleTypes.ClassModule
