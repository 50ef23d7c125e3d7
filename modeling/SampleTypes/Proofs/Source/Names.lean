import SampleTypes.Proofs.Source.LineEnds

/-!
# Names in plain code

Which names a source binds and which it uses, as far as its tokens tell. A source is a list of clauses,
one for each line of code: a simple statement, or the first line of a compound one. Imports and classes
bind names. The bases of classes, annotations and calls use them. Names in front of an equals sign are
neither: attributes of classes and the arguments of calls.

## Main results

* `ofTokens_tokensOf`: the clauses of plain code are its lines of code.
-/

namespace SampleTypes.Source

/-- A clause as the kinds and texts of its tokens. -/
abbrev Clause := List (Token.Kind × String)

namespace Clause

/-- The clauses of a source. Margins belong to none. -/
def ofTokens (tokens : List Token) : List Clause :=
  ((tokens.filter fun t => t.kind ∉ [.indent, .dedent, .finish]).map
    fun t => (t.kind, t.text)).splitOnP fun one => one.1 = .newline

/-- The names in a clause. -/
def names (c : Clause) : List String :=
  (c.filter fun one => one.1 = .name).map Prod.snd

/-- The names that a clause imports. -/
def imported : Clause → List String
  | (.name, word) :: (.name, _) :: rest =>
    if word = "from" then names ((rest.dropWhile (· ≠ (.name, "import"))).drop 1) else []
  | _ => []

/-- The name of the class that a clause starts. -/
def defined : Clause → List String
  | (.name, word) :: (.name, name) :: _ => if word = "class" then [name] else []
  | _ => []

/-- The names that a clause binds. -/
def bound (c : Clause) : List String :=
  c.imported ++ c.defined

/-- The names in the bases of the class that a clause starts. -/
def bases : Clause → List String
  | (.name, word) :: (.name, _) :: rest => if word = "class" then names rest else []
  | _ => []

/-- The names in the annotation of a clause. -/
def annotated : Clause → List String
  | (.name, _) :: (.mark, mark) :: rest =>
    if mark = ":" then names (rest.takeWhile (· ≠ (.mark, "="))) else []
  | _ => []

/-- The names in front of a parenthesis. -/
def applied : Clause → List String
  | one :: next :: rest =>
    if one.1 = .name ∧ next = (.mark, "(") then one.2 :: applied (next :: rest)
    else applied (next :: rest)
  | _ => []

/-- The names that a clause calls. A class is not called where it starts. -/
def calls (c : Clause) : List String :=
  if c.defined = [] then c.applied else applied (c.drop 2)

/-- The names that a clause uses. -/
def used (c : Clause) : List String :=
  c.bases ++ c.annotated ++ c.calls

theorem applied_eq_nil {c : Clause} (h : (.mark, "(") ∉ c) : c.applied = [] := by
  induction c with
  | nil => rfl
  | cons one others ih =>
    rw [List.mem_cons, not_or] at h
    cases others with
    | nil => rfl
    | cons next later =>
      have hnext : ¬ (one.1 = .name ∧ next = (.mark, "(")) := by
        rintro ⟨-, rfl⟩
        exact h.2 List.mem_cons_self
      rw [applied, if_neg hnext]
      exact ih h.2

end Clause

/-! ## The clauses of plain code -/

/-- What the pieces of a line are read as, without the gaps between them. -/
def Lexeme.clauseOf (lexemes : List Lexeme) : Clause :=
  lexemes.filterMap Lexeme.reading?

/-- The clause of a line of code. -/
def Line.clause? : Line → Option Clause
  | .code _ lexemes => some (Lexeme.clauseOf lexemes)
  | _ => none

namespace Clause

section

variable {tokens : List Token}

theorem ofTokens_turn (before after : Bool) :
    ofTokens (Line.turn before after ++ tokens) = ofTokens tokens := by
  cases before <;> cases after <;> rfl

/-- A line is one clause. -/
theorem ofTokens_lineTokens (gap : Token.Gap) (lexemes : List Lexeme) :
    ofTokens (Lexeme.lineTokens gap lexemes ++ tokens) =
      Lexeme.clauseOf lexemes :: ofTokens tokens := by
  have hpieces : ((Lexeme.lineTokens gap lexemes).filter
        fun t => t.kind ∉ [.indent, .dedent, .finish]).map (fun t => (t.kind, t.text)) =
      Lexeme.clauseOf lexemes ++ [(.newline, "")] := by
    induction lexemes generalizing gap with
    | nil => rfl
    | cons one others ih =>
      rw [Lexeme.lineTokens, List.filter_append, List.map_append, ih]
      cases one <;> rfl
  have hinside : ∀ read ∈ Lexeme.clauseOf lexemes, decide (read.1 = .newline) = false := by
    intro read hread
    obtain ⟨one, -, hone⟩ := List.mem_filterMap.1 hread
    cases one <;> cases hone <;> rfl
  unfold ofTokens
  rw [List.filter_append, List.map_append, hpieces, List.append_assoc, List.singleton_append,
    List.splitOnP_append_cons_of_forall_mem hinside _ (by decide)]

/-- **The clauses of plain code** are its lines of code. Behind the last line there is nothing. -/
theorem ofTokens_tokensOf (indented : Bool) (lines : List Line) :
    ofTokens (Line.tokensOf indented lines) = lines.filterMap Line.clause? ++ [[]] := by
  induction lines generalizing indented with
  | nil => cases indented <;> rfl
  | cons line others ih =>
    cases line with
    | empty => exact ih indented
    | comment text => exact ih indented
    | code margin lexemes =>
      rw [Line.tokensOf, ofTokens_turn, ofTokens_lineTokens, ih]
      rfl

/-- Two imported names, a class with a base, an annotation and a call. -/
example :
    ((Token.ofText "from m import B, f\nclass A(B):\n    x: L[A] = f(k=0)\n".toList).toOption.map
      fun tokens => ((ofTokens tokens.toList).flatMap bound, (ofTokens tokens.toList).flatMap used)) =
        some (["B", "f", "A"], ["B", "L", "A", "f"]) := by
  decide

end

end Clause

end SampleTypes.Source
