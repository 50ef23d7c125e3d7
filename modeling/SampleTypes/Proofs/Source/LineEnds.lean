import SampleTypes.Proofs.Source.Lines

/-!
# Ends of lines in plain code

Before a text is read, every line is ended by a line feed alone. In plain code that only changes what
stands between triple quotes, and there it does no harm: what was the body of a string stays one. So
the tokens of the text are those of its lines as they are written.

## Main results

* `inside_withLineFeeds`: bodies of strings stay bodies of strings.
* `charsOf_fed`: what a text becomes.
* `ofText_lines`: its tokens.
-/

namespace SampleTypes.Source

section

variable {lines : List Line} {front rest : List Char} {c : Char}

/-- The piece with every line in a string between triple quotes ended by a line feed alone. -/
def Lexeme.fed : Lexeme → Lexeme
  | .block body => .block (Token.withLineFeeds body)
  | one => one

/-- The line with such strings. -/
def Line.fed : Line → Line
  | .code indented lexemes => .code indented (lexemes.map Lexeme.fed)
  | line => line

namespace Token

/-- What a carriage return becomes depends on whether a line feed follows. -/
theorem withLineFeeds_cons (c : Char) (rest : List Char) :
    withLineFeeds (c :: rest) =
      if c ≠ '\r' then c :: withLineFeeds rest
      else if rest.head? = some '\n' then withLineFeeds rest
      else '\n' :: withLineFeeds rest := by
  by_cases hc : c = '\r'
  · subst hc
    by_cases hfeed : rest.head? = some '\n'
    · obtain ⟨others, rfl⟩ := List.head?_eq_some_iff.1 hfeed
      rfl
    · have hother : ∀ others, rest = '\n' :: others → False := by
        rintro others rfl
        exact hfeed rfl
      rw [withLineFeeds.eq_2 rest hother, if_neg (by simp), if_neg hfeed]
  · rw [withLineFeeds.eq_3 c rest (fun _ heq => absurd heq hc) hc, if_pos hc]

theorem withLineFeeds_of_notMem (h : '\r' ∉ front) (rest : List Char) :
    withLineFeeds (front ++ rest) = front ++ withLineFeeds rest := by
  induction front with
  | nil => rfl
  | cons c others ih =>
    rw [List.mem_cons, not_or] at h
    rw [List.cons_append, withLineFeeds_cons, if_pos (Ne.symm h.1), ih h.2]
    rfl

/-- A character that is no line feed keeps what stands in front of it apart. -/
theorem withLineFeeds_append (hc : c ≠ '\n') (front rest : List Char) :
    withLineFeeds (front ++ c :: rest) = withLineFeeds front ++ withLineFeeds (c :: rest) := by
  induction front with
  | nil => rfl
  | cons first others ih =>
    have hhead : (others ++ c :: rest).head? = some '\n' ↔ others.head? = some '\n' := by
      cases others with
      | nil => simp [hc]
      | cons _ _ => simp
    rw [List.cons_append, withLineFeeds_cons, withLineFeeds_cons, ih]
    simp only [hhead]
    split
    · rfl
    · split <;> rfl

/-- The body of a string is still one. -/
theorem inside_withLineFeeds {body : List Char} (h : Inside true body) :
    Inside true (withLineFeeds body) := by
  induction h with
  | nil => exact .nil
  | plain c rest hquote hslash _ _ ih =>
    rw [withLineFeeds_cons]
    split
    · exact .plain c _ hquote hslash (fun _ => rfl) ih
    · split
      · exact ih
      · exact .plain '\n' _ (by decide) (by decide) (fun _ => rfl) ih
  | escape c rest _ ih =>
    rw [withLineFeeds_cons, if_pos (by decide), withLineFeeds_cons]
    split
    · exact .escape c _ ih
    · split
      · rename_i hfeed
        obtain ⟨others, rfl⟩ := List.head?_eq_some_iff.1 hfeed
        rw [withLineFeeds_cons, if_pos (by decide)] at ih ⊢
        cases ih with
        | plain _ _ _ _ _ hothers => exact .escape '\n' _ hothers
      · exact .escape '\n' _ ih

end Token

/-! ## The tokens of a text -/

theorem Lexeme.legible_fed {one : Lexeme} (h : one.Legible) : one.fed.Legible := by
  cases one with
  | block body => exact Token.inside_withLineFeeds h
  | _ => exact h

/-- Whether a line is arranged does not depend on what stands inside its strings. -/
theorem Lexeme.arranged_fed (closers : List Char) (lexemes : List Lexeme) :
    arranged closers (lexemes.map fed) = arranged closers lexemes := by
  have htouch : ∀ one next : Lexeme, canTouch one.fed next.fed = canTouch one next := by
    intro one next
    cases one <;> cases next <;> rfl
  have hcloses : ∀ (closers : List Char) (one : Lexeme),
      closersAfter closers one.fed = closersAfter closers one := by
    intro closers one
    cases one <;> rfl
  induction lexemes generalizing closers with
  | nil => rfl
  | cons one others ih =>
    cases others with
    | nil => simp only [List.map_cons, List.map_nil, arranged, hcloses]
    | cons next later =>
      rw [List.map_cons, List.map_cons, arranged, arranged, htouch, hcloses, ← List.map_cons]
      simp only [ih]

theorem Line.legible_fed {line : Line} (h : line.Legible) : line.fed.Legible := by
  cases line with
  | code indented lexemes =>
    obtain ⟨hpieces, ⟨first, hfirst, hsolid⟩, harranged⟩ := h
    obtain ⟨later, rfl⟩ := List.head?_eq_some_iff.1 hfirst
    refine ⟨?_, ⟨first.fed, rfl, ?_⟩, ?_⟩
    · intro one hone
      obtain ⟨source, hsource, rfl⟩ := List.mem_map.1 hone
      exact Lexeme.legible_fed (hpieces source hsource)
    · cases first <;> exact hsolid
    · rw [Lexeme.arranged_fed]
      exact harranged
  | _ => exact h

/-- What is read does not depend on how lines end inside strings. -/
theorem Line.tokensOf_fed (indented : Bool) (lines : List Line) :
    tokensOf indented (lines.map fed) = tokensOf indented lines := by
  have hline : ∀ (gap : Token.Gap) (lexemes : List Lexeme),
      Lexeme.lineTokens gap (lexemes.map Lexeme.fed) = Lexeme.lineTokens gap lexemes := by
    intro gap lexemes
    induction lexemes generalizing gap with
    | nil => rfl
    | cons one others ih =>
      rw [List.map_cons, Lexeme.lineTokens, Lexeme.lineTokens, ih]
      cases one <;> rfl
  induction lines generalizing indented with
  | nil => rfl
  | cons line others ih =>
    rw [List.map_cons]
    cases line <;> simp only [fed, tokensOf, ih, hline]

/-- How a piece is written when lines end by line feeds alone. -/
theorem Lexeme.chars_fed {one : Lexeme} (hlegible : one.Legible) (rest : List Char) :
    Token.withLineFeeds (one.chars ++ rest) = one.fed.chars ++ Token.withLineFeeds rest := by
  cases one with
  | word text =>
    refine Token.withLineFeeds_of_notMem (fun hmem => ?_) rest
    obtain ⟨first, others, hchars, -, hall⟩ := hlegible
    exact absurd (hall '\r' (hchars ▸ hmem)).1 (by decide)
  | literal body =>
    refine Token.withLineFeeds_of_notMem ?_ rest
    simp [chars, hlegible.2]
  | block body =>
    have hquotes : '\r' ∉ ['"', '"', '"'] := by decide
    have hclosing : Token.withLineFeeds ('"' :: '"' :: '"' :: rest) =
        '"' :: '"' :: '"' :: Token.withLineFeeds rest := Token.withLineFeeds_of_notMem hquotes rest
    have hsplit : (block body).chars ++ rest =
        ['"', '"', '"'] ++ (body ++ '"' :: '"' :: '"' :: rest) := by
      simp [chars]
    rw [hsplit, Token.withLineFeeds_of_notMem hquotes, Token.withLineFeeds_append (by decide),
      hclosing]
    simp [fed, chars]
  | mark c =>
    have hclear : ∀ c ∈ [':', ',', '='], '\r' ∉ [c] := by decide
    exact Token.withLineFeeds_of_notMem (hclear c hlegible) rest
  | opener c =>
    have hclear : ∀ c ∈ ['(', '['], '\r' ∉ [c] := by decide
    exact Token.withLineFeeds_of_notMem (hclear c hlegible) rest
  | closer c =>
    have hclear : ∀ c ∈ [')', ']'], '\r' ∉ [c] := by decide
    exact Token.withLineFeeds_of_notMem (hclear c hlegible) rest
  | _ => exact Token.withLineFeeds_of_notMem (by decide) rest

theorem Lexeme.charsOf_fed {lexemes : List Lexeme} (hlegible : ∀ one ∈ lexemes, one.Legible)
    (rest : List Char) :
    Token.withLineFeeds (charsOf lexemes ++ rest) =
      charsOf (lexemes.map fed) ++ Token.withLineFeeds rest := by
  induction lexemes with
  | nil => rfl
  | cons one others ih =>
    rw [charsOf_cons, List.append_assoc, chars_fed (hlegible one List.mem_cons_self),
      ih fun other hother => hlegible other (List.mem_cons_of_mem _ hother), List.map_cons,
      charsOf_cons, List.append_assoc]

theorem Line.charsOf_fed (hlegible : ∀ line ∈ lines, line.Legible) :
    Token.withLineFeeds (charsOf lines) = charsOf (lines.map fed) := by
  induction lines with
  | nil => rfl
  | cons line others ih =>
    have hothers := ih fun other hother => hlegible other (List.mem_cons_of_mem _ hother)
    have hline : Token.withLineFeeds (line.chars ++ charsOf others) =
        line.fed.chars ++ Token.withLineFeeds (charsOf others) := by
      cases line with
      | empty => exact Token.withLineFeeds_of_notMem (by decide) _
      | comment text =>
        refine Token.withLineFeeds_of_notMem ?_ _
        simp [chars, (hlegible _ List.mem_cons_self).2]
      | code indented lexemes =>
        have hmargin : '\r' ∉ margin indented := by cases indented <;> decide
        rw [chars, List.append_assoc, Token.withLineFeeds_of_notMem hmargin, List.append_assoc,
          Lexeme.charsOf_fed (hlegible _ List.mem_cons_self).1,
          Token.withLineFeeds_of_notMem (by decide)]
        simp [fed, chars]
    rw [charsOf, List.flatMap_cons, ← charsOf, hline, hothers]
    rfl

/-- **The tokens of a text** are those of its lines. -/
theorem Token.ofText_lines (hlegible : ∀ line ∈ lines, line.Legible) :
    Token.ofText (Line.charsOf lines) = .ok (Line.tokensOf false lines).toArray := by
  have hfed : ∀ line ∈ lines.map Line.fed, line.Legible := by
    intro line hline
    obtain ⟨source, hsource, rfl⟩ := List.mem_map.1 hline
    exact Line.legible_fed (hlegible source hsource)
  have hread : scan (2 * (Line.charsOf (lines.map Line.fed)).length + 2) .start .none
      (levels false) [] ([] : List Token).toArray (Line.charsOf (lines.map Line.fed)) =
        .ok ([] ++ Line.tokensOf false (lines.map Line.fed)).toArray :=
    scan_lines hfed (Nat.le_refl _)
  unfold Token.ofText
  rw [Line.charsOf_fed hlegible, ← Line.tokensOf_fed false lines]
  exact hread

end

end SampleTypes.Source
