import SampleTypes.Proofs.Source.Lexemes

/-!
# Lines of plain code

A text whose lines are written from pieces, indented once or not at all, has tokens that can be written
down line by line.

The reader counts its steps. Each piece takes at least one character and one step, and a line takes
another step for its start, so twice the length of the text is always enough. Inside a line one step
less will do, and this is what every lemma hands on to the next.

## Main results

* `scan_lexeme`, `scan_lexemes`: one piece, and all of a line.
* `scan_code`: a line from its margin to its end.
* `scan_lines`: all lines of a text.
-/

namespace SampleTypes.Source

/-! ## One line -/

namespace Token

section

variable {fuel : Nat} {gap : Gap} {opened : List Indentation} {closers left : List Char}
  {found : List Token} {c : Char} {kind : Kind} {text : String} {rest after : List Char}
  {one : Lexeme} {lexemes : List Lexeme}

theorem scan_token (hc : c ∉ [' ', '\t', '\x0c', '#', '\n', '\\'])
    (hstep : codeStep fuel (within closers) (c :: rest) =
      .ok (some (kind, text), within left, after)) :
    scan (fuel + 1) .inside gap opened (within closers) found.toArray (c :: rest) =
      scan fuel .inside .none opened (within left) (found ++ [(⟨kind, text, gap⟩ : Token)]).toArray after := by
  have hplain : ¬ (c = ' ' ∨ c = '\t' ∨ c = '\x0c' ∨ c = '#' ∨ c = '\n' ∨ c = '\\') := by
    simpa using hc
  rw [← List.push_toArray]
  have hcode : (if c = ' ' ∨ c = '\t' ∨ c = '\x0c' ∨ c = '#' ∨ c = '\n' ∨ c = '\\' then none
      else some (codeStep fuel (within closers) (c :: rest))) =
        some (.ok (some (kind, text), within left, after)) := by
    rw [if_neg hplain, hstep]
  cases closers with
  | nil =>
    rw [scan.eq_def]
    simp only [within, List.map_nil] at hcode ⊢
    simp only [hcode]
  | cons closer outer =>
    rw [scan.eq_def]
    simp only [within, List.map_cons] at hcode ⊢
    simp only [hcode]

theorem scan_blank :
    scan (fuel + 1) .inside gap opened (within closers) found.toArray (' ' :: rest) =
      scan fuel .inside (if gap = .none then .blanks else gap) opened (within closers)
        found.toArray rest := by
  cases closers <;> rfl

theorem scan_lineEnd :
    scan (fuel + 1) .inside gap opened [] found.toArray ('\n' :: rest) =
      scan fuel .start .none opened [] (found ++ [(⟨.newline, "", gap⟩ : Token)]).toArray rest := by
  rw [← List.push_toArray]
  rfl

/-- **One piece.** -/
theorem scan_lexeme (hlegible : one.Legible) (hstops : one.Stops rest)
    (hclosers : ∀ awaited ∈ closers, isCloser awaited = true)
    (hleft : Lexeme.closersAfter closers one = some left) (hfuel : one.chars.length ≤ fuel) :
    scan (fuel + 1) .inside gap opened (within closers) found.toArray (one.chars ++ rest) =
      scan fuel .inside (one.gapAfter gap) opened (within left)
        (found ++ one.tokens gap).toArray rest := by
  cases hreading : one.reading? with
  | none =>
    cases one with
    | blank =>
      cases hleft
      simp only [Lexeme.tokens, Lexeme.reading?, List.append_nil]
      exact scan_blank
    | _ => cases hreading
  | some read =>
    obtain ⟨kind, text⟩ := read
    obtain ⟨c, others, hchars, hclear⟩ := Lexeme.chars_of_reading hlegible hreading
    have hstep := Lexeme.codeStep_lexeme hreading hlegible hstops hclosers hleft hfuel
    have hgap : one.gapAfter gap = .none := by
      cases one with
      | blank => cases hreading
      | _ => rfl
    rw [hchars, List.cons_append] at hstep ⊢
    rw [scan_token hclear hstep, hgap, Lexeme.tokens, hreading]

/-- **One line.** A line that is arranged is read piece by piece up to its end. -/
theorem scan_lexemes (hlegible : ∀ one ∈ lexemes, one.Legible)
    (harranged : Lexeme.arranged closers lexemes = true)
    (hclosers : ∀ awaited ∈ closers, isCloser awaited = true)
    (hfuel : 2 * (Lexeme.charsOf lexemes ++ '\n' :: rest).length + 1 ≤ fuel) :
    ∃ fewer, 2 * rest.length + 2 ≤ fewer ∧
      scan fuel .inside gap opened (within closers) found.toArray
          (Lexeme.charsOf lexemes ++ '\n' :: rest) =
        scan fewer .start .none opened []
          (found ++ Lexeme.lineTokens gap lexemes).toArray rest := by
  induction lexemes generalizing fuel gap closers found with
  | nil =>
    obtain rfl := List.isEmpty_iff.1 harranged
    simp only [Lexeme.charsOf, List.flatMap_nil, List.nil_append, List.length_cons] at hfuel ⊢
    obtain ⟨fewer, rfl⟩ : ∃ fewer, fuel = fewer + 1 := ⟨fuel - 1, by omega⟩
    exact ⟨fewer, by omega, scan_lineEnd⟩
  | cons one others ih =>
    simp only [Lexeme.arranged, Bool.and_eq_true] at harranged
    obtain ⟨htouch, harranged⟩ := harranged
    have hone := hlegible one List.mem_cons_self
    have hothers : ∀ other ∈ others, other.Legible :=
      fun other hother => hlegible other (List.mem_cons_of_mem _ hother)
    have hstops : one.Stops (Lexeme.charsOf others ++ '\n' :: rest) := by
      cases others with
      | nil => exact Lexeme.stops_lineEnd one rest
      | cons next later =>
        rw [Lexeme.charsOf_cons, List.append_assoc]
        exact Lexeme.stops_of_canTouch (hothers next List.mem_cons_self) htouch _
    split at harranged
    case h_2 => cases harranged
    rename_i left hleft
    rw [Lexeme.charsOf_cons, List.append_assoc] at hfuel ⊢
    have hlength : 1 ≤ one.chars.length :=
      List.length_pos_iff.2 (Lexeme.chars_ne_nil hone)
    rw [List.length_append] at hfuel
    obtain ⟨fewer, rfl⟩ : ∃ fewer, fuel = fewer + 1 := ⟨fuel - 1, by omega⟩
    have hfewer : 2 * (Lexeme.charsOf others ++ '\n' :: rest).length + 1 ≤ fewer := by omega
    obtain ⟨last, hlast, hrest⟩ := ih hothers harranged
      (Lexeme.isCloser_of_closersAfter hone hclosers hleft) hfewer
    refine ⟨last, hlast, ?_⟩
    rw [scan_lexeme hone hstops hclosers hleft (by omega), hrest, Lexeme.lineTokens,
      List.append_assoc]

end

end Token

/-! ## All lines -/

/-- A line of plain code. -/
inductive Line where
  | empty
  | comment (text : List Char)
  /-- A line of code, which may be indented once. -/
  | code (indented : Bool) (lexemes : List Lexeme)

namespace Line

/-- The blanks in front of a line. -/
def margin (indented : Bool) : List Char :=
  if indented then [' ', ' ', ' ', ' '] else []

/-- How a line is written, with its end. -/
def chars : Line → List Char
  | .empty => ['\n']
  | .comment text => '#' :: (text ++ ['\n'])
  | .code indented lexemes => margin indented ++ (Lexeme.charsOf lexemes ++ ['\n'])

/-- A comment ends with its line. A line of code starts with a word, a number or a string and is
arranged. -/
def Legible : Line → Prop
  | .empty => True
  | .comment text => '\n' ∉ text ∧ '\r' ∉ text
  | .code _ lexemes =>
    (∀ one ∈ lexemes, one.Legible) ∧ (∃ one ∈ lexemes.head?, one.isSolid = true) ∧
      Lexeme.arranged [] lexemes = true

/-- The tokens for a change of the margin. -/
def turn (before after : Bool) : List Token :=
  match before, after with
  | false, true => [⟨.indent, "", .none⟩]
  | true, false => [⟨.dedent, "", .none⟩]
  | _, _ => []

/-- The characters of several lines. -/
def charsOf (lines : List Line) : List Char :=
  lines.flatMap chars

/-- What lines are read as, behind a line that was indented or not. -/
def tokensOf : (indented : Bool) → List Line → List Token
  | indented, [] => turn indented false ++ [⟨.finish, "", .none⟩]
  | indented, .empty :: rest => tokensOf indented rest
  | indented, .comment _ :: rest => tokensOf indented rest
  | indented, .code margin lexemes :: rest =>
    turn indented margin ++ (Lexeme.lineTokens .none lexemes ++ tokensOf margin rest)

end Line

namespace Token

section

open Line (margin turn)

variable {fuel : Nat} {gap : Gap} {indented next : Bool} {found : List Token} {c : Char}
  {rest : List Char} {lines : List Line}

/-- The measure of a margin. -/
def indentation (indented : Bool) : Indentation :=
  if indented then ⟨4, 4, [' ', ' ', ' ', ' ']⟩ else {}

/-- The indentations that are open in a line. -/
def levels (indented : Bool) : List Indentation :=
  if indented then [indentation true, {}] else [{}]

theorem measure_margin (indented : Bool) (hc : c ∉ [' ', '\t', '\x0c', '#', '\n', '\\']) :
    measure {} (margin indented ++ c :: rest) = (indentation indented, c :: rest) := by
  have hstop : ∀ i : Indentation, measure i (c :: rest) =
      ({ i with blanks := i.blanks.reverse }, c :: rest) := by
    intro i
    rw [measure]
    all_goals
      rintro other ⟨⟩
      exact hc (by decide)
  cases indented with
  | false => exact hstop {}
  | true =>
    simp only [margin, if_true, List.cons_append, List.nil_append, measure]
    exact hstop _

theorem indentTo_indentation (indented next : Bool) :
    indentTo (indentation next) (levels indented) = some (turn indented next, levels next) := by
  cases indented <;> cases next <;> decide

/-- The start of a line of code. -/
theorem scan_margin (hc : c ∉ [' ', '\t', '\x0c', '#', '\n', '\\']) :
    scan (fuel + 1) .start gap (levels indented) [] found.toArray (margin next ++ c :: rest) =
      scan fuel .inside .none (levels next) [] (found ++ turn indented next).toArray
        (c :: rest) := by
  rw [scan.eq_def]
  simp only [measure_margin next hc]
  split
  case h_1 heq => cases heq
  case h_2 heq =>
    cases heq
    exact absurd (by decide) hc
  case h_3 heq =>
    cases heq
    exact absurd (by decide) hc
  case h_4 heq =>
    cases heq
    exact absurd (by decide) hc
  case h_5 =>
    simp only [indentTo_indentation, List.toArray_appendList]

theorem scan_empty :
    scan (fuel + 1) .start gap (levels indented) [] found.toArray ('\n' :: rest) =
      scan fuel .start .none (levels indented) [] found.toArray rest := rfl

theorem scan_comment {text : List Char} (h : '\n' ∉ text) :
    scan (fuel + 1) .start gap (levels indented) [] found.toArray
        ('#' :: (text ++ '\n' :: rest)) =
      scan fuel .start .none (levels indented) [] found.toArray rest := by
  have hdrop : (text ++ '\n' :: rest).dropWhile (· ≠ '\n') = '\n' :: rest := by
    rw [List.dropWhile_append_of_pos fun c hc => decide_eq_true (ne_of_mem_of_not_mem hc h)]
    rfl
  have hstep : scan (fuel + 1) .start gap (levels indented) [] found.toArray
        ('#' :: (text ++ '\n' :: rest)) =
      scan fuel .start .none (levels indented) [] found.toArray
        (((text ++ '\n' :: rest).dropWhile (· ≠ '\n')).drop 1) := rfl
  rw [hstep, hdrop, List.drop_one, List.tail_cons]

theorem scan_finish :
    scan (fuel + 1) .start gap (levels indented) [] found.toArray [] =
      .ok (found ++ (turn indented false ++ [(⟨.finish, "", .none⟩ : Token)])).toArray := by
  rw [← List.toArray_appendList]
  cases indented <;> rfl

/-- A line of code, from its margin to its end. -/
theorem scan_code {lexemes : List Lexeme} (hlegible : (Line.code next lexemes).Legible)
    (hfuel : 2 * ((Line.code next lexemes).chars ++ rest).length + 2 ≤ fuel) :
    ∃ fewer, 2 * rest.length + 2 ≤ fewer ∧
      scan fuel .start gap (levels indented) [] found.toArray
          ((Line.code next lexemes).chars ++ rest) =
        scan fewer .start .none (levels next) []
          (found ++ (turn indented next ++ Lexeme.lineTokens .none lexemes)).toArray rest := by
  obtain ⟨hpieces, ⟨first, hfirst, hsolid⟩, harranged⟩ := hlegible
  obtain ⟨later, rfl⟩ := List.head?_eq_some_iff.1 hfirst
  obtain ⟨c, others, hchars, hclear⟩ :=
    Lexeme.chars_of_solid (hpieces first List.mem_cons_self) hsolid
  have hline : Lexeme.charsOf (first :: later) ++ '\n' :: rest =
      c :: (others ++ (Lexeme.charsOf later ++ '\n' :: rest)) := by
    simp [Lexeme.charsOf_cons, hchars]
  have hall : (Line.code next (first :: later)).chars ++ rest =
      margin next ++ (Lexeme.charsOf (first :: later) ++ '\n' :: rest) := by
    simp [Line.chars]
  rw [hall] at hfuel ⊢
  obtain ⟨fewer, rfl⟩ : ∃ fewer, fuel = fewer + 1 := ⟨fuel - 1, by omega⟩
  have hfewer : 2 * (Lexeme.charsOf (first :: later) ++ '\n' :: rest).length + 1 ≤ fewer := by
    rw [List.length_append] at hfuel
    omega
  have hread : ∃ last, 2 * rest.length + 2 ≤ last ∧
      scan fewer .inside .none (levels next) [] (found ++ turn indented next).toArray
          (Lexeme.charsOf (first :: later) ++ '\n' :: rest) =
        scan last .start .none (levels next) []
          (found ++ turn indented next ++ Lexeme.lineTokens .none (first :: later)).toArray
          rest :=
    scan_lexemes hpieces harranged (by simp) hfewer
  obtain ⟨last, hlast, hrest⟩ := hread
  refine ⟨last, hlast, ?_⟩
  rw [← List.append_assoc found, ← hrest, hline]
  exact scan_margin fun hmem => hclear (List.mem_append_left ['='] hmem)

/-- **All lines** of a text are read one by one. -/
theorem scan_lines (hlegible : ∀ line ∈ lines, line.Legible)
    (hfuel : 2 * (Line.charsOf lines).length + 2 ≤ fuel) :
    scan fuel .start gap (levels indented) [] found.toArray (Line.charsOf lines) =
      .ok (found ++ Line.tokensOf indented lines).toArray := by
  induction lines generalizing fuel gap indented found with
  | nil =>
    obtain ⟨fewer, rfl⟩ : ∃ fewer, fuel = fewer + 1 := ⟨fuel - 1, by omega⟩
    exact scan_finish
  | cons line others ih =>
    have hothers : ∀ other ∈ others, other.Legible :=
      fun other hother => hlegible other (List.mem_cons_of_mem _ hother)
    have hline := hlegible line List.mem_cons_self
    rw [Line.charsOf, List.flatMap_cons] at hfuel ⊢
    cases line with
    | empty =>
      obtain ⟨fewer, rfl⟩ : ∃ fewer, fuel = fewer + 1 := ⟨fuel - 1, by omega⟩
      simp only [Line.chars, List.length_append, List.length_singleton] at hfuel
      rw [Line.chars, List.singleton_append, scan_empty]
      exact ih hothers (by unfold Line.charsOf; omega)
    | comment text =>
      obtain ⟨fewer, rfl⟩ : ∃ fewer, fuel = fewer + 1 := ⟨fuel - 1, by omega⟩
      simp only [Line.chars, List.length_append, List.length_cons] at hfuel
      rw [Line.chars, List.cons_append, List.append_assoc, List.singleton_append,
        scan_comment hline.1]
      exact ih hothers (by unfold Line.charsOf; omega)
    | code next lexemes =>
      obtain ⟨fewer, hfewer, hread⟩ := scan_code hline hfuel
      have hsplit : found ++ Line.tokensOf indented (.code next lexemes :: others) =
          found ++ (turn indented next ++ Lexeme.lineTokens .none lexemes) ++
            Line.tokensOf next others := by
        simp [Line.tokensOf]
      rw [hread, hsplit]
      exact ih hothers hfewer

end

end Token

end SampleTypes.Source
