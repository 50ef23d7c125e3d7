import SampleTypes.Proofs.Source.Tokens

/-!
# Pieces of plain code

Generated code needs few of the means of the language: words, the number zero, strings, a few marks and
brackets. A line that is written from such pieces is read piece by piece, if it is arranged: no two
pieces touch that would be read as one, and every bracket is closed where it must be. Whether a line is
arranged does not depend on its words and strings, so it is decided for whole forms of lines at once.

## Main results

* `stops_of_canTouch`: pieces that may touch are not read as one.
* `codeStep_lexeme`: one piece is read in one step.
-/

namespace SampleTypes.Source

/-- A piece of a line of plain code. -/
inductive Lexeme where
  | blank
  | word (text : String)
  /-- The number zero. -/
  | zero
  /-- A string in double quotes. -/
  | literal (body : List Char)
  /-- A string between triple quotes. -/
  | block (body : List Char)
  | mark (c : Char)
  | opener (c : Char)
  | closer (c : Char)

namespace Lexeme

/-- How a piece is written. -/
def chars : Lexeme → List Char
  | .blank => [' ']
  | .word text => text.toList
  | .zero => ['0']
  | .literal body => '"' :: (body ++ ['"'])
  | .block body => '"' :: '"' :: '"' :: (body ++ ['"', '"', '"'])
  | .mark c => [c]
  | .opener c => [c]
  | .closer c => [c]

/-- The token that a piece is read as. A blank is none. -/
def reading? : Lexeme → Option (Token.Kind × String)
  | .blank => none
  | .word text => some (.name, text)
  | .zero => some (.number, "0")
  | .literal _ => some (.string, "\"")
  | .block _ => some (.string, "\"")
  | .mark c => some (.mark, String.ofList [c])
  | .opener c => some (.mark, String.ofList [c])
  | .closer c => some (.mark, String.ofList [c])

/-- What a piece adds to the tokens, behind the given gap. -/
def tokens (gap : Token.Gap) (one : Lexeme) : List Token :=
  match one.reading? with
  | some (kind, text) => [⟨kind, text, gap⟩]
  | none => []

/-- The gap behind a piece. -/
def gapAfter (gap : Token.Gap) : Lexeme → Token.Gap
  | .blank => if gap = .none then .blanks else gap
  | _ => .none

/-- A piece is what it is meant to be. -/
def Legible : Lexeme → Prop
  | .word text => Token.IsWord text
  | .literal body => Token.Inside false body ∧ '\r' ∉ body
  | .block body => Token.Inside true body
  | .mark c => c ∈ [':', ',', '=']
  | .opener c => c ∈ ['(', '[']
  | .closer c => c ∈ [')', ']']
  | _ => True

/-- A piece that can be seen to be what it is meant to be. -/
def isFixed : Lexeme → Bool
  | .word text => decide (Token.IsWord text)
  | .literal body => body.isEmpty
  | .block body => body.isEmpty
  | .mark c => decide (c ∈ [':', ',', '='])
  | .opener c => decide (c ∈ ['(', '['])
  | .closer c => decide (c ∈ [')', ']'])
  | _ => true

/-- A word, a number or a string. -/
def isSolid : Lexeme → Bool
  | .word _ => true
  | .zero => true
  | .literal _ => true
  | .block _ => true
  | _ => false

/-- A mark that is no bracket. -/
def isMark : Lexeme → Bool
  | .mark _ => true
  | _ => false

/-- Two pieces may stand behind each other without being read as one. -/
def canTouch (one next : Lexeme) : Bool :=
  !(one.isSolid && next.isSolid) && !(one.isMark && next.isMark)

/-- The brackets to be closed behind a piece, innermost first. -/
def closersAfter : List Char → Lexeme → Option (List Char)
  | closers, .opener c => (Token.closing? c).map fun awaited => awaited :: closers
  | awaited :: outer, .closer c => if c = awaited then some outer else none
  | [], .closer _ => none
  | closers, _ => some closers

/-- The pieces can be told apart, and the brackets among them close each other and `closers`. -/
def arranged : List Char → List Lexeme → Bool
  | closers, [] => closers.isEmpty
  | closers, one :: rest =>
    (match rest with
      | [] => true
      | next :: _ => canTouch one next) &&
    match closersAfter closers one with
    | some left => arranged left rest
    | none => false

/-- The characters of several pieces. -/
def charsOf (lexemes : List Lexeme) : List Char :=
  lexemes.flatMap chars

/-- What the pieces of a line are read as. -/
def lineTokens : Token.Gap → List Lexeme → List Token
  | gap, [] => [⟨.newline, "", gap⟩]
  | gap, one :: rest => one.tokens gap ++ lineTokens (one.gapAfter gap) rest

/-- What stands behind a piece does not make it longer. -/
def Stops (one : Lexeme) (rest : List Char) : Prop :=
  ∀ c ∈ rest.head?,
    (one.isSolid = true → Token.isNumberChar c = false ∧ Token.isNameChar c = false ∧
      Token.isQuote c = false) ∧
    (one.isMark = true → c ≠ '=')

/-! ## One piece -/

section

open Token (isCloser within IsWord isNameChar isNumberChar isQuote)

variable {one : Lexeme} {lexemes : List Lexeme} {closers left : List Char} {rest : List Char}

theorem charsOf_cons (one : Lexeme) (rest : List Lexeme) :
    charsOf (one :: rest) = one.chars ++ charsOf rest :=
  List.flatMap_cons

theorem legible_of_isFixed (h : lexemes.all isFixed = true) : ∀ one ∈ lexemes, one.Legible := by
  intro one hone
  have hfixed := List.all_eq_true.1 h one hone
  cases one with
  | literal body =>
    obtain rfl := List.isEmpty_iff.1 hfixed
    exact ⟨.nil, List.not_mem_nil⟩
  | block body =>
    obtain rfl := List.isEmpty_iff.1 hfixed
    exact .nil
  | word text => exact (of_decide_eq_true hfixed : Token.IsWord text)
  | mark c => exact (of_decide_eq_true hfixed : c ∈ [':', ',', '='])
  | opener c => exact (of_decide_eq_true hfixed : c ∈ ['(', '['])
  | closer c => exact (of_decide_eq_true hfixed : c ∈ [')', ']'])
  | _ => trivial

/-- A blank may stand in front of everything. -/
theorem arranged_blank (closers : List Char) (lexemes : List Lexeme) :
    arranged closers (.blank :: lexemes) = arranged closers lexemes := by
  have hcloses : closersAfter closers .blank = some closers := by cases closers <;> rfl
  cases lexemes with
  | nil => simp only [arranged, hcloses, Bool.true_and]
  | cons next later =>
    rw [arranged, hcloses]
    rfl

/-- Blanks, marks and brackets are single characters. -/
theorem chars_of_not_solid (h : one.Legible) (hsolid : one.isSolid = false) :
    ∃ c, one.chars = [c] ∧ c ∈ [' ', ':', ',', '=', '(', '[', ')', ']'] ∧
      (one.isMark = false → c ≠ '=') := by
  cases one with
  | blank => exact ⟨' ', rfl, by decide, by decide⟩
  | mark c =>
    refine ⟨c, rfl, ?_, by simp [isMark]⟩
    have hall : ∀ c ∈ [':', ',', '='], c ∈ [' ', ':', ',', '=', '(', '[', ')', ']'] := by decide
    exact hall c h
  | opener c =>
    have hall : ∀ c ∈ ['(', '['], c ∈ [' ', ':', ',', '=', '(', '[', ')', ']'] ∧ c ≠ '=' := by
      decide
    exact ⟨c, rfl, (hall c h).1, fun _ => (hall c h).2⟩
  | closer c =>
    have hall : ∀ c ∈ [')', ']'], c ∈ [' ', ':', ',', '=', '(', '[', ')', ']'] ∧ c ≠ '=' := by
      decide
    exact ⟨c, rfl, (hall c h).1, fun _ => (hall c h).2⟩
  | _ => cases hsolid

/-- Words, numbers and strings start with a character that is none of the others. -/
theorem chars_of_solid (h : one.Legible) (hsolid : one.isSolid = true) :
    ∃ c others, one.chars = c :: others ∧
      c ∉ [' ', '\t', '\x0c', '#', '\n', '\\', '='] := by
  cases one with
  | word text =>
    obtain ⟨first, others, hchars, -, hall⟩ := h
    refine ⟨first, others, hchars, fun hmem => ?_⟩
    have hname : ∀ c ∈ [' ', '\t', '\x0c', '#', '\n', '\\', '='], isNameChar c = false := by
      decide
    exact absurd (hall first List.mem_cons_self).1 (by simp [hname first hmem])
  | zero => exact ⟨'0', [], rfl, by decide⟩
  | literal body => exact ⟨'"', _, rfl, by decide⟩
  | block body => exact ⟨'"', _, rfl, by decide⟩
  | _ => cases hsolid

theorem chars_ne_nil (h : one.Legible) : one.chars ≠ [] := by
  cases hsolid : one.isSolid with
  | true =>
    obtain ⟨c, others, hchars, -⟩ := chars_of_solid h hsolid
    simp [hchars]
  | false =>
    obtain ⟨c, hchars, -⟩ := chars_of_not_solid h hsolid
    simp [hchars]

/-- Pieces that may touch stop each other. -/
theorem stops_of_canTouch {next : Lexeme} (hnext : next.Legible) (htouch : canTouch one next = true)
    (rest : List Char) : one.Stops (next.chars ++ rest) := by
  simp only [canTouch, Bool.and_eq_true, Bool.not_eq_true', Bool.and_eq_false_imp] at htouch
  obtain ⟨hsolid, hmark⟩ := htouch
  cases hkind : next.isSolid with
  | true =>
    obtain ⟨first, others, hchars, hclear⟩ := chars_of_solid hnext hkind
    rw [hchars]
    rintro c ⟨⟩
    refine ⟨fun hone => ?_, fun _ => ?_⟩
    · rw [hsolid hone] at hkind
      cases hkind
    · rintro rfl
      exact hclear (by decide)
  | false =>
    obtain ⟨first, hchars, hplain, hequals⟩ := chars_of_not_solid hnext hkind
    have hclasses : ∀ c ∈ [' ', ':', ',', '=', '(', '[', ')', ']'],
        isNumberChar c = false ∧ isNameChar c = false ∧ isQuote c = false := by decide
    rw [hchars]
    rintro c ⟨⟩
    exact ⟨fun _ => hclasses first hplain, fun hone => hequals (hmark hone)⟩

theorem stops_lineEnd (one : Lexeme) (rest : List Char) : one.Stops ('\n' :: rest) := by
  rintro c ⟨⟩
  exact ⟨fun _ => by decide, fun _ => by decide⟩

/-- What has to be closed are closing brackets. -/
theorem isCloser_of_closersAfter (hlegible : one.Legible)
    (hclosers : ∀ awaited ∈ closers, isCloser awaited = true)
    (h : closersAfter closers one = some left) : ∀ awaited ∈ left, isCloser awaited = true := by
  cases one with
  | opener c =>
    have hcloses : ∀ c ∈ ['(', '['], (Token.closing? c).map isCloser = some true := by decide
    obtain ⟨closer, hcloser, rfl⟩ := Option.map_eq_some_iff.1 h
    have hclosing := hcloses c hlegible
    rw [hcloser] at hclosing
    exact List.forall_mem_cons.2 ⟨Option.some.inj hclosing, hclosers⟩
  | closer c =>
    cases closers with
    | nil => cases h
    | cons awaited outer =>
      simp only [closersAfter] at h
      split at h
      · cases h
        exact fun other hother => hclosers other (List.mem_cons_of_mem _ hother)
      · cases h
  | _ =>
    cases h
    exact hclosers

/-- **One piece is read in one step.** -/
theorem codeStep_lexeme {fuel : Nat} {kind : Token.Kind} {text : String}
    (hreading : one.reading? = some (kind, text)) (hlegible : one.Legible)
    (hstops : one.Stops rest) (hclosers : ∀ awaited ∈ closers, isCloser awaited = true)
    (hleft : closersAfter closers one = some left) (hfuel : one.chars.length ≤ fuel) :
    Token.codeStep fuel (within closers) (one.chars ++ rest) =
      .ok (some (kind, text), within left, rest) := by
  have hsolid : one.isSolid = true → ∀ c ∈ rest.head?,
      isNumberChar c = false ∧ isNameChar c = false ∧ isQuote c = false :=
    fun h c hc => (hstops c hc).1 h
  cases one with
  | blank => cases hreading
  | word word =>
    cases hreading
    cases hleft
    exact Token.codeStep_word hlegible fun c hc => (hsolid rfl c hc).2
  | zero =>
    cases hreading
    cases hleft
    exact Token.codeStep_zero fun c hc => (hsolid rfl c hc).1
  | literal body =>
    cases hreading
    cases hleft
    have hquote : rest.head? ≠ some '"' := by
      intro heq
      exact absurd (hsolid rfl '"' heq).2.2 (by decide)
    simp only [chars, List.length_cons, List.length_append] at hfuel
    simp only [chars, List.cons_append, List.append_assoc, List.nil_append]
    exact Token.codeStep_literal hlegible.1 (by omega) hquote
  | block body =>
    cases hreading
    cases hleft
    simp only [chars, List.length_cons, List.length_append] at hfuel
    simp only [chars, List.cons_append, List.append_assoc, List.nil_append]
    exact Token.codeStep_block hlegible (by omega)
  | mark c =>
    cases hreading
    cases hleft
    refine Token.codeStep_mark hlegible (fun heq => ?_) hclosers
    exact (hstops '=' heq).2 rfl rfl
  | opener c =>
    cases hreading
    obtain ⟨awaited, hawaited, rfl⟩ := Option.map_eq_some_iff.1 hleft
    exact Token.codeStep_opener hlegible hawaited
  | closer c =>
    cases hreading
    cases closers with
    | nil => cases hleft
    | cons awaited outer =>
      simp only [closersAfter] at hleft
      split at hleft
      · rename_i heq
        subst heq
        cases hleft
        exact Token.codeStep_closer hlegible
      · cases hleft

/-- A piece that is read starts with a character that ends neither a line nor a word. -/
theorem chars_of_reading {read : Token.Kind × String} (h : one.Legible)
    (hreading : one.reading? = some read) :
    ∃ c others, one.chars = c :: others ∧
      c ∉ [' ', '\t', '\x0c', '#', '\n', '\\'] := by
  have hclear : ∀ c ∈ [':', ',', '=', '(', '[', ')', ']'],
      c ∉ [' ', '\t', '\x0c', '#', '\n', '\\'] := by decide
  cases hsolid : one.isSolid with
  | true =>
    obtain ⟨c, others, hchars, hclear⟩ := chars_of_solid h hsolid
    exact ⟨c, others, hchars, fun hmem => hclear (List.mem_append_left ['='] hmem)⟩
  | false =>
    cases one with
    | mark c => exact ⟨c, [], rfl, hclear c (List.mem_append_left ['(', '[', ')', ']'] h)⟩
    | opener c =>
      exact ⟨c, [], rfl, hclear c (List.mem_append_right [':', ',', '=']
        (List.mem_append_left [')', ']'] h))⟩
    | closer c =>
      exact ⟨c, [], rfl, hclear c (List.mem_append_right [':', ',', '=', '(', '['] h)⟩
    | blank => cases hreading
    | _ => cases hsolid

end

end Lexeme

end SampleTypes.Source
