import SampleTypes.Source.Token

/-!
# Single tokens, read

What one step of the reader takes from a text that starts with a word, the number zero, a short mark,
a bracket or a string. A token ends where the characters behind it allow: a word goes on through every
letter, digit and low line, and turns into the start of a string if a quote follows; a mark may be the
first half of a longer one; and an empty string may be the first two thirds of triple quotes. So every
lemma says what must not follow.

The body of a string is described by what it is made of and not by its text: plain characters, and
backslashes with the character that they protect.

## Main results

* `codeStep_word`, `codeStep_zero`, `codeStep_mark`: words, the number zero and marks.
* `codeStep_opener`, `codeStep_closer`: brackets.
* `codeStep_literal`, `codeStep_block`: strings.
-/

namespace SampleTypes.Source.Token

/-- A word: letters, digits and low lines of ASCII, of which the first is no digit. -/
def IsWord (text : String) : Prop :=
  ∃ first others, text.toList = first :: others ∧ isDigit first = false ∧
    ∀ c ∈ first :: others, isNameChar c = true ∧ c.toNat < 128

/-- The body of a string in double quotes: characters other than quotes, with every backslash in
front of the character that it protects. Only between triple quotes lines may end. -/
inductive Inside (triple : Bool) : List Char → Prop where
  | nil : Inside triple []
  | plain (c : Char) (rest : List Char) : c ≠ '"' → c ≠ '\\' → (c = '\n' → triple = true) →
      Inside triple rest → Inside triple (c :: rest)
  | escape (c : Char) (rest : List Char) : Inside triple rest → Inside triple ('\\' :: c :: rest)

/-- What is said of the characters in a list is decided on the list, not on all characters. -/
instance (cs : List Char) (p : Char → Prop) [DecidablePred p] : Decidable (∀ c ∈ cs, p c) :=
  List.decidableBAll p cs

theorem isWord_iff {text : String} :
    IsWord text ↔ text.toList.head?.map isDigit = some false ∧
      ∀ c ∈ text.toList, isNameChar c = true ∧ c.toNat < 128 := by
  constructor
  · rintro ⟨first, others, hchars, hdigit, hall⟩
    rw [hchars]
    exact ⟨congrArg some hdigit, hall⟩
  · rintro ⟨hstart, hall⟩
    obtain ⟨first, hfirst, hdigit⟩ := Option.map_eq_some_iff.1 hstart
    obtain ⟨others, hchars⟩ := List.head?_eq_some_iff.1 hfirst
    exact ⟨first, others, hchars, hdigit, hchars ▸ hall⟩

instance (text : String) : Decidable (IsWord text) :=
  decidable_of_iff _ isWord_iff.symm

section

variable {fuel : Nat} {contexts : List Context} {text : String} {c : Char} {body rest : List Char}

/-! ## Words, numbers and marks -/

/-- The first character of a word starts no number. -/
theorem not_point_of_isNameChar (h : isNameChar c = true) : c ≠ '.' := by
  rintro rfl
  exact absurd h (by decide)

/-- A text that is read as one name: characters of names, of which the first is no digit, that spell
a word. -/
def ReadsAsName (text : String) : Prop :=
  isName text = true ∧ ∃ first others, text.toList = first :: others ∧ isDigit first = false ∧
    ∀ c ∈ first :: others, isNameChar c = true

theorem readsAsName_of_isWord (h : IsWord text) : ReadsAsName text := by
  obtain ⟨first, others, hchars, hdigit, hall⟩ := h
  refine ⟨?_, first, others, hchars, hdigit, fun c hc => (hall c hc).1⟩
  unfold isName
  rw [hchars, List.all_eq_true.2 fun c hc => decide_eq_true (hall c hc).2, Bool.true_or]

/-- **A name is read as one**, if neither the name goes on nor a string starts behind it. -/
theorem codeStep_name (hreads : ReadsAsName text)
    (hrest : ∀ c ∈ rest.head?, isNameChar c = false ∧ isQuote c = false) :
    codeStep fuel contexts (text.toList ++ rest) = .ok (some (.name, text), contexts, rest) := by
  obtain ⟨hspelled, first, others, hchars, hdigit, hall⟩ := hreads
  have hname : ∀ c ∈ text.toList, isNameChar c = true := hchars ▸ hall
  have htake : rest.takeWhile isNameChar = [] := by
    cases rest with
    | nil => rfl
    | cons next later => rw [List.takeWhile_cons, (hrest next rfl).1]; rfl
  have hdrop : rest.dropWhile isNameChar = rest := by
    cases rest with
    | nil => rfl
    | cons next later => rw [List.dropWhile_cons, (hrest next rfl).1]; rfl
  have hquote : (rest.head?.map isQuote).getD false = false := by
    cases rest with
    | nil => rfl
    | cons next later => exact (hrest next rfl).2
  have hword : wordStep fuel contexts (text.toList ++ rest) =
      .ok (some (.name, text), contexts, rest) := by
    unfold wordStep
    rw [List.takeWhile_append_of_pos hname, List.dropWhile_append_of_pos hname, htake, hdrop,
      List.append_nil, String.ofList_toList]
    simp only [hquote, hspelled, Bool.false_eq_true, if_false, if_true]
  have hfirst := hall first List.mem_cons_self
  rw [← hword, hchars, List.cons_append]
  unfold codeStep
  simp only [hdigit, not_point_of_isNameChar hfirst, hfirst, decide_false, Bool.false_and,
    Bool.or_false, Bool.false_eq_true, if_false, if_true]

/-- **A word is read as a name**, if neither the word goes on nor a string starts behind it. -/
theorem codeStep_word (hword : IsWord text)
    (hrest : ∀ c ∈ rest.head?, isNameChar c = false ∧ isQuote c = false) :
    codeStep fuel contexts (text.toList ++ rest) = .ok (some (.name, text), contexts, rest) :=
  codeStep_name (readsAsName_of_isWord hword) hrest

/-- **Zero is read as a number**, if the number does not go on. -/
theorem codeStep_zero (hrest : ∀ c ∈ rest.head?, isNumberChar c = false) :
    codeStep fuel contexts ('0' :: rest) = .ok (some (.number, "0"), contexts, rest) := by
  have hnear : ('0' :: rest).takeWhile isNumberChar = ['0'] := by
    have hstop : rest.takeWhile isNumberChar = [] := by
      cases rest with
      | nil => rfl
      | cons next later => rw [List.takeWhile_cons, hrest next rfl]; rfl
    rw [List.takeWhile_cons, hstop]
    rfl
  have hnumber : number ('0' :: rest) = .ok ("0", rest) := by
    unfold number
    rw [hnear]
    rfl
  unfold codeStep
  rw [hnumber]
  rfl

/-- What the reader is inside of when only brackets are open. -/
def within (closers : List Char) : List Context :=
  closers.map .bracket

theorem mark?_short (hc : c ∈ [':', ',', '=']) (hrest : rest.head? ≠ some '=') :
    mark? (c :: rest) = some (String.ofList [c], rest) := by
  have hlong : longMarks.findSome? (fun m => (after? m.toList (c :: rest)).map fun left =>
      (m, left)) = none := by
    refine List.findSome?_eq_none_iff.2 fun m hm => ?_
    have hsecond : ∀ m ∈ longMarks, ∀ c ∈ [':', ',', '='], m.toList.head? = some c →
        m.toList = [c, '='] := by decide
    cases hchars : m.toList with
    | nil => exact absurd hchars (by revert m; decide)
    | cons first others =>
      by_cases hfirst : first = c
      · have htwo := hsecond m hm c hc (by rw [hchars, hfirst]; rfl)
        rw [hchars] at htwo
        rw [htwo]
        cases rest with
        | nil => simp [after?]
        | cons next later =>
          have hnext : ¬ '=' = next := fun heq => hrest (by rw [← heq]; rfl)
          simp [after?, hnext]
      · simp [after?, hfirst]
  have hshort : ∀ c ∈ [':', ',', '='], c ∈ shortMarks := by decide
  unfold mark?
  simp only [hlong, hshort c hc, if_true]

/-- **A short mark is read**, if no equals sign makes it longer. -/
theorem codeStep_mark {closers : List Char} (hc : c ∈ [':', ',', '='])
    (hrest : rest.head? ≠ some '=') (hclosers : ∀ closer ∈ closers, isCloser closer = true) :
    codeStep fuel (within closers) (c :: rest) =
      .ok (some (.mark, String.ofList [c]), within closers, rest) := by
  have hkind : ∀ c ∈ [':', ',', '='], isDigit c = false ∧ c ≠ '.' ∧ isNameChar c = false ∧
      isQuote c = false ∧ closing? c = none ∧ isCloser c = false := by decide
  obtain ⟨hdigit, hpoint, hname, hquote, hopens, hcloses⟩ := hkind c hc
  unfold codeStep
  simp only [hdigit, hpoint, hname, hquote, hopens, hcloses, decide_false, Bool.false_and,
    Bool.or_false, Bool.false_eq_true, if_false]
  cases closers with
  | nil =>
    simp only [within, List.map_nil, markStep, mark?_short hc hrest]
  | cons closer outer =>
    have hne : c ≠ closer := by
      rintro rfl
      rw [hclosers c List.mem_cons_self] at hcloses
      cases hcloses
    simp only [within, List.map_cons, hne, if_false, markStep, mark?_short hc hrest]

/-! ## Brackets -/

/-- **An opening bracket** is closed by its counterpart. -/
theorem codeStep_opener {closers : List Char} {closer : Char} (hc : c ∈ ['(', '['])
    (hcloser : closing? c = some closer) :
    codeStep fuel (within closers) (c :: rest) =
      .ok (some (.mark, String.ofList [c]), within (closer :: closers), rest) := by
  have hkind : ∀ c ∈ ['(', '['], isDigit c = false ∧ c ≠ '.' ∧ isNameChar c = false ∧
      isQuote c = false := by decide
  obtain ⟨hdigit, hpoint, hname, hquote⟩ := hkind c hc
  unfold codeStep
  simp only [hdigit, hpoint, hname, hquote, hcloser, decide_false, Bool.false_and, Bool.or_false,
    Bool.false_eq_true, if_false]
  rfl

/-- **A closing bracket** ends the innermost one, if it is its counterpart. -/
theorem codeStep_closer {closers : List Char} (hc : c ∈ [')', ']']) :
    codeStep fuel (within (c :: closers)) (c :: rest) =
      .ok (some (.mark, String.ofList [c]), within closers, rest) := by
  have hkind : ∀ c ∈ [')', ']'], isDigit c = false ∧ c ≠ '.' ∧ isNameChar c = false ∧
      isQuote c = false ∧ closing? c = none := by decide
  obtain ⟨hdigit, hpoint, hname, hquote, hopens⟩ := hkind c hc
  unfold codeStep
  simp only [hdigit, hpoint, hname, hquote, hopens, within, List.map_cons, decide_false,
    Bool.false_and, Bool.or_false, Bool.false_eq_true, if_false, if_true]

/-! ## Strings -/

/-- Bodies of strings may stand behind each other. -/
theorem Inside.append {triple : Bool} {front : List Char} (h : Inside triple front)
    (hrest : Inside triple rest) : Inside triple (front ++ rest) := by
  induction h with
  | nil => exact hrest
  | plain c _ hquote hslash hfeed _ ih => exact .plain c _ hquote hslash hfeed ih
  | escape c _ _ ih => exact .escape c _ ih

/-- A text is the body of a string if it is written character by character as one. -/
theorem inside_flatMap {triple : Bool} {f : Char → List Char} (h : ∀ c, Inside triple (f c))
    (cs : List Char) : Inside triple (cs.flatMap f) := by
  induction cs with
  | nil => exact .nil
  | cons c others ih =>
    rw [List.flatMap_cons]
    exact (h c).append ih

/-- How a string in double quotes is delimited. -/
def doubleQuotes (triple : Bool) : Quotes :=
  { quote := '"', triple := triple, raw := true }

/-- The closing delimiter. -/
def closingQuotes (triple : Bool) : List Char :=
  if triple then ['"', '"', '"'] else ['"']

theorem closeQuotes?_closingQuotes (triple : Bool) (rest : List Char) :
    closeQuotes? (doubleQuotes triple) (closingQuotes triple ++ rest) = some rest := by
  cases triple <;> rfl

theorem closeQuotes?_of_ne (triple : Bool) (hc : c ≠ '"') :
    closeQuotes? (doubleQuotes triple) (c :: rest) = none := by
  unfold closeQuotes? doubleQuotes
  cases triple with
  | false => simp [hc]
  | true =>
    simp only [if_true]
    split
    · rename_i heq
      cases heq
      simp [hc]
    · rfl

/-- **A string is read up to its closing delimiter.** -/
theorem afterString?_inside {triple : Bool} (h : Inside triple body) (hfuel : body.length < fuel) :
    afterString? (doubleQuotes triple) fuel (body ++ (closingQuotes triple ++ rest)) =
      some rest := by
  induction h generalizing fuel with
  | nil =>
    obtain ⟨fuel, rfl⟩ : ∃ fewer, fuel = fewer + 1 := ⟨fuel - 1, by omega⟩
    rw [List.nil_append, afterString?.eq_def]
    simp only [closeQuotes?_closingQuotes]
  | plain c others hquote hslash hfeed _ ih =>
    rw [List.length_cons] at hfuel
    obtain ⟨fuel, rfl⟩ : ∃ fewer, fuel = fewer + 1 := ⟨fuel - 1, by omega⟩
    have hends : (decide (c = '\n') && !(doubleQuotes triple).triple) = false := by
      by_cases heq : c = '\n'
      · simp [doubleQuotes, hfeed heq]
      · simp [heq]
    rw [List.cons_append, afterString?, closeQuotes?_of_ne triple hquote]
    · simp only [hends, Bool.false_eq_true, if_false]
      exact ih (by omega)
    · exact fun _ _ heq => absurd heq hslash
  | escape c others _ ih =>
    simp only [List.length_cons] at hfuel
    obtain ⟨fuel, rfl⟩ : ∃ fewer, fuel = fewer + 1 := ⟨fuel - 1, by omega⟩
    rw [List.cons_append, List.cons_append, afterString?, closeQuotes?_of_ne triple (by decide)]
    exact ih (by omega)

/-- A step that meets a quote reads a string. -/
theorem codeStep_quote {after : List Char} {triple : Bool}
    (hopen : openQuotes true ('"' :: rest) = some (doubleQuotes triple, body))
    (hclose : afterString? (doubleQuotes triple) fuel body = some after) :
    codeStep fuel contexts ('"' :: rest) = .ok (some (.string, "\""), contexts, after) := by
  have hread : stringStep fuel "" contexts ('"' :: rest) =
      .ok (some (.string, "\""), contexts, after) := by
    unfold stringStep
    simp only [hopen, hclose]
    rfl
  rw [← hread]
  rfl

/-- **A string in double quotes is read as a string**, if an empty one is not followed by a quote. -/
theorem codeStep_literal (h : Inside false body) (hfuel : body.length < fuel)
    (hrest : rest.head? ≠ some '"') :
    codeStep fuel contexts ('"' :: (body ++ '"' :: rest)) =
      .ok (some (.string, "\""), contexts, rest) := by
  refine codeStep_quote ?_ (afterString?_inside h hfuel)
  have hsingle : ∀ next later, (next ≠ '"' ∨ later.head? ≠ some '"') →
      openQuotes true ('"' :: next :: later) = some (doubleQuotes false, next :: later) := by
    intro next later hne
    cases later with
    | nil => rfl
    | cons third others =>
      have hquotes : ¬ (next = '"' ∧ third = '"') := by
        rintro ⟨rfl, rfl⟩
        exact hne.elim (fun h => h rfl) fun h => h rfl
      unfold openQuotes
      simp only [hquotes, show isQuote '"' = true by decide, if_true, if_false]
      rfl
  cases h with
  | nil => exact hsingle '"' rest (Or.inr hrest)
  | plain c others hquote _ _ _ => exact hsingle c _ (Or.inl hquote)
  | escape c others _ => exact hsingle '\\' _ (Or.inl (by decide))

/-- **A string between triple quotes is read as a string.** -/
theorem codeStep_block (h : Inside true body) (hfuel : body.length < fuel) :
    codeStep fuel contexts ('"' :: '"' :: '"' :: (body ++ '"' :: '"' :: '"' :: rest)) =
      .ok (some (.string, "\""), contexts, rest) :=
  codeStep_quote rfl (afterString?_inside h hfuel)

end

end SampleTypes.Source.Token
