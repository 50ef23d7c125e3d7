import SampleTypes.Proofs.Source.Imports

/-!
# Imports from reserved words

A reserved word is read as a name like any other, but no rule takes it for one. So a line that
imports from a module whose name starts with it has the tokens of an import and no reading: where
the name of the module should stand, both forms of an import stop.

That a pattern stops is seen by a look at one token. The only patterns that go past the first token
of the line are those of an import, so all that is left to do is to look at the second one.

## Main results

* `stops_importFrom`: a line whose second word is reserved is no import.
* `checkStatement_reserved`: such a line is no statement.
-/

namespace SampleTypes.Source

open Pattern Grammar

section

variable {word name : String} {parts names : List String}

/-- Where the name of a module should stand, both forms of an import stop at a reserved word. -/
theorem glance_reserved : ∀ word ∈ reservedWords,
    glance body ⟨.name, word, .blanks⟩ 20
      (.seq [.many (.first ["...", "."]), .rule .dottedName, "import", .rule .importedNames]) =
        .stops ∧
    glance body ⟨.name, word, .blanks⟩ 20
      (.seq [repeated (.first ["...", "."]), "import", .rule .importedNames]) = .stops := by
  decide +kernel

/-- The tokens of a line whose second word is this one. -/
abbrev fromTokens (word : String) (rest : List Token) : List Token :=
  ⟨.name, "from", .none⟩ :: ⟨.name, word, .blanks⟩ :: rest

/-- **A line whose second word is reserved** is no import. -/
theorem stops_importFrom (hword : word ∈ reservedWords) (rest : List Token) :
    Reads body 24 (.rule .importFrom) (fromTokens word rest) none := by
  obtain ⟨hnamed, hpointed⟩ := glance_reserved word hword
  have hfrom : Reads body 20 "from" (fromTokens word rest)
      (some ([.leaf ⟨.name, "from", .none⟩], ⟨.name, word, .blanks⟩ :: rest)) :=
    reads_word (by decide) "from" rfl
  have hfirst : Reads body 22 (.seq ["from", .many (.first ["...", "."]), .rule .dottedName,
      "import", .rule .importedNames]) (fromTokens word rest) none :=
    .seqBreak (by decide) hfrom (.of_stops hnamed)
  have hsecond : Reads body 21 (.seq ["from", repeated (.first ["...", "."]), "import",
      .rule .importedNames]) (fromTokens word rest) none :=
    .seqBreak (by decide) hfrom (.of_stops hpointed)
  have hbody : Reads body 23 (body .importFrom) (fromTokens word rest) none :=
    .firstNext (d := 22) (by decide) hfirst
      (.firstNext (d := 21) (by decide) hsecond (.firstNil (by decide)))
  exact .ruleStop (by decide) hbody

/-- No choice for a simple statement goes past the first word but that of imports. -/
theorem stops_simpleStatement (hword : word ∈ reservedWords) (rest : List Token) :
    Reads body 70 (.rule .simpleStatement) (fromTokens word rest) none := by
  have himport : Reads body 61 (.seq [.ahead ["from"], .rule .importFrom]) (fromTokens word rest)
      none :=
    .seqBreak (d := 60) (by decide) (.ahead (by decide) rfl)
      (.seqStop (d := 24) (by decide) (stops_importFrom hword rest))
  have hbody : Reads body (62 + 5) (body .simpleStatement) (fromTokens word rest) none :=
    Reads.skip (n := 5) (g := 60) (by decide +kernel) (by decide)
      (.firstNext (d := 61) (by decide) himport (.of_stops (by decide +kernel)))
  exact .ruleStop (by decide) hbody

/-- No choice for a statement goes past the first word but that of simple statements, which is the
last one. -/
theorem stops_single (hword : word ∈ reservedWords) (rest : List Token) :
    Reads body 90 (.rule .single) (fromTokens word rest) none := by
  have hline : Reads body 72 (.rule .simpleStatements) (fromTokens word rest) none :=
    .ruleStop (d := 71) (by decide)
      (.seqStop (d := 70) (by decide) (stops_simpleStatement hword rest))
  have hchoice : Reads body (73 + 9) (body .statement) (fromTokens word rest) none :=
    Reads.skip (n := 9) (g := 60) (by decide +kernel) (by decide)
      (.firstNext (d := 72) (by decide) hline (.firstNil (by decide)))
  have hstatement : Reads body 83 (.rule .statement) (fromTokens word rest) none :=
    .ruleStop (d := 82) (by decide) hchoice
  exact .ruleStop (d := 84) (by decide) (.seqStop (d := 83) (by decide) hstatement)

/-- **An import from a module that is called by a reserved word is no statement**, whatever is
imported. -/
theorem checkStatement_reserved (hword : word ∈ reservedWords)
    (hparts : ∀ part ∈ parts, Token.ReadsAsName part) (hname : Token.ReadsAsName name)
    (hnames : ∀ name ∈ names, Token.ReadsAsName name) :
    ∃ expected, checkStatement ("from " ++ ".".intercalate (word :: parts) ++ " import " ++
      ", ".intercalate (name :: names)) = .error (.noReading (.unexpected expected)) := by
  have hread : Token.ReadsAsName word := by
    have hall : ∀ word ∈ reservedWords, Token.IsWord word := by decide +kernel
    exact Token.readsAsName_of_isWord (hall word hword)
  have hstops : Reads body 90 (.rule .single)
      (importTokens word parts name names ++ lineEnd).toArray.toList none :=
    stops_single hword _
  obtain ⟨expected, hexpected⟩ := Pattern.read_eq_error hstops (by omega)
  refine ⟨expected, ?_⟩
  rw [checkStatement, toList_import, readAs, ofText_import hread hparts hname hnames]
  simp only [hexpected]
  rfl

end

end SampleTypes.Source
