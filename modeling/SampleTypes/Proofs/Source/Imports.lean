import SampleTypes.Proofs.Source.ImportLines
import SampleTypes.Proofs.Source.Parsing
import SampleTypes.Source.Reading

/-!
# Imports of legal names

A line that imports names from a module is a statement if all of them are legal: identifiers that
are no reserved words, with points between those of the module.

Its tokens are read by the one choice of the grammar that does not stop at the first of them. That
the others stop is seen by a look at this token, so nothing has to be said about the rules that they
lead to. And what comes of the tokens has no fault, because every name in it is an identifier and no
word in it has to be kept apart from what stands beside it.

## Main results

* `reads_pairs`: names with marks between them are read one by one.
* `reads_import`: the reading of a line that imports.
* `plain_node`: what is made of parts without fault has none.
* `checkStatement_import`: an import of legal names is a statement.
-/

namespace SampleTypes.Source

/-! ## Legal names -/

/-- A legal name: an identifier that is no reserved word. -/
def IsName (text : String) : Prop :=
  Text.CharClass.isIdentifier text = true ∧ text ∉ reservedWords

instance (text : String) : Decidable (IsName text) :=
  inferInstanceAs (Decidable (_ ∧ _))

/-! ## The reading -/

section

open Pattern Grammar

variable {text part name mark : String} {parts names : List String} {gap : Token.Gap}
  {here next last : Token} {rest : List Token} {element : Rule} {d : Nat}

/-- A legal name is none of the words and marks of the grammar. -/
theorem IsName.ne {word : String} (h : IsName text)
    (hword : word ∈ reservedWords ∨ Text.CharClass.isIdentifier word = false) : text ≠ word := by
  rintro rfl
  rcases hword with hword | hword
  · exact h.2 hword
  · rw [h.1] at hword
    cases hword

/-- The reading of a name. -/
def nameTree (gap : Token.Gap) (text : String) : Tree Rule :=
  .node .name [.leaf ⟨.name, text, gap⟩]

/-- The readings of a mark and the name behind it. -/
def pairTrees (mark : String) (gap : Token.Gap) (text : String) : List (Tree Rule) :=
  [.leaf ⟨.mark, mark, .none⟩, nameTree gap text]

theorem reads_word (hd : 0 < d) (word : String) (h : here.text = word) :
    Reads body d (.token (.text word)) (here :: rest) (some ([.leaf here], rest)) :=
  .token hd (decide_eq_true h)

theorem reads_otherWord (hd : 0 < d) (word : String) (h : here.text ≠ word) :
    Reads body d (.token (.text word)) (here :: rest) none :=
  .otherToken hd (decide_eq_false h)

theorem reads_name (h : IsName text) :
    Reads body 2 (.rule .name) (⟨.name, text, gap⟩ :: rest) (some ([nameTree gap text], rest)) := by
  have hholds : Test.identifier.holds ⟨.name, text, gap⟩ = true := by
    simp [Test.holds, h.2]
  have htoken : Reads body 1 (body .name) (⟨.name, text, gap⟩ :: rest)
      (some ([.leaf ⟨.name, text, gap⟩], rest)) := .token (by decide) hholds
  exact .ruleFit (by decide) htoken

/-- A name that is imported under no other one. -/
theorem reads_importedName (h : IsName text) (hnext : next.text ≠ "as") :
    Reads body 6 (.rule .importedName) (⟨.name, text, gap⟩ :: next :: rest)
      (some ([nameTree gap text], next :: rest)) := by
  have hrenamed : Reads body 2 (.seq ["as", .rule .name]) (next :: rest) none :=
    .seqStop (d := 1) (by decide) (reads_otherWord (by decide) "as" hnext)
  have hoption : Reads body 3 (.option (.seq ["as", .rule .name])) (next :: rest)
      (some ([], next :: rest)) := .optionStop (by decide) hrenamed
  have hseq : Reads body 5 (body .importedName) (⟨.name, text, gap⟩ :: next :: rest)
      (some ([nameTree gap text], next :: rest)) :=
    .seqNext (d := 4) (by decide) ((reads_name h).mono (by decide)) (hoption.last (by decide))
  exact .ruleFit (by decide) hseq

/-- What comes behind the first name of a list. -/
theorem reads_pairs (hnames : ∀ text ∈ names, ∀ next rest, next.text ≠ "as" →
      Reads body d (.rule element) (⟨.name, text, gap⟩ :: next :: rest)
        (some ([nameTree gap text], next :: rest)))
    (hmark : mark ≠ "as") (hlast : last.text ≠ "as" ∧ last.text ≠ mark) :
    Reads body (d + names.length + 3) (.many (.seq [.token (.text mark), .rule element]))
      (names.flatMap (pair mark gap) ++ last :: rest)
      (some (names.flatMap (pairTrees mark gap), last :: rest)) := by
  induction names with
  | nil =>
    exact .manyStop (d := 2) (by omega)
      (.seqStop (d := 1) (by decide) (reads_otherWord (by decide) mark hlast.2))
  | cons text others ih =>
    obtain ⟨next, more, hmore, hnext⟩ : ∃ next more,
        others.flatMap (pair mark gap) ++ last :: rest = next :: more ∧ next.text ≠ "as" := by
      cases others with
      | nil => exact ⟨last, rest, rfl, hlast.1⟩
      | cons other later => exact ⟨_, _, rfl, hmark⟩
    have hothers := ih fun other hother => hnames other (List.mem_cons_of_mem _ hother)
    have helement := hnames text List.mem_cons_self next more hnext
    rw [hmore] at hothers
    have hpart : Reads body (d + others.length + 3) (.seq [.token (.text mark), .rule element])
        (⟨.mark, mark, .none⟩ :: ⟨.name, text, gap⟩ :: next :: more)
        (some (pairTrees mark gap text, next :: more)) :=
      .seqNext (d := d + 2) (by omega) (reads_word (by omega) mark rfl) (helement.last (by omega))
    rw [List.flatMap_cons, List.append_assoc, hmore]
    exact .manyNext (d := d + others.length + 3) (by simp) hpart (by simp [pair]) hothers

/-- The tokens of a dotted name, in front of others. -/
abbrev dottedTokens (part : String) (parts : List String) (rest : List Token) : List Token :=
  ⟨.name, part, .blanks⟩ :: (parts.flatMap (pair "." .none) ++ rest)

/-- The tokens of imported names and the end of the line. -/
abbrev namesTokens (name : String) (names : List String) : List Token :=
  ⟨.name, name, .blanks⟩ :: (names.flatMap (pair "," .blanks) ++ lineEnd)

/-- The reading of a dotted name. -/
def dottedTree (part : String) (parts : List String) : Tree Rule :=
  Tree.ofRule .dottedName (nameTree .blanks part :: parts.flatMap (pairTrees "." .none))

/-- The reading of imported names. -/
def namesTree (name : String) (names : List String) : Tree Rule :=
  Tree.ofRule .importedNames (nameTree .blanks name :: names.flatMap (pairTrees "," .blanks))

/-- The reading of an import. -/
def importTree (part : String) (parts : List String) (name : String) (names : List String) :
    Tree Rule :=
  .node .importFrom [.leaf ⟨.name, "from", .none⟩, dottedTree part parts,
    .leaf ⟨.name, "import", .blanks⟩, namesTree name names]

theorem reads_dottedName (hpart : IsName part) (hparts : ∀ part ∈ parts, IsName part)
    (hlast : last.text ≠ "as" ∧ last.text ≠ ".") :
    Reads body (parts.length + 8) (.rule .dottedName)
      (dottedTokens part parts (last :: rest))
      (some ([dottedTree part parts], last :: rest)) := by
  have hpoints : Reads body (2 + parts.length + 3) (.many (.seq [".", .rule .name]))
      (parts.flatMap (pair "." .none) ++ last :: rest)
      (some (parts.flatMap (pairTrees "." .none), last :: rest)) :=
    reads_pairs (fun text htext _ _ _ => reads_name (hparts text htext)) (by decide) hlast
  have hseq : Reads body (parts.length + 7) (body .dottedName)
      (dottedTokens part parts (last :: rest))
      (some (nameTree .blanks part :: parts.flatMap (pairTrees "." .none), last :: rest)) :=
    .seqNext (d := parts.length + 6) (by omega) ((reads_name hpart).mono (by omega))
      (hpoints.last (by omega))
  exact .ruleFit (by omega) hseq

theorem reads_importedNames (hname : IsName name) (hnames : ∀ name ∈ names, IsName name) :
    Reads body (names.length + 16) (.rule .importedNames)
      (namesTokens name names)
      (some ([namesTree name names], lineEnd)) := by
  have hcommas : Reads body (6 + names.length + 3) (.many (.seq [",", .rule .importedName]))
      (names.flatMap (pair "," .blanks) ++ lineEnd)
      (some (names.flatMap (pairTrees "," .blanks), lineEnd)) :=
    reads_pairs (fun text htext _ _ hnext => reads_importedName (hnames text htext) hnext)
      (by decide) (by decide)
  obtain ⟨next, more, hmore, hnext⟩ : ∃ next more,
      names.flatMap (pair "," .blanks) ++ lineEnd = next :: more ∧ next.text ≠ "as" := by
    cases names with
    | nil => exact ⟨_, _, rfl, by decide⟩
    | cons other later => exact ⟨_, _, rfl, by decide⟩
  have hfirst : Reads body 6 (.rule .importedName)
      (namesTokens name names)
      (some ([nameTree .blanks name], names.flatMap (pair "," .blanks) ++ lineEnd)) := by
    rw [namesTokens, hmore]
    exact reads_importedName hname hnext
  have hlisted : Reads body (names.length + 11) (Grammar.listed (.rule .importedName))
      (namesTokens name names)
      (some (nameTree .blanks name :: names.flatMap (pairTrees "," .blanks), lineEnd)) :=
    .seqNext (d := names.length + 10) (by omega) (hfirst.mono (by omega)) (hcommas.last (by omega))
  have hend : Reads body 1 (.notAhead [","]) lineEnd (some ([], lineEnd)) :=
    .notAhead (by decide) (by decide)
  have hopen : Reads body 2 (.seq ["(", Grammar.closed (.rule .importedName), ")"])
      (namesTokens name names) none :=
    .seqStop (d := 1) (by decide) (reads_otherWord (by decide) "(" (hname.ne (by decide)))
  have hseq : Reads body (names.length + 12)
      (.seq [Grammar.listed (.rule .importedName), .notAhead [","]])
      (namesTokens name names)
      (some ((nameTree .blanks name :: names.flatMap (pairTrees "," .blanks)) ++ [], lineEnd)) :=
    .seqNext (d := names.length + 11) (by omega) hlisted (hend.last (by omega))
  rw [List.append_nil] at hseq
  have hbody : Reads body (names.length + 14) (body .importedNames)
      (namesTokens name names)
      (some (nameTree .blanks name :: names.flatMap (pairTrees "," .blanks), lineEnd)) :=
    .firstNext (d := names.length + 13) (by omega) (hopen.mono (by omega))
      (.firstFit (d := names.length + 12) (by omega) hseq)
  exact .ruleFit (by omega) hbody

/-- No points stand in front of a name. -/
theorem reads_noPoints (hpart : IsName part) :
    Reads body 4 (.many (.first ["...", "."])) (⟨.name, part, gap⟩ :: rest)
      (some ([], ⟨.name, part, gap⟩ :: rest)) := by
  have hlong : Reads body 1 "..." (⟨.name, part, gap⟩ :: rest) none :=
    reads_otherWord (by decide) "..." (hpart.ne (by decide))
  have hshort : Reads body 1 "." (⟨.name, part, gap⟩ :: rest) none :=
    reads_otherWord (by decide) "." (hpart.ne (by decide))
  have hnone : Reads body 2 (.first ["."]) (⟨.name, part, gap⟩ :: rest) none :=
    .firstNext (d := 1) (by decide) hshort (.firstNil (by decide))
  exact .manyStop (d := 3) (by decide)
    (.firstNext (d := 2) (by decide) (hlong.mono (by decide)) hnone)

/-- The tokens of a line that imports. -/
abbrev lineTokens (part : String) (parts : List String) (name : String) (names : List String) :
    List Token :=
  ⟨.name, "from", .none⟩ :: dottedTokens part parts
    (⟨.name, "import", .blanks⟩ :: namesTokens name names)

/-- The reading of the line. -/
def lineTree (part : String) (parts : List String) (name : String) (names : List String) :
    Tree Rule :=
  .node .simpleStatements [importTree part parts name names, .leaf ⟨.newline, "", .none⟩]

/-- **An import** is read by the first choice of its rule. -/
theorem reads_importFrom (hpart : IsName part) (hparts : ∀ part ∈ parts, IsName part)
    (hname : IsName name) (hnames : ∀ name ∈ names, IsName name) :
    Reads body (parts.length + names.length + 30) (.rule .importFrom)
      (lineTokens part parts name names)
      (some ([importTree part parts name names], lineEnd)) := by
  have himport : Reads body (names.length + 18) (.seq ["import", .rule .importedNames])
      (⟨.name, "import", .blanks⟩ :: namesTokens name names)
      (some ([.leaf ⟨.name, "import", .blanks⟩, namesTree name names], lineEnd)) :=
    .seqNext (d := names.length + 17) (by omega) (reads_word (by omega) "import" rfl)
      ((reads_importedNames hname hnames).last (by omega))
  have hdotted : Reads body (parts.length + names.length + 20)
      (.seq [.rule .dottedName, "import", .rule .importedNames])
      (dottedTokens part parts (⟨.name, "import", .blanks⟩ :: namesTokens name names))
      (some ([dottedTree part parts, .leaf ⟨.name, "import", .blanks⟩, namesTree name names],
        lineEnd)) :=
    .seqNext (d := parts.length + names.length + 18) (by omega)
      ((reads_dottedName hpart hparts (by decide)).mono (by omega)) (himport.mono (by omega))
  have hpoints : Reads body (parts.length + names.length + 22)
      (.seq [.many (.first ["...", "."]), .rule .dottedName, "import", .rule .importedNames])
      (dottedTokens part parts (⟨.name, "import", .blanks⟩ :: namesTokens name names))
      (some ([dottedTree part parts, .leaf ⟨.name, "import", .blanks⟩, namesTree name names],
        lineEnd)) :=
    .seqNext (d := parts.length + names.length + 20) (by omega)
      ((reads_noPoints hpart).mono (by omega)) hdotted
  have hfrom : Reads body (parts.length + names.length + 24)
      (.seq ["from", .many (.first ["...", "."]), .rule .dottedName, "import",
        .rule .importedNames])
      (lineTokens part parts name names)
      (some ([.leaf ⟨.name, "from", .none⟩, dottedTree part parts,
        .leaf ⟨.name, "import", .blanks⟩, namesTree name names], lineEnd)) :=
    .seqNext (d := parts.length + names.length + 22) (by omega)
      (reads_word (by omega) "from" rfl) hpoints
  have hbody : Reads body (parts.length + names.length + 26) (body .importFrom)
      (lineTokens part parts name names)
      (some ([.leaf ⟨.name, "from", .none⟩, dottedTree part parts,
        .leaf ⟨.name, "import", .blanks⟩, namesTree name names], lineEnd)) :=
    .firstFit (d := parts.length + names.length + 24) (by omega) hfrom
  exact .ruleFit (by omega) hbody

/-- No choice for a simple statement that is tried before imports goes past their first word. -/
theorem reads_simpleStatement (hpart : IsName part) (hparts : ∀ part ∈ parts, IsName part)
    (hname : IsName name) (hnames : ∀ name ∈ names, IsName name) :
    Reads body (parts.length + names.length + 70) (.rule .simpleStatement)
      (lineTokens part parts name names)
      (some ([importTree part parts name names], lineEnd)) := by
  have himport := (reads_importFrom hpart hparts hname hnames).last (Nat.lt_succ_self _)
  have hahead : Reads body (parts.length + names.length + 61)
      (.seq [.ahead ["from"], .rule .importFrom]) (lineTokens part parts name names)
      (some ([importTree part parts name names], lineEnd)) :=
    .seqNext (d := parts.length + names.length + 60) (by omega) (.ahead (by omega) rfl)
      (himport.mono (by omega))
  have hbody : Reads body (parts.length + names.length + 62 + 5) (body .simpleStatement)
      (lineTokens part parts name names)
      (some ([importTree part parts name names], lineEnd)) :=
    Reads.skip (n := 5) (g := 60) (by decide +kernel) (by omega)
      (.firstFit (d := parts.length + names.length + 61) (by omega) hahead)
  exact .ruleFit (by omega) hbody

theorem reads_simpleStatements (hpart : IsName part) (hparts : ∀ part ∈ parts, IsName part)
    (hname : IsName name) (hnames : ∀ name ∈ names, IsName name) :
    Reads body (parts.length + names.length + 80) (.rule .simpleStatements)
      (lineTokens part parts name names)
      (some ([lineTree part parts name names], [⟨.finish, "", .none⟩])) := by
  have hmore : Reads body 10 (.many (.seq [";", .rule .simpleStatement])) lineEnd
      (some ([], lineEnd)) := .of_passes (by decide +kernel)
  have hmark : Reads body 10 (.option ";") lineEnd (some ([], lineEnd)) :=
    .of_passes (by decide +kernel)
  have hnewline : Reads body 10 newline lineEnd
      (some ([.leaf ⟨.newline, "", .none⟩], [⟨.finish, "", .none⟩])) := .token (by decide) rfl
  have hrest : Reads body 13
      (.seq [.many (.seq [";", .rule .simpleStatement]), .option ";", newline]) lineEnd
      (some ([.leaf ⟨.newline, "", .none⟩], [⟨.finish, "", .none⟩])) :=
    .seqNext (d := 12) (by decide) (hmore.mono (by decide))
      (.seqNext (d := 11) (by decide) (hmark.mono (by decide)) (hnewline.last (by decide)))
  have hbody : Reads body (parts.length + names.length + 71) (body .simpleStatements)
      (lineTokens part parts name names)
      (some ([importTree part parts name names, .leaf ⟨.newline, "", .none⟩],
        [⟨.finish, "", .none⟩])) :=
    .seqNext (d := parts.length + names.length + 70) (by omega)
      (reads_simpleStatement hpart hparts hname hnames) (hrest.mono (by omega))
  exact .ruleFit (by omega) hbody

/-- **A line that imports** is read as one statement. No choice for a statement goes past its first
word but the last one, that for lines of simple statements. -/
theorem reads_import (hpart : IsName part) (hparts : ∀ part ∈ parts, IsName part)
    (hname : IsName name) (hnames : ∀ name ∈ names, IsName name) :
    Reads body (parts.length + names.length + 100) (.rule .single)
      (lineTokens part parts name names)
      (some ([.node .single [lineTree part parts name names, .leaf ⟨.finish, "", .none⟩]],
        [])) := by
  have hchoice : Reads body (parts.length + names.length + 81 + 9) (body .statement)
      (lineTokens part parts name names)
      (some ([lineTree part parts name names], [⟨.finish, "", .none⟩])) :=
    Reads.skip (n := 9) (g := 60) (by decide +kernel) (by omega)
      (.firstFit (d := parts.length + names.length + 80) (by omega)
        (reads_simpleStatements hpart hparts hname hnames))
  have hstatement : Reads body (parts.length + names.length + 95) (.rule .statement)
      (lineTokens part parts name names)
      (some ([lineTree part parts name names], [⟨.finish, "", .none⟩])) :=
    .ruleFit (by omega) hchoice
  have hfinish : Reads body 1 finish [⟨.finish, "", .none⟩]
      (some ([.leaf ⟨.finish, "", .none⟩], [])) := .token (by decide) rfl
  have hbody : Reads body (parts.length + names.length + 96) (body .single)
      (lineTokens part parts name names)
      (some ([lineTree part parts name names, .leaf ⟨.finish, "", .none⟩], [])) :=
    .seqNext (d := parts.length + names.length + 95) (by omega) hstatement
      (hfinish.last (by omega))
  exact .ruleFit (by omega) hbody

end

/-! ## Soundness -/

namespace Soundness

section

variable {r : Rule} {parts : List (Tree Rule)}

/-- Parts are kept apart well enough if no word among them has to be. -/
theorem spacing_eq_none (hbehind : ∀ word, behindWord r word = none)
    (hbefore : ∀ part ∈ parts, ∀ token ∈ firstToken? part, beforeWord r token.text = none) :
    spacing r parts = none := by
  induction parts with
  | nil => rfl
  | cons part rest ih =>
    have hrest := ih fun other hother => hbefore other (List.mem_cons_of_mem _ hother)
    rw [spacing.eq_def]
    split
    · rename_i heq
      cases heq
      simpa only [hbehind] using hrest
    · rename_i next _ heq
      cases heq
      cases hword : firstToken? next with
      | none => exact hrest
      | some word =>
        have hnone := hbefore next (List.mem_cons_of_mem _ List.mem_cons_self) word hword
        simpa only [hnone] using hrest
    · rename_i heq
      cases heq
      exact hrest
    · rfl

/-- A part has no fault if nothing that it is made of has one, and it is made up well. -/
theorem fault?_eq_none (horder : ∀ faults, inOrder r faults = faults)
    (hown : ownFault? r parts = none) (hparts : ∀ part ∈ parts, fault? part = none) :
    fault? (.node r parts) = none := by
  have hfaults : ∀ found ∈ faults parts, found.2 = none := by
    clear hown
    induction parts with
    | nil => nofun
    | cons part rest ih =>
      rw [faults, List.forall_mem_cons]
      exact ⟨hparts part List.mem_cons_self,
        ih fun other hother => hparts other (List.mem_cons_of_mem _ hother)⟩
  rw [fault?, horder, List.findSome?_eq_none_iff.2 hfaults]
  exact hown

end

end Soundness

section

open Soundness

variable {text part name mark : String} {parts names : List String} {gap : Token.Gap} {r : Rule}
  {token : Token} {tree : Tree Rule} {trees : List (Tree Rule)}

/-- The rules that make up a line that imports, names aside. -/
def importRules : List Rule :=
  [.dottedName, .importedNames, .importFrom, .simpleStatements, .single]

/-- A reading without fault that starts with no word which would have to be kept apart. -/
structure Plain (tree : Tree Rule) : Prop where
  sound : fault? tree = none
  first : ∀ token ∈ firstToken? tree, token.text ≠ "for" ∧ token.text ≠ "async"

theorem plain_leaf (h : token.text ≠ "for" ∧ token.text ≠ "async") : Plain (.leaf token) where
  sound := fault?_leaf token
  first := by
    rintro other ⟨⟩
    exact h

theorem plain_nameTree (h : IsName text) : Plain (nameTree gap text) where
  sound := by
    have hown : ownFault? .name [.leaf ⟨.name, text, gap⟩] = none := by
      rw [ownFault?, if_pos h.1]
    refine fault?_eq_none (fun _ => rfl) hown fun part hpart => ?_
    rw [List.mem_singleton.1 hpart, fault?_leaf]
  first := by
    rintro other ⟨⟩
    exact ⟨h.ne (by decide), h.ne (by decide)⟩

/-- In an import no other words have to be kept apart. -/
theorem beforeWord_eq_none (hr : r ∈ importRules) (hfor : text ≠ "for") (hasync : text ≠ "async") :
    beforeWord r text = none := by
  simp only [importRules, List.mem_cons, List.not_mem_nil, or_false] at hr
  unfold beforeWord
  split <;> simp_all

theorem spacing_import (hr : r ∈ importRules) (htrees : ∀ tree ∈ trees, Plain tree) :
    spacing r trees = none := by
  refine spacing_eq_none (fun word => ?_) fun tree htree token htoken => ?_
  · have hrules : ∀ r ∈ importRules, behindWord r word = none := by
      simp only [importRules, List.forall_mem_cons]
      exact ⟨rfl, rfl, rfl, rfl, rfl, nofun⟩
    exact hrules r hr
  · have hfirst := (htrees tree htree).first token htoken
    exact beforeWord_eq_none hr hfirst.1 hfirst.2

/-- **What is made of plain parts is plain.** -/
theorem plain_node (hr : r ∈ importRules) (htrees : ∀ tree ∈ trees, Plain tree) :
    Plain (.node r trees) where
  sound := by
    have hspacing := spacing_import hr htrees
    have hsound : ∀ tree ∈ trees, fault? tree = none := fun tree htree => (htrees tree htree).sound
    have hrules : ∀ r ∈ importRules, spacing r trees = none → fault? (.node r trees) = none := by
      simp only [importRules, List.forall_mem_cons]
      exact ⟨fun h => fault?_eq_none (fun _ => rfl) h hsound,
        fun h => fault?_eq_none (fun _ => rfl) h hsound,
        fun h => fault?_eq_none (fun _ => rfl) h hsound,
        fun h => fault?_eq_none (fun _ => rfl) h hsound,
        fun h => fault?_eq_none (fun _ => rfl) h hsound, nofun⟩
    exact hrules r hr hspacing
  first := by
    clear hr
    intro token htoken
    rw [Option.mem_def, firstToken?] at htoken
    induction trees with
    | nil => cases htoken
    | cons tree rest ih =>
      rw [firstAmong?] at htoken
      split at htoken
      · rename_i first hfirst
        cases htoken
        exact (htrees tree List.mem_cons_self).first token hfirst
      · exact ih (fun other hother => htrees other (List.mem_cons_of_mem _ hother)) htoken

/-- Names with a mark between them are plain, a single one among them. -/
theorem plain_pairs (hr : r ∈ importRules) (hmark : mark ≠ "for" ∧ mark ≠ "async")
    (hname : IsName name) (hnames : ∀ name ∈ names, IsName name) :
    Plain (Tree.ofRule r (nameTree .blanks name :: names.flatMap (pairTrees mark gap))) := by
  cases names with
  | nil => exact plain_nameTree hname
  | cons other later =>
    refine plain_node hr (List.forall_mem_cons.2 ⟨plain_nameTree hname, fun tree htree => ?_⟩)
    obtain ⟨text, htext, htree⟩ := List.mem_flatMap.1 htree
    simp only [pairTrees, List.mem_cons, List.not_mem_nil, or_false] at htree
    rcases htree with rfl | rfl
    · exact plain_leaf hmark
    · exact plain_nameTree (hnames text htext)

theorem plain_lineTree (hpart : IsName part) (hparts : ∀ part ∈ parts, IsName part)
    (hname : IsName name) (hnames : ∀ name ∈ names, IsName name) :
    Plain (lineTree part parts name names) := by
  have hdotted : Plain (dottedTree part parts) :=
    plain_pairs (by decide) (by decide) hpart hparts
  have hlisted : Plain (namesTree name names) :=
    plain_pairs (by decide) (by decide) hname hnames
  have himport : Plain (importTree part parts name names) := by
    refine plain_node (by decide) ?_
    simp only [List.forall_mem_cons]
    exact ⟨plain_leaf (by decide), hdotted, plain_leaf (by decide), hlisted, nofun⟩
  refine plain_node (by decide) ?_
  simp only [List.forall_mem_cons]
  exact ⟨himport, plain_leaf (by decide), nofun⟩

/-- **An import of legal names is a statement.** -/
theorem checkStatement_import (hpart : IsName part) (hparts : ∀ part ∈ parts, IsName part)
    (hname : IsName name) (hnames : ∀ name ∈ names, IsName name) :
    checkStatement ("from " ++ ".".intercalate (part :: parts) ++ " import " ++
      ", ".intercalate (name :: names)) = .ok () := by
  have htokens := ofText_import (Token.readsAsName_of_isIdentifier hpart.1)
    (fun part hmem => Token.readsAsName_of_isIdentifier (hparts part hmem).1)
    (Token.readsAsName_of_isIdentifier hname.1)
    (fun name hmem => Token.readsAsName_of_isIdentifier (hnames name hmem).1)
  have hline : importTokens part parts name names ++ lineEnd =
      lineTokens part parts name names := by
    simp [importTokens]
  rw [hline] at htokens
  have hdepth : parts.length + names.length + 100 ≤
      500 * ((lineTokens part parts name names).toArray.size + 2) := by
    simp only [List.size_toArray, List.length_cons, List.length_append, length_pairs]
    omega
  have hread : Pattern.read Grammar.body .single (lineTokens part parts name names).toArray =
      .ok (.node .single [lineTree part parts name names, .leaf ⟨.finish, "", .none⟩]) :=
    Pattern.read_eq_ok (reads_import hpart hparts hname hnames) hdepth
  have hsound : Plain (.node .single [lineTree part parts name names,
      .leaf ⟨.finish, "", .none⟩]) := by
    refine plain_node (by decide) ?_
    simp only [List.forall_mem_cons]
    exact ⟨plain_lineTree hpart hparts hname hnames, plain_leaf (by decide), nofun⟩
  rw [checkStatement, toList_import, readAs, htokens]
  simp only [hread, hsound.sound]
  rfl

end

end SampleTypes.Source
