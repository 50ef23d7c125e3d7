import SampleTypes.Proofs.Identifier.Words
import SampleTypes.Proofs.Json.Strings
import SampleTypes.Proofs.Rendering.Classes
import SampleTypes.Proofs.Source.LineEnds

/-!
# Generated modules, read

A generated module is plain code, whatever the plan: its lines are written from the pieces that a reader
of source tells apart, because the names of classes and attributes are words, a text in quotes has no
loose quote or backslash inside, and neither has a documentation. So the module has tokens, and they
are those of its lines.

## Main results

* `inside_quote`, `inside_documentation`: what stands inside the strings of a module.
* `toList_text`: the text of a module is that of its lines.
* `ofText_module`: the tokens of a module.
-/

namespace SampleTypes

open Source (Lexeme Line)

/-- How a type is written. -/
def FieldType.lexemes : FieldType → List Lexeme
  | .text => [.word "str"]
  | .number => [.word "float"]
  | .flag => [.word "bool"]
  | .texts => [.word "List", .opener '[', .word "str", .closer ']']
  | .numbers => [.word "List", .opener '[', .word "float", .closer ']']
  | .model className => [.word "Optional", .opener '[', .word className, .closer ']']
  | .forward className => [.word "Optional", .opener '[', .word className, .closer ']']
  | .ambient className _ => [.word "Optional", .opener '[', .word className, .closer ']']

/-- How a default is written. -/
def Default.lexemes : Default → List Lexeme
  | .emptyText => [.literal []]
  | .zero => [.zero]
  | .off => [.word "False"]
  | .emptyList => [.word "default_factory", .mark '=', .word "list"]
  | .nothing => [.word "None"]

/-- How the statement that declares an attribute is written. -/
def ModelField.lexemes (field : ModelField) : List Lexeme :=
  [.word field.attributeName, .mark ':', .blank] ++ field.type.lexemes ++
    [.blank, .mark '=', .blank, .word "Field", .opener '('] ++ field.default.lexemes ++
    [.mark ',', .blank, .word "alias", .mark '=',
      .literal (field.wireName.toList.flatMap Json.Printer.escapeChar), .closer ')']

namespace ClassModule

/-- Names with commas between them. -/
def listed : List String → List Lexeme
  | [] => []
  | [name] => [.word name]
  | name :: next :: names => .word name :: .mark ',' :: .blank :: listed (next :: names)

/-- How an import is written. -/
def Import.lexemes (i : Import) : List Lexeme :=
  [.word "from", .blank, .word i.source, .blank, .word "import", .blank] ++ listed i.names

/-- How the first line of a class is written. -/
def headingOf (d : Definition) : List Lexeme :=
  [.word "class", .blank, .word (Identifier.className d.name), .opener '(', .word baseName,
    .closer ')', .mark ':']

/-- How the settings of a class are written. -/
def settings : List Lexeme :=
  [.word "model_config", .blank, .mark '=', .blank, .word "ConfigDict", .opener '(',
    .word "populate_by_name", .mark '=', .word "True", .closer ')']

/-- The lines of imports, which are one line apart. -/
def importLines : List Import → List Line
  | [] => []
  | [i] => [.code false i.lexemes]
  | i :: next :: imports => .code false i.lexemes :: .empty :: importLines (next :: imports)

/-- The lines of a class. -/
def classLines (reserved : List String) (d : Definition) : List Line :=
  [.empty, .empty, .code false (headingOf d),
    .code true [.block (documentationChars (documentation d).toList)], .code true settings] ++
    if (Model.attributesOf [] reserved d).isEmpty then []
    else .empty :: (Model.attributesOf [] reserved d).map fun field => .code true field.lexemes

/-- The lines of the module of a plan. -/
def moduleLines (plan : Plan) : List Line :=
  .comment (header.toList.drop 1) :: importLines (neededImports plan.definitions) ++
    plan.definitions.flatMap (classLines (reservedNames plan.definitions))

section

variable {plan : Plan} {reserved : List String} {d : Definition} {names : List String}

/-! ## Inside strings -/

/-- The characters that a string in double quotes cannot hold without an escape. -/
def unquotable : List Char := ['"', '\\', '\n', '\r']

theorem inside_of_plain {cs : List Char} (h : ∀ c ∈ cs, c ∉ unquotable) :
    Source.Token.Inside false cs ∧ '\r' ∉ cs := by
  refine ⟨?_, fun hmem => h '\r' hmem (by decide)⟩
  induction cs with
  | nil => exact .nil
  | cons c others ih =>
    rw [List.forall_mem_cons] at h
    have hne : ∀ other ∈ unquotable, c ≠ other := fun other hother heq => h.1 (heq ▸ hother)
    refine .plain c others (hne '"' (by decide)) (hne '\\' (by decide)) (fun heq => ?_) (ih h.2)
    exact absurd heq (hne '\n' (by decide))

theorem plain_hex4 (n : Nat) : ∀ c ∈ Json.Printer.hex4 n, c ∉ unquotable := by
  have hdigit : ∀ m, Nat.digitChar (m % 16) ∉ unquotable := by
    intro m
    have hall : ∀ d < 16, Nat.digitChar d ∉ unquotable := by decide
    exact hall (m % 16) (Nat.mod_lt m (by decide))
  simp only [Json.Printer.hex4, List.forall_mem_cons, List.not_mem_nil, false_implies,
    implies_true, and_true]
  exact ⟨hdigit _, hdigit _, hdigit _, hdigit n⟩

/-- In each of its written forms, a character stands inside a string. -/
theorem inside_written {c : Char} {cs : List Char} (h : Json.Printer.Written c cs) :
    Source.Token.Inside false cs ∧ '\r' ∉ cs := by
  have hescape : ∀ c rest, c ≠ '\r' → (Source.Token.Inside false rest ∧ '\r' ∉ rest) →
      Source.Token.Inside false ('\\' :: c :: rest) ∧ '\r' ∉ '\\' :: c :: rest := by
    intro c rest hc hrest
    refine ⟨.escape c rest hrest.1, ?_⟩
    simp [hc.symm, hrest.2]
  have hunit : ∀ n, Source.Token.Inside false (Json.Printer.unitEscape n) ∧
      '\r' ∉ Json.Printer.unitEscape n :=
    fun n => hescape 'u' _ (by decide) (inside_of_plain (plain_hex4 n))
  cases h with
  | itself hlow hhigh hquote hslash =>
    have hfeed : c ≠ '\n' := by
      intro heq
      subst heq
      exact absurd hlow (by decide)
    have hreturn : c ≠ '\r' := by
      intro heq
      subst heq
      exact absurd hlow (by decide)
    exact inside_of_plain (by simp [unquotable, hquote, hslash, hfeed, hreturn])
  | letter letter hletter =>
    have hall : ∀ entry ∈ Json.Printer.letters, entry.2 ≠ '\r' := by decide
    exact hescape letter [] (hall _ hletter) ⟨.nil, List.not_mem_nil⟩
  | unit => exact hunit _
  | pair offset =>
    refine ⟨(hunit _).1.append (hunit _).1, fun hmem => ?_⟩
    exact (List.mem_append.1 hmem).elim (hunit _).2 (hunit _).2

/-- **What stands inside the quotes of a name.** -/
theorem inside_quote (cs : List Char) :
    Source.Token.Inside false (cs.flatMap Json.Printer.escapeChar) ∧
      '\r' ∉ cs.flatMap Json.Printer.escapeChar := by
  have hone := fun c => inside_written (Json.Printer.written_escapeChar c)
  refine ⟨Source.Token.inside_flatMap (fun c => (hone c).1) cs, fun hmem => ?_⟩
  obtain ⟨c, -, hc⟩ := List.mem_flatMap.1 hmem
  exact (hone c).2 hc

/-- **What stands inside the quotes of a documentation.** -/
theorem inside_documentation (cs : List Char) :
    Source.Token.Inside true (documentationChars cs) := by
  refine Source.Token.inside_flatMap (fun c => ?_) cs
  split
  · exact .escape '\\' [] .nil
  · rename_i hslash
    split
    · exact .plain '\'' [] (by decide) (by decide) (fun _ => rfl) .nil
    · rename_i hquote
      exact .plain c [] hquote hslash (fun _ => rfl) .nil

/-! ## The lines can be read -/

theorem isWord_className (name : String) : Source.Token.IsWord (Identifier.className name) :=
  Identifier.isWord_of_isPlain (Identifier.isPlain_className name)

theorem legible_heading (d : Definition) : (Line.code false (headingOf d)).Legible := by
  refine ⟨?_, ⟨_, rfl, rfl⟩, rfl⟩
  have hname : (Lexeme.word (Identifier.className d.name)).Legible := isWord_className d.name
  have hrest : ∀ one ∈ [Lexeme.opener '(', .word baseName, .closer ')', .mark ':'],
      one.Legible := Lexeme.legible_of_isFixed (by decide)
  have hclass : ∀ one ∈ [Lexeme.word "class", .blank], one.Legible :=
    Lexeme.legible_of_isFixed (by decide)
  exact List.forall_mem_append.2 ⟨hclass, List.forall_mem_cons.2 ⟨hname, hrest⟩⟩

theorem legible_settings : (Line.code true settings).Legible :=
  ⟨Lexeme.legible_of_isFixed (by decide), ⟨_, rfl, rfl⟩, rfl⟩

theorem legible_documentation (cs : List Char) :
    (Line.code true [.block (documentationChars cs)]).Legible := by
  refine ⟨?_, ⟨_, rfl, rfl⟩, rfl⟩
  simpa [Lexeme.Legible] using inside_documentation cs

/-- Names with commas between them can be told apart. -/
theorem arranged_listed (names : List String) : Lexeme.arranged [] (listed names) = true := by
  induction names with
  | nil => rfl
  | cons name others ih =>
    cases others with
    | nil => rfl
    | cons next later =>
      show Lexeme.arranged [] (.blank :: listed (next :: later)) = true
      rw [Lexeme.arranged_blank]
      exact ih

theorem legible_listed (h : ∀ name ∈ names, Source.Token.IsWord name) :
    ∀ one ∈ listed names, one.Legible := by
  induction names with
  | nil => simp [listed]
  | cons name others ih =>
    rw [List.forall_mem_cons] at h
    cases others with
    | nil => simpa [listed, Lexeme.Legible] using h.1
    | cons next later =>
      have hcomma : (Lexeme.mark ',').Legible := List.mem_of_elem_eq_true rfl
      rw [listed, List.forall_mem_cons, List.forall_mem_cons, List.forall_mem_cons]
      exact ⟨h.1, hcomma, trivial, ih h.2⟩

theorem legible_import {i : Import} (hsource : Source.Token.IsWord i.source)
    (hnames : ∀ name ∈ i.names, Source.Token.IsWord name) :
    (Line.code false i.lexemes).Legible := by
  refine ⟨?_, ⟨_, rfl, rfl⟩, ?_⟩
  · have hwords : Source.Token.IsWord "from" ∧ Source.Token.IsWord "import" := by decide
    simp only [Import.lexemes, List.forall_mem_append, List.forall_mem_cons, List.not_mem_nil,
      false_implies, implies_true, and_true]
    exact ⟨⟨hwords.1, trivial, hsource, trivial, hwords.2, trivial⟩, legible_listed hnames⟩
  · show Lexeme.arranged [] (.blank :: listed i.names) = true
    rw [Lexeme.arranged_blank]
    exact arranged_listed i.names

/-- A type can be read if the class that it names can. -/
theorem legible_type {type : FieldType}
    (hclass : ∀ className ∈ type.target?, Source.Token.IsWord className) :
    ∀ one ∈ type.lexemes, one.Legible := by
  have hoptional : ∀ className, Source.Token.IsWord className →
      ∀ one ∈ [Lexeme.word "Optional", .opener '[', .word className, .closer ']'],
        one.Legible := by
    intro className hname
    have hclass : (Lexeme.word className).Legible := hname
    have hfront : ∀ one ∈ [Lexeme.word "Optional", .opener '['], one.Legible :=
      Lexeme.legible_of_isFixed (by decide)
    have hback : ∀ one ∈ [Lexeme.closer ']'], one.Legible :=
      Lexeme.legible_of_isFixed (by decide)
    exact List.forall_mem_append.2 ⟨hfront, List.forall_mem_cons.2 ⟨hclass, hback⟩⟩
  cases type with
  | model className => exact hoptional className (hclass className rfl)
  | forward className => exact hoptional className (hclass className rfl)
  | ambient className _ => exact hoptional className (hclass className rfl)
  | _ => exact Lexeme.legible_of_isFixed (by decide)

theorem legible_field {field : ModelField} (hname : Source.Token.IsWord field.attributeName)
    (hclass : ∀ className ∈ field.type.target?, Source.Token.IsWord className) :
    (Line.code true field.lexemes).Legible := by
  refine ⟨?_, ⟨_, rfl, rfl⟩, ?_⟩
  · have hword : (Lexeme.word field.attributeName).Legible := hname
    have hdefault : ∀ one ∈ field.default.lexemes, one.Legible :=
      Lexeme.legible_of_isFixed (by cases field.default <;> decide)
    have hwire : (Lexeme.literal (field.wireName.toList.flatMap
        Json.Printer.escapeChar)).Legible := inside_quote field.wireName.toList
    have hcall : ∀ one ∈ [Lexeme.blank, .mark '=', .blank, .word "Field", .opener '('],
        one.Legible := Lexeme.legible_of_isFixed (by decide)
    have halias : ∀ one ∈ [Lexeme.mark ',', .blank, .word "alias", .mark '='], one.Legible :=
      Lexeme.legible_of_isFixed (by decide)
    have hback : ∀ one ∈ [Lexeme.closer ')'], one.Legible :=
      Lexeme.legible_of_isFixed (by decide)
    have hcolon : ∀ one ∈ [Lexeme.mark ':', .blank], one.Legible :=
      Lexeme.legible_of_isFixed (by decide)
    have hfront := List.forall_mem_cons.2 ⟨hword, hcolon⟩
    have hend := List.forall_mem_append.2 ⟨halias, List.forall_mem_cons.2 ⟨hwire, hback⟩⟩
    simp only [ModelField.lexemes, List.forall_mem_append]
    exact ⟨⟨⟨⟨hfront, legible_type hclass⟩, hcall⟩, hdefault⟩, hend⟩
  -- Whether pieces are arranged depends on their forms only, so it is computed for each form of type
  -- and default, with the names left open.
  · unfold ModelField.lexemes
    cases field.type <;> cases field.default <;> rfl

theorem legible_classLines (reserved : List String) (d : Definition) :
    ∀ line ∈ classLines reserved d, line.Legible := by
  have hfields : ∀ line ∈ (Model.attributesOf [] reserved d).map
      fun field => Line.code true field.lexemes, line.Legible := by
    intro line hline
    obtain ⟨field, hfield, rfl⟩ := List.mem_map.1 hline
    obtain ⟨name, hname, source, -, rfl⟩ := Model.exists_of_mem_attributesOf hfield
    refine legible_field ?_ fun className hclass => ?_
    · exact Identifier.isWord_of_isPlain (Identifier.isPlain_attributes _ _ name hname)
    · rw [Model.attributeOf, Model.target?_typeIn] at hclass
      split at hclass
      · cases hclass
        exact isWord_className source.reference
      · cases hclass
  have hrest : ∀ line ∈ (if (Model.attributesOf [] reserved d).isEmpty then []
      else .empty :: (Model.attributesOf [] reserved d).map
        fun field => Line.code true field.lexemes), line.Legible := by
    split
    · simp
    · exact List.forall_mem_cons.2 ⟨trivial, hfields⟩
  unfold classLines
  simp only [List.forall_mem_append, List.forall_mem_cons, List.not_mem_nil, false_implies,
    implies_true, and_true]
  exact ⟨⟨trivial, trivial, legible_heading d, legible_documentation _, legible_settings⟩, hrest⟩

/-! ### Imports -/

theorem mem_typingNames {definitions : List Definition} {name : String} :
    name ∈ typingNames definitions ↔
      ∃ d ∈ definitions, ∃ field ∈ d.fields, typingName? field = some name := by
  rw [typingNames, Text.Order.mem_sortedDistinct, List.mem_flatMap]
  simp only [List.mem_filterMap]

theorem eq_of_typingName? {field : Field} {name : String} (h : typingName? field = some name) :
    name = "List" ∨ name = "Optional" := by
  cases hkind : field.kind <;> simp_all [typingName?]

theorem mem_neededImports {definitions : List Definition} {i : Import} :
    i ∈ neededImports definitions ↔
      i = ⟨"__future__", ["annotations"]⟩ ∨
        (typingNames definitions ≠ [] ∧ i = ⟨"typing", typingNames definitions⟩) ∨
        i = ⟨"pydantic", ["BaseModel", "ConfigDict", "Field"]⟩ := by
  by_cases hnone : typingNames definitions = [] <;> simp [neededImports, hnone]

theorem mem_importLines {imports : List Import} {line : Line} (h : line ∈ importLines imports) :
    line = .empty ∨ ∃ i ∈ imports, line = .code false i.lexemes := by
  induction imports with
  | nil => cases h
  | cons i others ih =>
    cases others with
    | nil => exact Or.inr ⟨i, List.mem_cons_self, List.mem_singleton.1 h⟩
    | cons next later =>
      rcases List.mem_cons.1 h with rfl | h
      · exact Or.inr ⟨i, List.mem_cons_self, rfl⟩
      · rcases List.mem_cons.1 h with rfl | h
        · exact Or.inl rfl
        · refine (ih h).imp_right fun hlater => ?_
          obtain ⟨other, hother, hline⟩ := hlater
          exact ⟨other, List.mem_cons_of_mem i hother, hline⟩

/-- The modules that a module imports from, and the names that it imports. -/
theorem isWord_neededImports {definitions : List Definition} {i : Import}
    (h : i ∈ neededImports definitions) :
    Source.Token.IsWord i.source ∧ ∀ name ∈ i.names, Source.Token.IsWord name := by
  have htyping : ∀ name ∈ typingNames definitions, Source.Token.IsWord name := by
    intro name hname
    obtain ⟨-, -, field, -, hneeds⟩ := mem_typingNames.1 hname
    rcases eq_of_typingName? hneeds with rfl | rfl <;> decide
  rcases mem_neededImports.1 h with rfl | ⟨-, rfl⟩ | rfl
  · decide
  · exact ⟨(by decide : Source.Token.IsWord "typing"), htyping⟩
  · decide

/-- **The lines of a module can be read.** -/
theorem legible_moduleLines (plan : Plan) : ∀ line ∈ moduleLines plan, line.Legible := by
  have hheader : (Line.comment (header.toList.drop 1)).Legible := by
    unfold Line.Legible
    decide
  have himports : ∀ line ∈ importLines (neededImports plan.definitions), line.Legible := by
    intro line hline
    rcases mem_importLines hline with rfl | ⟨i, hi, rfl⟩
    · trivial
    · obtain ⟨hsource, hnames⟩ := isWord_neededImports hi
      exact legible_import hsource hnames
  have hclasses : ∀ line ∈ plan.definitions.flatMap (classLines (reservedNames plan.definitions)),
      line.Legible := by
    intro line hline
    obtain ⟨d, -, hmem⟩ := List.mem_flatMap.1 hline
    exact legible_classLines _ d line hmem
  exact List.forall_mem_append.2 ⟨List.forall_mem_cons.2 ⟨hheader, himports⟩, hclasses⟩

/-! ## The text of a module -/

/-- A line with its end. -/
def ended (line : String) : List Char :=
  line.toList ++ ['\n']

theorem toList_lines {lines : List String} (h : lines ≠ []) :
    ("\n".intercalate lines ++ "\n").toList = lines.flatMap ended := by
  induction lines with
  | nil => exact absurd rfl h
  | cons line others ih =>
    cases others with
    | nil => simp [ended]
    | cons next later =>
      have hrest := ih (List.cons_ne_nil next later)
      rw [String.intercalate_cons_cons, String.append_assoc, String.toList_append, hrest,
        List.flatMap_cons, String.toList_append]
      rfl

theorem charsOf_type (type : FieldType) : Lexeme.charsOf type.lexemes = type.written.toList := by
  cases type <;> simp [FieldType.lexemes, FieldType.written, Lexeme.charsOf, Lexeme.chars]

theorem charsOf_default (default : Default) :
    Lexeme.charsOf default.lexemes = default.written.toList := by
  cases default <;> decide

theorem charsOf_field (field : ModelField) :
    Lexeme.charsOf field.lexemes = field.statement.text.toList := by
  have htype := charsOf_type field.type
  have hdefault := charsOf_default field.default
  unfold Lexeme.charsOf at htype hdefault ⊢
  simp [ModelField.lexemes, ModelField.statement, FieldStatement.text, htype, hdefault,
    Lexeme.chars, Json.quote, Json.Printer.quoteChars]

theorem charsOf_listed (names : List String) :
    Lexeme.charsOf (listed names) = (", ".intercalate names).toList := by
  induction names with
  | nil => rfl
  | cons name others ih =>
    cases others with
    | nil => simp [listed, Lexeme.charsOf, Lexeme.chars]
    | cons next later =>
      rw [listed, Lexeme.charsOf_cons, Lexeme.charsOf_cons, Lexeme.charsOf_cons, ih,
        String.intercalate_cons_cons]
      simp [Lexeme.chars]

theorem charsOf_import (i : Import) : Lexeme.charsOf i.lexemes = i.text.toList := by
  have hnames := charsOf_listed i.names
  unfold Lexeme.charsOf at hnames ⊢
  simp [Import.lexemes, Import.text, hnames, Lexeme.chars]

theorem charsOf_imports {imports : List Import} (h : imports ≠ []) :
    Line.charsOf (importLines imports) =
      ended ("\n\n".intercalate (imports.map Import.text)) := by
  induction imports with
  | nil => exact absurd rfl h
  | cons i others ih =>
    cases others with
    | nil =>
      simp [importLines, Line.charsOf, Line.chars, Line.margin, charsOf_import, ended]
    | cons next later =>
      have hrest := ih (List.cons_ne_nil next later)
      have htwo : Line.charsOf (importLines (i :: next :: later)) =
          Lexeme.charsOf i.lexemes ++ '\n' :: '\n' :: Line.charsOf (importLines (next :: later)) := by
        simp [importLines, Line.charsOf, Line.chars, Line.margin]
      rw [htwo, hrest, charsOf_import]
      simp only [List.map_cons, String.intercalate_cons_cons]
      simp [ended]

theorem charsOf_class (reserved : List String) (d : Definition) :
    Line.charsOf (classLines reserved d) =
      ("" :: "" :: (blockOf reserved d).lines).flatMap ended := by
  have hheading : Line.chars (.code false (headingOf d)) =
      ended ("class " ++ Identifier.className d.name ++ "(" ++ baseName ++ "):") := by
    simp [Line.chars, Line.margin, headingOf, Lexeme.charsOf, Lexeme.chars, ended]
  have hdocumentation : Line.chars
      (.code true [.block (documentationChars (documentation d).toList)]) =
        ended ("    \"\"\"" ++ (blockOf reserved d).documentation ++ "\"\"\"") := by
    simp [Line.chars, Line.margin, Lexeme.charsOf, Lexeme.chars, ended, blockOf]
  have hsettings : Line.chars (.code true settings) =
      ended "    model_config = ConfigDict(populate_by_name=True)" := by decide
  have hfield : ∀ field : ModelField, Line.chars (.code true field.lexemes) =
      ended ("    " ++ field.statement.text) := by
    intro field
    simp [Line.chars, Line.margin, charsOf_field, ended]
  have hfields : ((Model.attributesOf [] reserved d).map
      fun field => Line.code true field.lexemes).flatMap Line.chars =
        ((blockOf reserved d).fields.map fun s => "    " ++ s.text).flatMap ended := by
    rw [blockOf, List.map_map, List.flatMap_map, List.flatMap_map]
    exact List.flatMap_congr fun field _ => hfield field
  have hnone : (blockOf reserved d).fields.isEmpty = (Model.attributesOf [] reserved d).isEmpty :=
    List.isEmpty_map
  unfold Line.charsOf classLines ClassBlock.lines
  rw [hnone]
  cases (Model.attributesOf [] reserved d).isEmpty with
  | true =>
    simp only [if_true, List.append_nil, List.flatMap_cons, hheading, hdocumentation, hsettings]
    rfl
  | false =>
    simp only [Bool.false_eq_true, if_false, List.flatMap_append, List.flatMap_cons, hheading,
      hdocumentation, hsettings, hfields]
    rfl

/-- **The text of a module** is that of its lines. -/
theorem toList_text (plan : Plan) :
    (moduleOf plan).text.toList = Line.charsOf (moduleLines plan) := by
  have hheader : Line.chars (.comment (header.toList.drop 1)) = ended header := by decide
  have himports : Line.charsOf (importLines (neededImports plan.definitions)) =
      ended ("\n\n".intercalate ((moduleOf plan).imports.map Import.text)) :=
    charsOf_imports (List.cons_ne_nil _ _)
  have hclasses : Line.charsOf
      (plan.definitions.flatMap (classLines (reservedNames plan.definitions))) =
        ((moduleOf plan).classes.flatMap fun c => "" :: "" :: c.lines).flatMap ended := by
    rw [Line.charsOf, moduleOf, List.flatMap_assoc, List.flatMap_assoc, List.flatMap_map]
    exact List.flatMap_congr fun d _ => charsOf_class _ d
  have hlines : (moduleOf plan).lines ≠ [] := List.cons_ne_nil _ _
  unfold Module.text
  rw [toList_lines hlines]
  rw [Module.lines, List.flatMap_cons, List.flatMap_cons, ← hclasses, ← himports,
    ← hheader, moduleLines, Line.charsOf, Line.charsOf, Line.charsOf, List.flatMap_append,
    List.flatMap_cons, List.append_assoc]

/-- **A module has tokens**, and they are those of its lines. -/
theorem ofText_module (plan : Plan) :
    Source.Token.ofText (moduleOf plan).text.toList =
      .ok (Line.tokensOf false (moduleLines plan)).toArray := by
  rw [toList_text]
  exact Source.Token.ofText_lines (legible_moduleLines plan)

end

end ClassModule

end SampleTypes
