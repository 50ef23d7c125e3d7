import SampleTypes.Proofs.Identifier.Spelling
import SampleTypes.Proofs.Rendering.Names

/-!
# Classes named like imports

Attributes keep clear of the names that a module imports. Class names do not: a class is called what
the name of its type spells, and a type may be called anything. A class named like an import binds
that name again, and what stands behind the class means the class.

## Main results

* `mem_defined`, `imported_and_used_iff`: what a module binds by classes, and which imports it uses.
* `class_rebinds_import_iff`: when a class has the name of an import in use.
* `class_of_field_rebinds_field`: a document for which this happens.
-/

namespace SampleTypes

open Json (Members)
open Source (Clause Lexeme)

/-- The names of the types of a document: those of its hoisted objects, and the name of the root. -/
def typeNames (discriminator root : String) (document : Members) : List String :=
  (hoistedTypes discriminator document).map Prod.snd ++ [root]

theorem map_name_definitions (discriminator root : String) (document : Members) :
    (planOfMembers discriminator root document).definitions.map Definition.name =
      typeNames discriminator root document := by
  rw [definitions_eq_owned, List.map_append, List.map_map]
  rfl

namespace ClassModule

/-- The imports that the definitions of a module need: every class needs its base and its settings,
an attribute needs the call of a field, and some types need a name of their own. -/
def Needed (definitions : List Definition) (name : String) : Prop :=
  name = "BaseModel" ∨ name = "ConfigDict" ∨
    (name = "Field" ∧ ∃ d ∈ definitions, d.supported ≠ []) ∨ name ∈ typingNames definitions

section

variable {plan : Plan} {name text : String} {d : Definition}

/-! ## What classes bind -/

theorem defined_import (i : Import) : (Lexeme.clauseOf i.lexemes).defined = [] := rfl

theorem defined_field (field : ModelField) : (Lexeme.clauseOf field.lexemes).defined = [] := rfl

/-- Only the first line of a class defines a class. -/
theorem mem_defined : name ∈ (clauses plan).flatMap Clause.defined ↔
    ∃ d ∈ plan.definitions, Identifier.className d.name = name := by
  constructor
  · intro h
    obtain ⟨c, hc, hname⟩ := List.mem_flatMap.1 h
    rcases mem_clauses.1 hc with ⟨i, -, rfl⟩ | ⟨d, hd, hmem⟩ | rfl
    · rw [defined_import] at hname
      cases hname
    · rcases mem_clausesOf.1 hmem with rfl | rfl | rfl | ⟨field, -, rfl⟩
      · rw [(bound_heading d).2, List.mem_singleton] at hname
        exact ⟨d, hd, hname.symm⟩
      · cases hname
      · cases hname
      · rw [defined_field] at hname
        cases hname
    · cases hname
  · rintro ⟨d, hd, rfl⟩
    have hheading : Lexeme.clauseOf (headingOf d) ∈ clausesOf (reservedNames plan.definitions) d :=
      mem_clausesOf.2 (Or.inl rfl)
    refine List.mem_flatMap.2 ⟨_, mem_clauses.2 (Or.inr (Or.inl ⟨d, hd, hheading⟩)), ?_⟩
    rw [(bound_heading d).2]
    exact List.mem_cons_self

/-! ## Imports in use -/

theorem mem_imported_iff : name ∈ (clauses plan).flatMap Clause.imported ↔
    ∃ i ∈ neededImports plan.definitions, name ∈ i.names := by
  refine ⟨exists_import, fun ⟨i, hi, hname⟩ => ?_⟩
  refine List.mem_flatMap.2 ⟨_, mem_clauses.2 (Or.inl ⟨i, hi, rfl⟩), ?_⟩
  rw [imported_import]
  exact hname

/-- What a clause of a class uses, the module uses. -/
theorem mem_used_of_clause {c : Clause} (hd : d ∈ plan.definitions)
    (hc : c ∈ clausesOf (reservedNames plan.definitions) d) (hname : name ∈ c.used) :
    name ∈ (clauses plan).flatMap Clause.used :=
  List.mem_flatMap.2 ⟨c, mem_clauses.2 (Or.inr (Or.inl ⟨d, hd, hc⟩)), hname⟩

/-- The call of a field is used if a class has an attribute. -/
theorem field_used_of_supported (hd : d ∈ plan.definitions) (hsome : d.supported ≠ []) :
    "Field" ∈ (clauses plan).flatMap Clause.used := by
  obtain ⟨source, hsource⟩ := List.exists_mem_of_ne_nil _ hsome
  obtain ⟨attributeName, hpair⟩ :=
    Model.exists_name_of_mem_supported (reservedNames plan.definitions) hsource
  have hfield : Model.attributeOf [] attributeName source ∈
      Model.attributesOf [] (reservedNames plan.definitions) d := List.mem_map_of_mem hpair
  refine mem_used_of_clause hd (mem_clausesOf.2 (Or.inr (Or.inr (Or.inr ⟨_, hfield, rfl⟩)))) ?_
  rw [used_field]
  exact List.mem_append_right _ List.mem_cons_self

/-- If no class has an attribute, only the model base and the settings are used. -/
theorem exists_supported_of_field_used (h : "Field" ∈ (clauses plan).flatMap Clause.used) :
    ∃ d ∈ plan.definitions, d.supported ≠ [] := by
  obtain ⟨c, hc, hname⟩ := List.mem_flatMap.1 h
  rcases mem_clauses.1 hc with ⟨i, -, rfl⟩ | ⟨d, hd, hmem⟩ | rfl
  · rw [used_import] at hname
    cases hname
  · rcases mem_clausesOf.1 hmem with rfl | rfl | rfl | ⟨field, hfield, rfl⟩
    · rw [used_heading] at hname
      exact absurd hname (by decide)
    · cases hname
    · rw [used_settings] at hname
      exact absurd hname (by decide)
    · obtain ⟨attributeName, -, source, hsource, -⟩ := Model.exists_of_mem_attributesOf hfield
      exact ⟨d, hd, List.ne_nil_of_mem hsource⟩
  · cases hname

theorem mem_importedNames :
    name ∈ importedNames ↔
      name ∈ ["BaseModel", "ConfigDict", "Field"] ∨ name ∈ ["List", "Optional"] := by
  simp [importedNames, or_assoc]

/-- **The imports in use** are those that the definitions need. -/
theorem imported_and_used_iff (hsome : plan.definitions ≠ []) (hname : name ∈ importedNames) :
    name ∈ (clauses plan).flatMap Clause.imported ∧ name ∈ (clauses plan).flatMap Clause.used ↔
      Needed plan.definitions name := by
  have himported : ∀ name ∈ ["BaseModel", "ConfigDict", "Field"],
      name ∈ (clauses plan).flatMap Clause.imported := fun name hname =>
    mem_imported_iff.2 ⟨_, mem_neededImports.2 (Or.inr (Or.inr rfl)), hname⟩
  obtain ⟨d, hd⟩ := List.exists_mem_of_ne_nil _ hsome
  constructor
  · rintro ⟨himport, hused⟩
    rcases mem_importedNames.1 hname with hmodel | htyping
    · simp only [List.mem_cons, List.not_mem_nil, or_false] at hmodel
      rcases hmodel with rfl | rfl | rfl
      · exact Or.inl rfl
      · exact Or.inr (Or.inl rfl)
      · exact Or.inr (Or.inr (Or.inl ⟨rfl, exists_supported_of_field_used hused⟩))
    · -- The other imports do not have these names, so the fields need them.
      obtain ⟨i, hi, hmem⟩ := mem_imported_iff.1 himport
      have hothers : ∀ name ∈ ["List", "Optional"],
          name ∉ ["annotations"] ∧ name ∉ ["BaseModel", "ConfigDict", "Field"] := by decide
      obtain ⟨hfuture, hmodel⟩ := hothers name htyping
      rcases mem_neededImports.1 hi with rfl | ⟨-, rfl⟩ | rfl
      · exact absurd hmem hfuture
      · exact Or.inr (Or.inr (Or.inr hmem))
      · exact absurd hmem hmodel
  · rintro (rfl | rfl | ⟨rfl, d, hd, hsupported⟩ | hneeded)
    · refine ⟨himported _ (by decide), mem_used_of_clause hd (mem_clausesOf.2 (Or.inl rfl)) ?_⟩
      rw [used_heading]
      exact List.mem_cons_self
    · refine ⟨himported _ (by decide),
        mem_used_of_clause hd (mem_clausesOf.2 (Or.inr (Or.inr (Or.inl rfl)))) ?_⟩
      rw [used_settings]
      exact List.mem_cons_self
    · exact ⟨himported _ (by decide), field_used_of_supported hd hsupported⟩
    · have himport : name ∈ (clauses plan).flatMap Clause.imported :=
        mem_imported_iff.2 ⟨_, mem_neededImports.2 (Or.inr (Or.inl
          ⟨List.ne_nil_of_mem hneeded, rfl⟩)), hneeded⟩
      obtain ⟨d, -, source, -, htyping⟩ := mem_typingNames.1 hneeded
      have hlisted : name ∈ ["List", "Optional"] := by
        rcases eq_of_typingName? htyping with rfl | rfl <;> decide
      obtain ⟨c, hc, hannotated⟩ := List.mem_flatMap.1 (imported_used hlisted himport)
      refine ⟨himport, List.mem_flatMap.2 ⟨c, hc, ?_⟩⟩
      exact List.mem_append_left _ (List.mem_append_right _ hannotated)

/-! ## Names of imports as names of classes -/

/-- A class is named like an import if the name of its type spells the import. -/
theorem className_eq_imported_iff (hname : name ∈ importedNames) :
    Identifier.className text = name ↔ Identifier.Spells text name := by
  have hall : ∀ name ∈ importedNames, ¬ "Model".toList <+: name.toList ∧
      name ∉ Identifier.keywords ∧ name.toList.getLast? ≠ some '_' ∧
      name.toList.head?.any Identifier.isDigit = false ∧ name ≠ "" := by decide
  obtain ⟨hstandIn, hkeyword, hend, hstart, hsome⟩ := hall name hname
  exact Identifier.className_eq_iff hstandIn hkeyword hend hstart hsome

/-- **Classes named like imports.** The module of a document is a text with tokens. An imported
name that the module uses is also the name of one of its classes exactly if the definitions need
the name and a type of the document, the root among them, is called by a spelling of it. -/
theorem class_rebinds_import_iff (discriminator root : String) (document : Members) :
    ∃ text tokens,
      render (planOfMembers discriminator root document) = .ok text ∧
        Source.Token.ofText text.toList = .ok tokens ∧
        ∀ name ∈ importedNames,
          ((name ∈ (Clause.ofTokens tokens.toList).flatMap Clause.imported ∧
              name ∈ (Clause.ofTokens tokens.toList).flatMap Clause.used) ∧
            name ∈ (Clause.ofTokens tokens.toList).flatMap Clause.defined ↔
            Needed (planOfMembers discriminator root document).definitions name ∧
              ∃ typeName ∈ typeNames discriminator root document,
                Identifier.Spells typeName name) := by
  refine ⟨_, _, render_eq _, ofText_module _, fun name hname => ?_⟩
  have hsome : (planOfMembers discriminator root document).definitions ≠ [] := by
    intro hnone
    have hlast := getLast?_planOfMembers discriminator root document
    rw [hnone] at hlast
    cases hlast
  rw [clauses_module, imported_and_used_iff hsome hname, mem_defined, ← map_name_definitions]
  simp only [List.mem_map, exists_exists_and_eq_and, className_eq_imported_iff hname]

end

/-- A document with an object of a type that is called like the call of a field. -/
def fieldDocument : Members :=
  [("a", .object [("@type", .string "field"), ("x", .string "y")]), ("b", .string "z")]

/-- **A class named like an import, with uses of the import behind it.** In the module of the
document, `Field` is imported and then the name of a class, and the class of the root calls it. -/
theorem class_of_field_rebinds_field :
    ∃ text tokens before after,
      render (planOfMembers "@type" "Doc" fieldDocument) = .ok text ∧
        Source.Token.ofText text.toList = .ok tokens ∧
        Clause.ofTokens tokens.toList = before ++ after ∧
        "Field" ∈ before.flatMap Clause.imported ∧ "Field" ∈ before.flatMap Clause.defined ∧
        "Field" ∈ after.flatMap Clause.calls := by
  have hsplit := (List.take_append_drop 8
    (clauses (planOfMembers "@type" "Doc" fieldDocument))).symm
  refine ⟨_, _, _, _, render_eq _, ofText_module _, (clauses_module _).trans hsplit, ?_, ?_, ?_⟩
  · decide +kernel
  · decide +kernel
  · decide +kernel

end ClassModule

end SampleTypes
