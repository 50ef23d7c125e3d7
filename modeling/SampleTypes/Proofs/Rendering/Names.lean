import SampleTypes.Proofs.Models.Building
import SampleTypes.Proofs.Rendering.Lines
import SampleTypes.Proofs.Source.Names

/-!
# Generated modules bind the names that they use

Which names a module uses is known from its clauses: the model base, the call that configures a class,
and for each attribute the call of a field and the names of its type. The first three are imported
always, the names from the typing module if a field needs them, and the class of a reference is a class
of the module, because a document refers to types of its own only.

## Main results

* `clauses_module`: the clauses of a module.
* `modules_bind_their_names`: nothing is used that is not bound, and nothing from the typing module is
  bound that is not used.
-/

namespace SampleTypes

open Json (Members)
open Source (Clause Lexeme Line)

/-- The names in a type. -/
def FieldType.names : FieldType → List String
  | .text => ["str"]
  | .number => ["float"]
  | .flag => ["bool"]
  | .texts => ["List", "str"]
  | .numbers => ["List", "float"]
  | .model className => ["Optional", className]
  | .forward className => ["Optional", className]
  | .ambient className _ => ["Optional", className]

namespace ClassModule

/-- The names that a module need not bind. -/
def builtIn : List String := ["str", "float", "bool", "list"]

/-- The clauses of a class. -/
def clausesOf (reserved : List String) (d : Definition) : List Clause :=
  [Lexeme.clauseOf (headingOf d), [(.string, "\"")], Lexeme.clauseOf settings] ++
    (Model.attributesOf [] reserved d).map fun field => Lexeme.clauseOf field.lexemes

/-- The clauses of a module. Behind the last line there is nothing. -/
def clauses (plan : Plan) : List Clause :=
  (neededImports plan.definitions).map (fun i => Lexeme.clauseOf i.lexemes) ++
    plan.definitions.flatMap (clausesOf (reservedNames plan.definitions)) ++ [[]]

section

variable {plan : Plan} {reserved : List String} {d : Definition} {field : ModelField}
  {name : String} {c : Clause}

/-! ## Single clauses -/

theorem bound_heading (d : Definition) :
    (Lexeme.clauseOf (headingOf d)).imported = [] ∧
      (Lexeme.clauseOf (headingOf d)).defined = [Identifier.className d.name] :=
  ⟨rfl, rfl⟩

theorem used_heading (d : Definition) :
    (Lexeme.clauseOf (headingOf d)).used = [baseName] := rfl

theorem used_settings : (Lexeme.clauseOf settings).used = ["ConfigDict"] := rfl

theorem imported_field (field : ModelField) :
    (Lexeme.clauseOf field.lexemes).imported = [] := rfl

theorem annotated_field (field : ModelField) :
    (Lexeme.clauseOf field.lexemes).annotated = field.type.names := by
  unfold ModelField.lexemes
  cases field.type <;> rfl

theorem used_field (field : ModelField) :
    (Lexeme.clauseOf field.lexemes).used = field.type.names ++ ["Field"] := by
  unfold ModelField.lexemes
  cases field.type <;> cases field.default <;> rfl

/-! ### Imports -/

theorem names_listed (names : List String) : (Lexeme.clauseOf (listed names)).names = names := by
  induction names with
  | nil => rfl
  | cons name others ih =>
    cases others with
    | nil => rfl
    | cons next later => exact congrArg (name :: ·) ih

theorem notMem_listed (names : List String) : (.mark, "(") ∉ Lexeme.clauseOf (listed names) := by
  induction names with
  | nil => exact List.not_mem_nil
  | cons name others ih =>
    cases others with
    | nil => exact List.not_mem_cons_of_ne_of_not_mem (by simp) List.not_mem_nil
    | cons next later =>
      exact List.not_mem_cons_of_ne_of_not_mem (by simp)
        (List.not_mem_cons_of_ne_of_not_mem (by decide) ih)

theorem imported_import (i : Import) : (Lexeme.clauseOf i.lexemes).imported = i.names :=
  names_listed i.names

theorem used_import (i : Import) : (Lexeme.clauseOf i.lexemes).used = [] := by
  have hplain : (.mark, "(") ∉ Lexeme.clauseOf i.lexemes := by
    refine List.not_mem_cons_of_ne_of_not_mem (by simp) ?_
    refine List.not_mem_cons_of_ne_of_not_mem (by simp) ?_
    exact List.not_mem_cons_of_ne_of_not_mem (by simp) (notMem_listed i.names)
  exact Clause.applied_eq_nil hplain

/-! ## The clauses of a module -/

theorem filterMap_importLines (imports : List Import) :
    (importLines imports).filterMap Line.clause? =
      imports.map fun i => Lexeme.clauseOf i.lexemes := by
  induction imports with
  | nil => rfl
  | cons i others ih =>
    cases others with
    | nil => rfl
    | cons next later => exact congrArg (Lexeme.clauseOf i.lexemes :: ·) ih

theorem filterMap_classLines (reserved : List String) (d : Definition) :
    (classLines reserved d).filterMap Line.clause? = clausesOf reserved d := by
  have hfields : ((Model.attributesOf [] reserved d).map
      fun field => Line.code true field.lexemes).filterMap Line.clause? =
        (Model.attributesOf [] reserved d).map fun field => Lexeme.clauseOf field.lexemes := by
    rw [List.filterMap_map]
    exact congrFun List.filterMap_eq_map _
  rw [clausesOf, ← hfields]
  unfold classLines
  cases Model.attributesOf [] reserved d <;> rfl

/-- **The clauses of a module.** -/
theorem clauses_module (plan : Plan) :
    Clause.ofTokens (Line.tokensOf false (moduleLines plan)) = clauses plan := by
  have hclasses : (plan.definitions.flatMap
      (classLines (reservedNames plan.definitions))).filterMap Line.clause? =
        plan.definitions.flatMap (clausesOf (reservedNames plan.definitions)) := by
    rw [List.filterMap_flatMap]
    exact List.flatMap_congr fun d _ => filterMap_classLines _ d
  rw [Clause.ofTokens_tokensOf, moduleLines, List.filterMap_append, hclasses, clauses,
    ← filterMap_importLines]
  rfl

theorem mem_clauses :
    c ∈ clauses plan ↔
      (∃ i ∈ neededImports plan.definitions, Lexeme.clauseOf i.lexemes = c) ∨
        (∃ d ∈ plan.definitions, c ∈ clausesOf (reservedNames plan.definitions) d) ∨
          c = [] := by
  simp only [clauses, List.mem_append, List.mem_map, List.mem_flatMap, List.mem_singleton, or_assoc]

theorem mem_clausesOf :
    c ∈ clausesOf reserved d ↔
      c = Lexeme.clauseOf (headingOf d) ∨ c = [(.string, "\"")] ∨ c = Lexeme.clauseOf settings ∨
        ∃ field ∈ Model.attributesOf [] reserved d, Lexeme.clauseOf field.lexemes = c := by
  simp only [clausesOf, List.mem_append, List.mem_cons, List.not_mem_nil, or_false, List.mem_map,
    or_assoc]

/-- A field that is supported has a clause. -/
theorem exists_clause {source : Field} (hd : d ∈ plan.definitions) (hsource : source ∈ d.supported) :
    ∃ c ∈ clauses plan, c.annotated = (Model.typeIn [] source).names := by
  obtain ⟨name, hpair⟩ :=
    Model.exists_name_of_mem_supported (reservedNames plan.definitions) hsource
  have hfield : Model.attributeOf [] name source ∈
      Model.attributesOf [] (reservedNames plan.definitions) d := List.mem_map_of_mem hpair
  have hclause := mem_clausesOf.2 (Or.inr (Or.inr (Or.inr ⟨_, hfield, rfl⟩)))
  exact ⟨_, mem_clauses.2 (Or.inr (Or.inl ⟨d, hd, hclause⟩)), annotated_field _⟩

/-! ## Bound names -/

theorem mem_bound_of_import {i : Import} (hi : i ∈ neededImports plan.definitions)
    (hname : name ∈ i.names) : name ∈ (clauses plan).flatMap Clause.bound := by
  refine List.mem_flatMap.2 ⟨_, mem_clauses.2 (Or.inl ⟨i, hi, rfl⟩), ?_⟩
  rw [Clause.bound, imported_import]
  exact List.mem_append_left _ hname

theorem mem_bound_of_class (hd : d ∈ plan.definitions) :
    Identifier.className d.name ∈ (clauses plan).flatMap Clause.bound := by
  have hclause : Lexeme.clauseOf (headingOf d) ∈ clausesOf (reservedNames plan.definitions) d :=
    mem_clausesOf.2 (Or.inl rfl)
  refine List.mem_flatMap.2 ⟨_, mem_clauses.2 (Or.inr (Or.inl ⟨d, hd, hclause⟩)), ?_⟩
  rw [Clause.bound, (bound_heading d).2]
  exact List.mem_append_right _ List.mem_cons_self

/-- Only import statements import. -/
theorem exists_import (h : name ∈ (clauses plan).flatMap Clause.imported) :
    ∃ i ∈ neededImports plan.definitions, name ∈ i.names := by
  obtain ⟨c, hc, hname⟩ := List.mem_flatMap.1 h
  rcases mem_clauses.1 hc with ⟨i, hi, rfl⟩ | ⟨d, -, hmem⟩ | rfl
  · rw [imported_import] at hname
    exact ⟨i, hi, hname⟩
  · rcases mem_clausesOf.1 hmem with rfl | rfl | rfl | ⟨field, -, rfl⟩
    · rw [(bound_heading d).1] at hname
      cases hname
    · cases hname
    · cases hname
    · rw [imported_field] at hname
      cases hname
  · cases hname

/-! ## Used names -/

/-- A type uses what is built in, what its field needs and the class that it names. -/
theorem mem_names_type {source : Field} (h : name ∈ (Model.typeIn [] source).names) :
    name ∈ builtIn ∨ typingName? source = some name ∨
      source.kind = .objectReference ∧ Identifier.className source.reference = name := by
  unfold Model.typeIn at h
  cases hkind : source.kind with
  | objectReference =>
    simp only [hkind, List.not_mem_nil, if_false, FieldType.names, List.mem_cons, or_false] at h
    rcases h with rfl | rfl
    · exact Or.inr (Or.inl (by rw [typingName?, hkind]))
    · exact Or.inr (Or.inr ⟨rfl, rfl⟩)
  | stringArray =>
    simp only [hkind, FieldType.names, List.mem_cons, List.not_mem_nil, or_false] at h
    rcases h with rfl | rfl
    · exact Or.inr (Or.inl (by rw [typingName?, hkind]))
    · exact Or.inl (by decide)
  | numberArray =>
    simp only [hkind, FieldType.names, List.mem_cons, List.not_mem_nil, or_false] at h
    rcases h with rfl | rfl
    · exact Or.inr (Or.inl (by rw [typingName?, hkind]))
    · exact Or.inl (by decide)
  | _ =>
    simp only [hkind, FieldType.names, List.mem_singleton] at h
    subst h
    exact Or.inl (by decide)

/-- A type uses what its field needs. -/
theorem mem_names_of_typingName? {source : Field} (h : typingName? source = some name) :
    name ∈ (Model.typeIn [] source).names := by
  unfold Model.typeIn
  cases hkind : source.kind <;> simp_all [typingName?, FieldType.names]

/-- **What a module uses**: the model names and the names in its types. -/
theorem mem_used (h : name ∈ (clauses plan).flatMap Clause.used) :
    name ∈ ["BaseModel", "ConfigDict", "Field"] ∨
      ∃ d ∈ plan.definitions, ∃ source ∈ d.supported,
        name ∈ (Model.typeIn [] source).names := by
  obtain ⟨c, hc, hname⟩ := List.mem_flatMap.1 h
  rcases mem_clauses.1 hc with ⟨i, hi, rfl⟩ | ⟨d, hd, hmem⟩ | rfl
  · rw [used_import] at hname
    cases hname
  · -- The start of a class, its documentation, its settings and its attributes, in this order.
    rcases mem_clausesOf.1 hmem with rfl | rfl | rfl | ⟨field, hfield, rfl⟩
    · rw [used_heading, List.mem_singleton] at hname
      subst hname
      exact Or.inl (by decide)
    · cases hname
    · rw [used_settings, List.mem_singleton] at hname
      subst hname
      exact Or.inl (by decide)
    · obtain ⟨attributeName, -, source, hsource, rfl⟩ := Model.exists_of_mem_attributesOf hfield
      rw [used_field, List.mem_append, List.mem_singleton] at hname
      rcases hname with htype | rfl
      · exact Or.inr ⟨d, hd, source, hsource, htype⟩
      · exact Or.inl (by decide)
  · cases hname

/-! ## All names -/

/-- A module binds all that it uses if its plan refers to types of its own only. -/
theorem used_bound (hclosed : ∀ d ∈ plan.definitions, ∀ target ∈ Models.references d,
      ∃ other ∈ plan.definitions, Identifier.className other.name = target)
    (h : name ∈ (clauses plan).flatMap Clause.used) :
    name ∈ builtIn ∨ name ∈ (clauses plan).flatMap Clause.bound := by
  rcases mem_used h with hmodel | ⟨d, hd, source, hsource, htype⟩
  · exact Or.inr (mem_bound_of_import (mem_neededImports.2 (Or.inr (Or.inr rfl))) hmodel)
  · have hfield := (Model.mem_supported.1 hsource).1
    rcases mem_names_type htype with hbuiltIn | htyping | ⟨hkind, rfl⟩
    · exact Or.inl hbuiltIn
    · have hneeded : name ∈ typingNames plan.definitions :=
        mem_typingNames.2 ⟨d, hd, source, hfield, htyping⟩
      refine Or.inr (mem_bound_of_import (mem_neededImports.2 (Or.inr (Or.inl ⟨?_, rfl⟩))) hneeded)
      exact List.ne_nil_of_mem hneeded
    · obtain ⟨other, hother, hname⟩ :=
        hclosed d hd _ (Models.mem_references.2 ⟨source, hfield, hkind, rfl⟩)
      rw [← hname]
      exact Or.inr (mem_bound_of_class hother)

/-- Nothing is imported from the typing module that no annotation uses. -/
theorem imported_used (hname : name ∈ ["List", "Optional"])
    (h : name ∈ (clauses plan).flatMap Clause.imported) :
    name ∈ (clauses plan).flatMap Clause.annotated := by
  -- Neither of the other imports has these names, so they come from the fields.
  have hneeded : name ∈ typingNames plan.definitions := by
    obtain ⟨i, hi, hmem⟩ := exists_import h
    have hothers : ∀ name ∈ ["List", "Optional"],
        name ∉ ["annotations"] ∧ name ∉ ["BaseModel", "ConfigDict", "Field"] := by decide
    obtain ⟨hfuture, hmodel⟩ := hothers name hname
    rcases mem_neededImports.1 hi with rfl | ⟨-, rfl⟩ | rfl
    · exact absurd hmem hfuture
    · exact hmem
    · exact absurd hmem hmodel
  obtain ⟨d, hd, source, hsource, htyping⟩ := mem_typingNames.1 hneeded
  have hsupported : source ∈ d.supported := by
    refine Model.mem_supported.2 ⟨hsource, fun hkind => ?_⟩
    rw [typingName?, hkind] at htyping
    cases htyping
  obtain ⟨c, hc, hannotated⟩ := exists_clause hd hsupported
  refine List.mem_flatMap.2 ⟨c, hc, ?_⟩
  rw [hannotated]
  exact mem_names_of_typingName? htyping

/-- **Generated modules bind the names that they use.** The module of a document is a text with tokens.
Each name in a base, in an annotation or in front of the parenthesis of a call is built in or bound by
an import or a class of the text, and `List` and `Optional` are imported only if an annotation uses
them. -/
theorem modules_bind_their_names (discriminator root : String) (document : Members) :
    ∃ text tokens,
      render (planOfMembers discriminator root document) = .ok text ∧
        Source.Token.ofText text.toList = .ok tokens ∧
        (∀ name ∈ (Clause.ofTokens tokens.toList).flatMap Clause.used,
          name ∈ builtIn ∨ name ∈ (Clause.ofTokens tokens.toList).flatMap Clause.bound) ∧
        ∀ name ∈ ["List", "Optional"],
          name ∈ (Clause.ofTokens tokens.toList).flatMap Clause.imported →
            name ∈ (Clause.ofTokens tokens.toList).flatMap Clause.annotated := by
  have hclauses := clauses_module (planOfMembers discriminator root document)
  refine ⟨_, _, render_eq _, ofText_module _, ?_, ?_⟩
  · intro name hname
    rw [hclauses] at hname ⊢
    exact used_bound (fun d hd target => Models.exists_definition_of_mem_references hd) hname
  · intro name hname himported
    rw [hclauses] at himported ⊢
    exact imported_used hname himported

end

end ClassModule

end SampleTypes
