import SampleTypes.Proofs.Identifier.Numbering
import SampleTypes.Proofs.Models.Nesting
import SampleTypes.Proofs.Rendering.Agreement

/-!
# Attributes and reserved names

Attributes keep clear of the class names of a plan, and in source of the imports as well: one that
would be called like them gets a low line behind it. The name with the low line is not reserved in
turn, because a class name ends with a low line only behind a keyword, and no attribute is called
like a keyword. So the name that an attribute wants is never reserved.

An attribute whose name an earlier one has gets a number instead, and the search for the number looks
at the earlier attributes only. A class may well be called like a name with a number.

## Main results

* `wanted_notMem_reserved`: the wanted name is not reserved.
* `attribute_is_reserved_iff`: which attributes have a reserved name.
* `attribute_of_namesakes_is_reserved`: a document for which one does.
-/

namespace SampleTypes

namespace Identifier

section

variable {text base name identifier : String} {reserved classes earlier : List String}

/-- A class name ends with a low line only behind a keyword. -/
theorem mem_keywords_of_className_eq (h : className text = base ++ "_") : base ∈ keywords := by
  rcases className_cases text with hletters | ⟨keyword, hkeyword, heq⟩
  · rw [h] at hletters
    exact absurd (hletters '_' (by simp)) (by decide)
  · rw [heq, ← String.toList_inj, String.toList_append, String.toList_append] at h
    rwa [← String.toList_inj.1 (List.append_cancel_right h)]

/-- What is reserved: these names, which are those of classes, and perhaps imports. -/
structure Reserves (reserved classes : List String) : Prop where
  className : ∀ name ∈ classes, ∃ text, className text = name
  mem : ∀ name ∈ classes, name ∈ reserved
  only : ∀ name ∈ reserved, name ∈ classes ∨ name ∈ ClassModule.importedNames

/-- **The wanted name is not reserved.** -/
theorem wanted_notMem_reserved (h : Reserves reserved classes) (identifier : String) :
    wanted reserved identifier ∉ reserved := by
  unfold wanted
  dsimp only
  split
  · intro hline
    rcases h.only _ hline with hclass | himport
    · obtain ⟨text, htext⟩ := h.className _ hclass
      exact not_isKeyword_attributeName identifier (Or.inl (mem_keywords_of_className_eq htext))
    · have hall : ∀ name ∈ ClassModule.importedNames, name.toList.getLast? ≠ some '_' := by decide
      refine hall _ himport ?_
      rw [getLast?_append _ (by decide)]
      decide
  · assumption

/-- No import ends with a number. -/
theorem number_notMem_importedNames (base : String) (n : Nat) :
    base ++ toString n ∉ ClassModule.importedNames := by
  intro himport
  have hdigits : ∀ name ∈ ClassModule.importedNames,
      name.toList.getLast?.any isDigit = false := by decide
  have hdigit := hdigits _ himport
  rw [getLast?_append base (number_ne_nil n),
    List.getLast?_eq_some_getLast (number_ne_nil n), Option.any_some,
    isDigit_of_mem_number (List.getLast_mem _)] at hdigit
  cases hdigit

/-- **An attribute has a reserved name** exactly if it had to be numbered and is then called like a
class. -/
theorem GivenBehind.mem_reserved_iff (h : Reserves reserved classes)
    (hgiven : GivenBehind earlier (wanted reserved identifier) name) :
    name ∈ reserved ↔ wanted reserved identifier ∈ earlier ∧ name ∈ classes := by
  constructor
  · intro hname
    by_cases hearlier : wanted reserved identifier ∈ earlier
    · obtain ⟨n, -, -, rfl, -⟩ := hgiven.numbered hearlier
      exact ⟨hearlier, (h.only _ hname).resolve_right (number_notMem_importedNames _ n)⟩
    · rw [hgiven.new hearlier] at hname
      exact absurd hname (wanted_notMem_reserved h identifier)
  · exact fun hname => h.mem name hname.2

end

end Identifier

open Json (Members)

section

variable {plan : Plan} {d : Definition}

theorem reserves_reservedNames (plan : Plan) :
    Identifier.Reserves (ClassModule.reservedNames plan.definitions) (Models.classNames plan) where
  className name hname := by
    obtain ⟨d, -, hd⟩ := List.mem_map.1 hname
    exact ⟨d.name, hd⟩
  mem _ hname := List.mem_append_left _ hname
  only _ hname := List.mem_append.1 hname

theorem reserves_keys_winners (plan : Plan) :
    Identifier.Reserves (Assoc.keys (Models.winners plan)) (Models.classNames plan) where
  className := (reserves_reservedNames plan).className
  mem name hname := Models.mem_keys_winners.2 (by simpa [Models.classNames] using hname)
  only name hname := Or.inl (by simpa [Models.classNames] using Models.mem_keys_winners.1 hname)

/-- The attributes of a live model are those chosen for its definition, but for one that is called
like the settings. -/
theorem attributeNames_of_ofPlan {models : Models} {name : String} {model : Model}
    (hmodels : Models.ofPlan plan = .ok models) (hmodel : Assoc.get? name models = some model) :
    ∃ d, Models.lastNamed? plan name = some d ∧
      model.fields.map ModelField.attributeName =
        (Model.attributeNames (Assoc.keys (Models.winners plan)) d).filter
          (· ≠ Model.settingsName) := by
  obtain ⟨-, -, d, -, -, hlast, -, -⟩ := Models.exists_stage hmodels hmodel
  refine ⟨d, hlast, ?_⟩
  have hstatements := congrArg (List.map ClassModule.FieldStatement.attributeName)
    (ClassModule.statements_of_built hmodels hmodel hlast)
  rw [List.map_map] at hstatements
  rw [← ClassModule.map_attributeName_fields, List.filter_map]
  exact hstatements

end

/-- **Which attributes have a reserved name.** The attributes of the classes in source and of live
models are chosen with the class names of the plan reserved, in source with the imports as well. In
both an attribute has one of the reserved names exactly if an earlier attribute of its type has the
name that it wants, and the name with the first number that makes a new one is the name of a class
of the plan. -/
theorem attribute_is_reserved_iff (plan : Plan) :
    (∃ m, ClassModule.Module.ofPlan plan = .ok m ∧
        m.classes.map (fun block =>
            (block.name, block.fields.map ClassModule.FieldStatement.attributeName)) =
          plan.definitions.map fun d => (Identifier.className d.name,
            Model.attributeNames (ClassModule.reservedNames plan.definitions) d)) ∧
      (∀ models, Models.ofPlan plan = .ok models →
        ∀ name model, Assoc.get? name models = some model →
          ∃ d, Models.lastNamed? plan name = some d ∧
            model.fields.map ModelField.attributeName =
              (Model.attributeNames (Assoc.keys (Models.winners plan)) d).filter
                (· ≠ Model.settingsName)) ∧
      ∀ reserved ∈ [ClassModule.reservedNames plan.definitions,
          Assoc.keys (Models.winners plan)],
        ∀ d ∈ plan.definitions, ∀ before field after,
          d.supported = before ++ field :: after →
            ∃ earlier name later, Model.attributeNames reserved d = earlier ++ name :: later ∧
              earlier.length = before.length ∧
              Identifier.GivenBehind earlier (Identifier.wanted reserved field.identifier) name ∧
              (name ∈ reserved ↔ Identifier.wanted reserved field.identifier ∈ earlier ∧
                ∃ other ∈ plan.definitions, Identifier.className other.name = name) := by
  refine ⟨⟨ClassModule.moduleOf plan, ClassModule.ofPlan_eq plan, ?_⟩,
    fun models hmodels name model => attributeNames_of_ofPlan hmodels, ?_⟩
  · rw [ClassModule.moduleOf, List.map_map]
    exact List.map_congr_left fun d _ => Prod.ext rfl (ClassModule.map_attributeName_fields _ d)
  · intro reserved hreserved d _ before field after hsplit
    have hreserves : Identifier.Reserves reserved (Models.classNames plan) := by
      rcases List.mem_pair.1 hreserved with rfl | rfl
      · exact reserves_reservedNames plan
      · exact reserves_keys_winners plan
    obtain ⟨name, later, hnames, hgiven⟩ := Identifier.attributes_split reserved
      (before.map Field.identifier) field.identifier (after.map Field.identifier)
    refine ⟨_, name, later, ?_, ?_, hgiven, ?_⟩
    · rw [Model.attributeNames, hsplit, List.map_append, List.map_cons, hnames]
    · rw [Identifier.length_attributes, List.length_map]
    · rw [hgiven.mem_reserved_iff hreserves, Models.classNames, List.mem_map]

/-- Two fields that want one attribute, and a type called like this attribute with a number. -/
def namesakePlan : Plan :=
  { root := "Doc"
    definitions :=
      [{ name := "name2" },
       { name := "Doc"
         fields :=
           [{ wireName := "name", identifier := "Name", kind := .string },
            { wireName := "@name", identifier := "Name", kind := .number }] }] }

theorem attribute_is_reserved_iff_namesakePlan :
    ∃ earlier name later,
      Model.attributeNames (Assoc.keys (Models.winners namesakePlan))
          namesakePlan.definitions[1] = earlier ++ name :: later ∧
        earlier.length = 1 ∧ name ∈ Assoc.keys (Models.winners namesakePlan) := by
  obtain ⟨-, -, hiff⟩ := attribute_is_reserved_iff namesakePlan
  obtain ⟨earlier, name, later, hnames, hlength, -, hreserved⟩ :=
    hiff (Assoc.keys (Models.winners namesakePlan)) (by simp) namesakePlan.definitions[1]
      (by decide) (namesakePlan.definitions[1].fields.take 1) namesakePlan.definitions[1].fields[1]
      [] (by decide)
  have hvalue : Model.attributeNames (Assoc.keys (Models.winners namesakePlan))
      namesakePlan.definitions[1] = ["Name"] ++ "Name2" :: [] := by decide
  obtain ⟨rfl, hrest⟩ := List.append_inj (hnames.symm.trans hvalue) hlength
  obtain ⟨rfl, rfl⟩ := List.cons.inj hrest
  exact ⟨_, _, _, hnames, hlength, hreserved.2 ⟨by decide, by decide⟩⟩

/-- The document with such fields and such a type. -/
def numberedNamesakes : Members :=
  [("name", .string "x"), ("@name", .string "y"),
   ("other", .object [("@type", .string "Name2"), ("z", .string "w")])]

/-- **An attribute with a reserved name.** The second attribute of the root is called like the class of
the object beside it, in source and in the live model. -/
theorem attribute_of_namesakes_is_reserved :
    ∃ d ∈ (planOfMembers "@type" "Doc" numberedNamesakes).definitions,
      ∀ reserved ∈
          [ClassModule.reservedNames (planOfMembers "@type" "Doc" numberedNamesakes).definitions,
            Assoc.keys (Models.winners (planOfMembers "@type" "Doc" numberedNamesakes))],
        Model.attributeNames reserved d = ["Name", "Name2", "Other"] ∧ "Name2" ∈ reserved := by
  decide +kernel

end SampleTypes
