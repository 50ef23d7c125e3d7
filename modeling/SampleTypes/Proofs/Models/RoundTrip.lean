import SampleTypes.Proofs.Models.Removal

/-!
# Faithful documents come back

A faithful document whose types have class names of their own is accepted by the model of its root
and dumped as it was, whole numbers as doubles. This is what happens to documents with members taken
out when nothing is taken out.

## Main results

* `checkValue_of_faithful`: a faithful value fits the type of its field and is dumped as it was.
* `faithful_document_comes_back`: the round trip.
-/

namespace SampleTypes

open Json (Value Members)
open Decimal (Binary64)
open Models

section

variable {discriminator root path : String} {value : Value} {members document : Members}

/-! ## Checking -/

section Checking

open Validation

variable {names : List String} {models : Models}

/-- An object whose members fit is accepted by the model of its definition and dumped as it was. -/
theorem checkMembers_ok (name : String) (hdistinct : (Assoc.keys members).Nodup)
    (hkinds : ∀ member ∈ members, kindOf member.2 ≠ .unsupported)
    (h : ∀ member ∈ members, ∃ datum,
      checkValue models member.2 (Model.typeIn names (memberField path member)) = .ok datum ∧
      datum.dump .wire = floated member.2) :
    ∃ datum,
      (checkAttributes (checkers models members)
          (fullModel names { name := name, fields := members.map (memberField path) }).fields).map
        Datum.instance = .ok datum ∧
      datum.dump .wire = .object (floatedMembers members) := by
  have hnothing := checkMembers_without (fun _ => false) name path hdistinct hkinds
    (fun _ _ hremoved => absurd hremoved Bool.false_ne_true) fun member hmember _ => by
      rw [without_nothing, defaulted_nothing]
      exact h member hmember
  rwa [withoutMembers_nothing, defaultedMembers_nothing] at hnothing

/-- **A faithful value fits the type of its field and is dumped as it was**, if the types of its
objects have their models. -/
theorem checkValue_of_faithful (h : Faithful discriminator value) (path key : String)
    (hmodels : ∀ d ∈ typesIn s!"{path}.{key}" value, Identifier.className d.name ∈ names ∧
      Assoc.get? (Identifier.className d.name) models = some (fullModel names d)) :
    ∃ datum,
      checkValue models value (Model.typeIn names (memberField path (key, value))) = .ok datum ∧
        datum.dump .wire = floated value := by
  have hnothing := checkValue_without h path key (fun _ => false)
    (fun inner _ => unmistaken_nothing names inner) hmodels
  rwa [without_nothing, defaulted_nothing] at hnothing

end Checking

/-! ## The round trip -/

/-- **A faithful document comes back.** If the root and the types of the objects have class names of
their own and no attribute has the refused name, the models of the document can be built, the model
of its root accepts it, and what is accepted is dumped as the document itself, every whole number as
a double that is equal to it. Turning whole numbers into doubles keeps the keys of an object and
their order. -/
theorem faithful_document_comes_back (discriminator root : String) (document : Members)
    (hdocument : FaithfulDocument discriminator document)
    (hdistinct : ((namesOf document ++ [root]).map Identifier.className).Nodup)
    (hnames : WithoutRefusedName (planOfMembers discriminator root document)) :
    (∃ models model datum, ofPlan (planOfMembers discriminator root document) = .ok models ∧
        named (rootName (planOfMembers discriminator root document)) models = .ok model ∧
        Validation.checkDocument models model (.object document) = .ok datum ∧
        datum.dump .wire = .object (floatedMembers document)) ∧
      (∀ n : Int, n.natAbs < Nat.pow 2 53 →
        floated (.int n) = .float (Binary64.ofInt n) ∧ (Binary64.ofInt n).toInt? = some n) ∧
      ∀ members, floated (.object members) = .object (floatedMembers members) ∧
        Assoc.keys (floatedMembers members) = Assoc.keys members := by
  refine ⟨?_, fun n small => ⟨rfl, Binary64.toInt?_ofInt small⟩,
    fun members => ⟨rfl, keys_floatedMembers members⟩⟩
  rw [← classNames_of_faithful root hdocument] at hdistinct
  obtain ⟨models, hmodels, hget⟩ := get?_models_of_distinct hdistinct hnames
  have hdefinitions := definitions_of_faithful root hdocument
  have hroot := hget { name := root, fields := document.map (memberField "$") }
    (by rw [hdefinitions]; simp)
  have hmembers : ∀ member ∈ document, ∃ datum,
      Validation.checkValue models member.2
        (Model.typeIn (Assoc.keys (winners (planOfMembers discriminator root document)))
          (memberField "$" member)) = .ok datum ∧
        datum.dump .wire = floated member.2 := by
    intro member hmember
    refine checkValue_of_faithful (hdocument.faithful member hmember) "$" member.1 fun d hd => ?_
    have hmem : d ∈ (planOfMembers discriminator root document).definitions := by
      rw [hdefinitions, typesOf_eq]
      exact List.mem_append_left _ (List.mem_flatMap.2 ⟨member, hmember, hd⟩)
    exact ⟨mem_keys_winners.2 ⟨d, hmem, rfl⟩, hget d hmem⟩
  obtain ⟨datum, hcheck, hdump⟩ := checkMembers_ok root hdocument.distinct
    (fun member hmember => kind_ne_unsupported_of_faithful (hdocument.faithful member hmember))
    hmembers
  refine ⟨models, _, datum, hmodels, ?_, hcheck, hdump⟩
  rw [named, rootName, root_planOfMembers, hroot]

end

/-- A person with an address and a place inside it. -/
def person : Members :=
  [("name", .string "Ada"), ("age", .int 36), ("active", .bool true),
   ("scores", .array [.int 1, .int (-2)]), ("tags", .array [.string "a", .string "b"]),
   ("address", .object
     [("@type", .string "PostalAddress"), ("street", .string "Main"),
      ("geo", .object [("@type", .string "Geo"), ("lat", .int 51)])])]

theorem faithful_person : FaithfulDocument "@type" person := by
  have hgeo : Faithful "@type" (.object [("@type", .string "Geo"), ("lat", .int 51)]) := by
    refine .object "Geo" _ (by decide) ?_ ?_
    · intro key inner hmem
      simp at hmem
    · intro member hmember
      obtain rfl := List.mem_singleton.1 hmember
      exact .number _ (.int 51 (by decide))
  constructor
  · decide
  · intro key inner hmem
    simp only [person, List.mem_cons, Prod.mk.injEq, reduceCtorEq, and_false, false_or,
      List.not_mem_nil, or_false] at hmem
    rw [hmem.1]
    decide
  · intro member hmember
    simp only [person, List.mem_cons, List.not_mem_nil, or_false] at hmember
    rcases hmember with rfl | rfl | rfl | rfl | rfl | rfl
    · exact .string "Ada"
    · exact .number _ (.int 36 (by decide))
    · exact .bool true
    · refine .numbers _ _ fun item hitem => ?_
      simp only [List.mem_cons, List.not_mem_nil, or_false] at hitem
      rcases hitem with rfl | rfl
      · exact .int 1 (by decide)
      · exact .int (-2) (by decide)
    · exact .strings "a" ["b"]
    · refine .object "PostalAddress" _ (by decide) ?_ ?_
      · intro key inner hmem
        simp only [List.mem_cons, Prod.mk.injEq, reduceCtorEq, and_false, false_or,
          List.not_mem_nil, or_false] at hmem
        rw [hmem.1]
        decide
      · intro member hmember
        simp only [List.mem_cons, List.not_mem_nil, or_false] at hmember
        rcases hmember with rfl | rfl
        · exact .string "Main"
        · exact hgeo

theorem faithful_document_comes_back_person :
    ∃ models model datum, ofPlan (planOfMembers "@type" "Person" person) = .ok models ∧
      named (rootName (planOfMembers "@type" "Person" person)) models = .ok model ∧
      Validation.checkDocument models model (.object person) = .ok datum ∧
      datum.dump .wire = .object (floatedMembers person) := by
  have hkeys : Assoc.keys (winners (planOfMembers "@type" "Person" person)) =
      ["PostalAddress", "Geo", "Person"] := by decide +kernel
  have hnames : ∀ d ∈ (planOfMembers "@type" "Person" person).definitions,
      Model.refusedName ∉ Model.attributeNames ["PostalAddress", "Geo", "Person"] d := by
    decide +kernel
  have hwithout : WithoutRefusedName (planOfMembers "@type" "Person" person) := by
    intro name d hlast
    rw [hkeys]
    exact hnames d (mem_of_lastNamed? hlast).1
  exact (faithful_document_comes_back "@type" "Person" person faithful_person (by decide)
    hwithout).1

end SampleTypes
