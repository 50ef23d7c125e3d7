import SampleTypes.Proofs.Walk.Frame
import SampleTypes.Rendering
import SampleTypes.Synthesis

/-!
# The shape of a sample

A plan is made from the shape of a sample: from its keys, from the kinds of its values and from the
strings under the discriminator. Nothing else that the values hold reaches a field or a warning, so
two samples of one shape have the same plan.

This is a statement about two walks. They go through the two documents in step: each member takes
both of them from one common state to another, because everything that the walk reads off a value
is read off its kind, and the name that a discriminator declares is part of the shape.

## Main results

* `resolveProperty_of_sameShape`, `resolveMembers_of_sameMembers`: one step and the whole walk.
* `sample_values_do_not_leak`: two samples of one shape have one plan and one rendering.
-/

namespace SampleTypes

open Json (Value Members)

namespace Json

/-- The text of a string. -/
def Value.text? : Value → Option String
  | .string text => some text
  | _ => none

mutual

/-- The values are of one kind. Objects have members of one shape, and arrays are both empty or
start with elements of one kind. -/
def Value.SameShape (discriminator : String) : Value → Value → Prop
  | .object members, .object others => SameMembers discriminator members others
  | .array items, .array others => items.head?.map Value.kind = others.head?.map Value.kind
  | value, other => value.kind = other.kind

/-- The members have the same keys in the same order and values of one shape, and under the
discriminator the same strings. -/
def SameMembers (discriminator : String) : Members → Members → Prop
  | [], [] => True
  | (key, value) :: rest, (otherKey, other) :: others =>
    key = otherKey ∧ value.SameShape discriminator other ∧
      (key = discriminator → value.text? = other.text?) ∧ SameMembers discriminator rest others
  | _, _ => False

end

/-- Values of one shape are of one kind. -/
theorem Value.kind_of_sameShape {discriminator : String} {value other : Value}
    (h : value.SameShape discriminator other) : value.kind = other.kind := by
  unfold Value.SameShape at h
  split at h
  · rfl
  · rfl
  · exact h

theorem Value.kind_eq_array {value : Value} :
    value.kind = .array ↔ ∃ items, value = .array items := by
  cases value <;> simp [kind]

theorem Value.kind_eq_object {value : Value} :
    value.kind = .object ↔ ∃ members, value = .object members := by
  cases value <;> simp [kind]

/-- The word for a value in warnings tells its kind. -/
theorem Value.describe_eq (value : Value) :
    value.describe = if value.kind = .unsupported then "null" else value.kind.label := by
  cases value <;> rfl

theorem Value.describe_of_kind {value other : Value} (h : value.kind = other.kind) :
    value.describe = other.describe := by
  rw [describe_eq, describe_eq, h]

theorem SameMembers.cons_eq {discriminator key : String} {value : Value} {rest others : Members}
    (h : SameMembers discriminator ((key, value) :: rest) others) :
    ∃ other others', others = (key, other) :: others' ∧ value.SameShape discriminator other ∧
      (key = discriminator → value.text? = other.text?) ∧
      SameMembers discriminator rest others' := by
  cases others with
  | nil => exact h.elim
  | cons member others' =>
    rcases member with ⟨otherKey, other⟩
    obtain ⟨rfl, hvalue, htext, hrest⟩ := h
    exact ⟨other, others', rfl, hvalue, htext, hrest⟩

end Json

/-! ## One member -/

/-- An array is judged by the kind of its first element. -/
theorem resolveArray_of_head {items others : List Value}
    (h : items.head?.map Value.kind = others.head?.map Value.kind) (path key : String)
    (r : Registry) : resolveArray path key items r = resolveArray path key others r := by
  match items, others with
  | [], [] => rfl
  | [], _ :: _ => simp at h
  | _ :: _, [] => simp at h
  | first :: _, other :: _ =>
    have hkind : first.kind = other.kind := by simpa using h
    have harray : arrayKind? first = arrayKind? other := by
      unfold arrayKind?
      rw [hkind]
    simp only [resolveArray]
    rw [harray, Json.Value.describe_of_kind hkind]

/-- Whether a discriminator declares a type depends on its text, and the warning if it does not on
its kind. -/
theorem Walk.meetDiscriminator_of_text {value other : Value} (hkind : value.kind = other.kind)
    (htext : value.text? = other.text?) (introducing path key : String) (w : Walk) :
    w.meetDiscriminator introducing path key value =
      w.meetDiscriminator introducing path key other := by
  have hdescribe := Json.Value.describe_of_kind hkind
  cases value <;> cases other <;> simp_all [meetDiscriminator, Json.Value.text?]

/-- Two walks in one state are in one state after a member of the same shape. -/
theorem Walk.advance_of_sameShape {discriminator : String} {value other : Value} {key : String}
    (hshape : value.SameShape discriminator other)
    (htext : key = discriminator → value.text? = other.text?) (introducing path : String)
    (fields : List Field) (recorded : Registry) (w : Walk) :
    w.advance discriminator introducing path key value fields recorded =
      w.advance discriminator introducing path key other fields recorded := by
  by_cases hmeets : w.pending.isNone ∧ introducing ≠ "" ∧ key = discriminator
  · simp only [advance]
    rw [if_pos hmeets, if_pos hmeets, meetDiscriminator_of_text
      (Json.Value.kind_of_sameShape hshape) (htext hmeets.2.2)]
  · simp only [advance]
    rw [if_neg hmeets, if_neg hmeets]

/-- The members of an object, when the property of each is known to depend on its shape. -/
private theorem resolveMembers_of_shapes {discriminator : String} {members others : Members}
    (hproperty : ∀ member ∈ members, ∀ other path key r,
      member.2.SameShape discriminator other →
      resolveProperty discriminator path key member.2 r =
        resolveProperty discriminator path key other r)
    (h : Json.SameMembers discriminator members others) (introducing path : String) (w : Walk) :
    resolveMembers discriminator introducing path members w =
      resolveMembers discriminator introducing path others w := by
  induction members generalizing others w with
  | nil =>
    cases others with
    | nil => rfl
    | cons _ _ => exact h.elim
  | cons member rest ih =>
    rcases member with ⟨key, value⟩
    obtain ⟨other, others', rfl, hvalue, htext, hrest⟩ := h.cons_eq
    have hsame := hproperty (key, value) (by simp) other s!"{path}.{key}" key w.registry hvalue
    rw [resolveMembers_cons, resolveMembers_cons, hsame, Walk.advance_of_sameShape hvalue htext]
    exact ih (fun member hm => hproperty member (by simp [hm])) hrest _

/-! ## The whole walk -/

/-- A property that holds no array and no object is judged by its kind. -/
theorem resolveProperty_of_kind {value other : Value} (harray : value.kind ≠ .array)
    (hobject : value.kind ≠ .object) (hkind : value.kind = other.kind)
    (discriminator path key : String) (r : Registry) :
    resolveProperty discriminator path key value r =
      resolveProperty discriminator path key other r := by
  cases value <;> cases other <;>
    simp only [Json.Value.kind, ne_eq, not_true_eq_false, reduceCtorEq] at hkind harray hobject <;>
    simp only [resolveProperty]

/-- **One step of two walks.** Properties of one shape contribute the same. -/
theorem resolveProperty_of_sameShape {discriminator : String} {value other : Value}
    (h : value.SameShape discriminator other) (path key : String) (r : Registry) :
    resolveProperty discriminator path key value r =
      resolveProperty discriminator path key other r := by
  induction value using Value.memberInduction generalizing other path key r with
  | leaf value hleaf =>
    have hkind := Json.Value.kind_of_sameShape h
    by_cases harray : value.kind = .array
    · obtain ⟨items, rfl⟩ := Json.Value.kind_eq_array.1 harray
      obtain ⟨others, rfl⟩ := Json.Value.kind_eq_array.1 (hkind ▸ harray)
      simp only [resolveProperty]
      rw [resolveArray_of_head h]
    · refine resolveProperty_of_kind harray (fun hobject => ?_) hkind discriminator path key r
      obtain ⟨members, rfl⟩ := Json.Value.kind_eq_object.1 hobject
      exact hleaf members rfl
  | object members ih =>
    obtain ⟨others, rfl⟩ := Json.Value.kind_eq_object.1 (Json.Value.kind_of_sameShape h).symm
    simp only [resolveProperty]
    rw [resolveMembers_of_shapes (fun member hm other path key r hshape =>
      ih member hm hshape path key r) h]

/-- **Two whole walks.** Over members of one shape they end in one state. -/
theorem resolveMembers_of_sameMembers {discriminator : String} {members others : Members}
    (h : Json.SameMembers discriminator members others) (introducing path : String) (w : Walk) :
    resolveMembers discriminator introducing path members w =
      resolveMembers discriminator introducing path others w :=
  resolveMembers_of_shapes
    (fun _ _ _ path key r hshape => resolveProperty_of_sameShape hshape path key r)
    h introducing path w

theorem planOfMembers_of_sameMembers {discriminator : String} {members others : Members}
    (h : Json.SameMembers discriminator members others) (root : String) :
    planOfMembers discriminator root members = planOfMembers discriminator root others := by
  simp only [planOfMembers, resolveObject]
  rw [resolveMembers_of_sameMembers h]

/-- **Sample values do not leak.** Two documents that are objects of one shape have the same plan:
the same definitions, fields, paths, notes and warnings. So have all texts that are read as these
documents, and what is rendered from the plan is the same in every form. -/
theorem sample_values_do_not_leak {discriminator : String} {members others : Members}
    (h : Json.SameMembers discriminator members others) (root source otherSource : String) :
    ∃ plan, planOfDocument discriminator root source (.object members) = .ok plan ∧
      planOfDocument discriminator root otherSource (.object others) = .ok plan ∧
      (∀ text, readSample text source = .ok (.object members) →
        synthesize discriminator root source text = .ok plan) ∧
      (∀ text, readSample text otherSource = .ok (.object others) →
        synthesize discriminator root otherSource text = .ok plan) ∧
      ∀ form, (planOfDocument discriminator root source (.object members)).bind
          (Plan.render form) =
        (planOfDocument discriminator root otherSource (.object others)).bind
          (Plan.render form) := by
  have hplan : planOfDocument discriminator root source (.object members) =
      .ok (planOfMembers discriminator root members) := rfl
  have hotherPlan : planOfDocument discriminator root otherSource (.object others) =
      .ok (planOfMembers discriminator root members) := by
    rw [planOfMembers_of_sameMembers h root]
    rfl
  refine ⟨planOfMembers discriminator root members, hplan, hotherPlan, ?_, ?_, ?_⟩
  · intro text htext
    unfold synthesize
    rw [htext]
    exact hplan
  · intro text htext
    unfold synthesize
    rw [htext]
    exact hotherPlan
  · intro form
    rw [hplan, hotherPlan]

/-- A letter: a type inside, a discriminator that is no string, arrays and a `null`. -/
def letter : Members :=
  [("@type", .string "Letter"), ("text", .string "Dear Ann"), ("sent", .int 3),
    ("to", .object [("@type", .string "Person"), ("age", .int 41), ("gone", .null)]),
    ("stamp", .object [("@type", .bool true), ("worth", .array [.int 1, .string "x"])]),
    ("tags", .array [.array []])]

/-- Another letter to a person of another age. -/
def otherLetter : Members :=
  [("@type", .string "Letter"), ("text", .string ""), ("sent", .float Decimal.Binary64.nan),
    ("to", .object [("@type", .string "Person"), ("age", .int (-7)), ("gone", .null)]),
    ("stamp", .object [("@type", .bool false), ("worth", .array [.int 20])]),
    ("tags", .array [.array [.null], .bool false])]

/-- The two letters have one plan, which warns of the `null`, the stamp and the tags. -/
theorem sample_values_do_not_leak_letter :
    Json.SameMembers "@type" letter otherLetter ∧
      ∃ plan, planOfDocument "@type" "Letter" "" (.object letter) = .ok plan ∧
        planOfDocument "@type" "Letter" "" (.object otherLetter) = .ok plan ∧
        plan.warnings.length = 3 := by
  have hshape : Json.SameMembers "@type" letter otherLetter := by
    simp [Json.SameMembers, Json.Value.SameShape, letter, otherLetter, Json.Value.kind,
      Json.Value.text?]
  obtain ⟨plan, hplan, hotherPlan, -⟩ := sample_values_do_not_leak hshape "Letter" "" ""
  refine ⟨hshape, plan, hplan, hotherPlan, ?_⟩
  cases hplan
  decide +kernel

end SampleTypes
