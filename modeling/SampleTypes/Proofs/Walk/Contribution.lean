import SampleTypes.Proofs.Identifier.Keys
import SampleTypes.Proofs.Walk.Frame
import SampleTypes.Synthesis

/-!
# What a property contributes

Since the walk only appends (`Frame`), what a property does is told by two things that do not
depend on where the walk stands: the fields that come to the surface, for the type around it, and
what is recorded, the types that are opened inside it and the warnings.

For an object both are put together from its members. If none of them declares a type, everything
comes to the surface. Otherwise the members before the declaration surface, those from it on become
the fields of the new type, and a reference takes their place. These equations hold the whole
routing of the walk; nothing after this module looks at a pending type again.

## Main results

* `surfaced_typedObject`, `recorded_typedObject`: an object that becomes a type.
* `surfaced_plainObject`, `recorded_plainObject`: an object that does not.
* `definitions_planOfMembers_eq`: the definitions of a plan.
* `registry_is_only_appended_to`: objects one after another, over any registry.
-/

namespace SampleTypes

open Json (Value Members)

/-- The fields that a member of the object at `path` gives to the type around it. -/
def surfaced (discriminator path : String) (member : String × Value) : List Field :=
  (resolveProperty discriminator s!"{path}.{member.1}" member.1 member.2 {}).1

/-- The types and warnings that a member of the object at `path` records. -/
def recorded (discriminator path : String) (member : String × Value) : Registry :=
  (resolveProperty discriminator s!"{path}.{member.1}" member.1 member.2 {}).2

/-- The fields that several members surface, in order. -/
def surfacedAll (discriminator path : String) (members : Members) : List Field :=
  members.flatMap (surfaced discriminator path)

/-- What several members record, in order. -/
def recordedAll (discriminator path : String) : Members → Registry
  | [] => {}
  | member :: rest => recorded discriminator path member ++ recordedAll discriminator path rest

/-- The type that a member declares for the object it stands in. -/
def declared? (discriminator : String) : String × Value → Option String
  | (key, .string name) => if key = discriminator then some name else none
  | _ => none

/-- The warning about a discriminator at `path` that is not a string, while the object introduced
by `introducing` has no type yet. -/
def refusal (discriminator introducing path : String) : String × Value → Registry
  | (_, .string _) => {}
  | (key, value) =>
    if introducing ≠ "" ∧ key = discriminator then
      ({} : Registry).warn (s!"{path}: '{key}' is " ++ value.describe ++
        s!", not a string; '{introducing}' is not hoisted")
    else {}

/-- What several members record while the object they stand in has no type yet. -/
def recordedUntyped (discriminator introducing path : String) : Members → Registry
  | [] => {}
  | member :: rest =>
    recorded discriminator path member ++
      (refusal discriminator introducing s!"{path}.{member.1}" member ++
        recordedUntyped discriminator introducing path rest)

/-- The reference to the type `name` that stands in for an object. -/
def referenceField (path key name : String) : Field :=
  { wireName := key
    identifier := Identifier.ofKey key
    kind := .objectReference
    reference := name
    path := path }

section Lists

variable (discriminator path : String)

@[simp] theorem surfacedAll_nil : surfacedAll discriminator path [] = [] := rfl

@[simp] theorem surfacedAll_cons (member : String × Value) (rest : Members) :
    surfacedAll discriminator path (member :: rest) =
      surfaced discriminator path member ++ surfacedAll discriminator path rest := by
  simp [surfacedAll]

@[simp] theorem surfacedAll_append (front back : Members) :
    surfacedAll discriminator path (front ++ back) =
      surfacedAll discriminator path front ++ surfacedAll discriminator path back := by
  simp [surfacedAll]

theorem recordedAll_append (front back : Members) :
    recordedAll discriminator path (front ++ back) =
      recordedAll discriminator path front ++ recordedAll discriminator path back := by
  induction front with
  | nil => rw [List.nil_append, recordedAll, Registry.empty_append]
  | cons member rest ih =>
    rw [List.cons_append, recordedAll, recordedAll, ih, Registry.append_assoc]

theorem definitions_refusal (introducing : String) (member : String × Value) :
    (refusal discriminator introducing path member).definitions = [] := by
  unfold refusal
  split
  · rfl
  · split <;> rfl

/-- Refusals are warnings: the types do not depend on them. -/
theorem definitions_recordedUntyped (introducing : String) (members : Members) :
    (recordedUntyped discriminator introducing path members).definitions =
      (recordedAll discriminator path members).definitions := by
  induction members with
  | nil => rfl
  | cons member rest ih => simp [recordedUntyped, recordedAll, ih, definitions_refusal]

/-- Nothing is refused at the root. -/
theorem recordedUntyped_root (members : Members) :
    recordedUntyped discriminator "" path members = recordedAll discriminator path members := by
  induction members with
  | nil => rfl
  | cons member rest ih =>
    have hrefusal : refusal discriminator "" s!"{path}.{member.1}" member = {} := by
      rcases member with ⟨key, value⟩
      cases value <;> simp [refusal]
    rw [recordedUntyped, recordedAll, hrefusal, ih, Registry.empty_append]

end Lists

/-! ## Rounds and runs of the walk -/

/-- Any property, in terms of what it surfaces and records. -/
theorem resolveProperty_eq (discriminator path : String) (member : String × Value)
    (r : Registry) :
    resolveProperty discriminator s!"{path}.{member.1}" member.1 member.2 r =
      (surfaced discriminator path member, r ++ recorded discriminator path member) := by
  have h := resolveProperty_append discriminator s!"{path}.{member.1}" member.1 member.2 r {}
  rwa [Registry.append_empty] at h

/-- One round, the property being replaced by what it contributes. -/
theorem resolveMembers_step (discriminator introducing path : String) (member : String × Value)
    (rest : Members) (w : Walk) :
    resolveMembers discriminator introducing path (member :: rest) w =
      resolveMembers discriminator introducing path rest
        (w.advance discriminator introducing s!"{path}.{member.1}" member.1 member.2
          (surfaced discriminator path member)
          (w.registry ++ recorded discriminator path member)) := by
  rw [resolveMembers_cons, resolveProperty_eq]

theorem resolveMembers_append (discriminator introducing path : String) (front back : Members)
    (w : Walk) :
    resolveMembers discriminator introducing path (front ++ back) w =
      resolveMembers discriminator introducing path back
        (resolveMembers discriminator introducing path front w) := by
  induction front generalizing w with
  | nil => simp only [List.nil_append, resolveMembers]
  | cons member rest ih => rw [List.cons_append, resolveMembers_step, resolveMembers_step, ih]

/-- A run over members while a type is open: all that they surface goes to that type. -/
theorem resolveMembers_typed (discriminator introducing path : String) {place : Nat}
    {name : String} (members : Members) (w : Walk) (hopen : w.pending = some (place, name))
    (hplace : place < w.registry.definitions.length) :
    resolveMembers discriminator introducing path members w =
      { w with
        registry := w.registry.addFields place (surfacedAll discriminator path members) ++
          recordedAll discriminator path members } := by
  induction members generalizing w with
  | nil =>
    have hnone : w.registry.addFields place [] = w.registry := by
      ext1
      · simp only [Registry.definitions_addFields, List.append_nil]
        exact List.modify_id place _
      · rfl
    simp only [resolveMembers, surfacedAll_nil, recordedAll, hnone, Registry.append_empty]
  | cons member rest ih =>
    rcases w with ⟨collected, pending, registry⟩
    dsimp only at hopen hplace
    subst hopen
    have hadvance : (⟨collected, some (place, name), registry⟩ : Walk).advance discriminator
          introducing s!"{path}.{member.1}" member.1 member.2 (surfaced discriminator path member)
          (registry ++ recorded discriminator path member) =
        ⟨collected, some (place, name),
          registry.addFields place (surfaced discriminator path member) ++
            recorded discriminator path member⟩ := by
      simp [Walk.advance, Walk.give, Registry.addFields_append hplace]
    have hgrown : place < (registry.addFields place (surfaced discriminator path member)
        ).definitions.length := by
      rwa [Registry.length_addFields]
    rw [resolveMembers_step, hadvance, ih _ rfl (by simp; omega),
      Registry.addFields_append hgrown, Registry.addFields_addFields, surfacedAll_cons,
      recordedAll, Registry.append_assoc]

/-- A run over members while no type is open and none is declared: all that they surface goes to
the surrounding type. -/
theorem resolveMembers_untyped (discriminator introducing path : String) (members : Members)
    (w : Walk) (hopen : w.pending = none)
    (hplain : introducing = "" ∨ ∀ member ∈ members, declared? discriminator member = none) :
    resolveMembers discriminator introducing path members w =
      { w with
        collected := w.collected ++ surfacedAll discriminator path members
        registry := w.registry ++ recordedUntyped discriminator introducing path members } := by
  induction members generalizing w with
  | nil => simp [resolveMembers, recordedUntyped]
  | cons member rest ih =>
    rcases w with ⟨collected, pending, registry⟩
    dsimp only at hopen
    subst hopen
    have hadvance : (⟨collected, none, registry⟩ : Walk).advance discriminator introducing
          s!"{path}.{member.1}" member.1 member.2 (surfaced discriminator path member)
          (registry ++ recorded discriminator path member) =
        ⟨collected ++ surfaced discriminator path member, none,
          registry ++ recorded discriminator path member ++
            refusal discriminator introducing s!"{path}.{member.1}" member⟩ := by
      rcases member with ⟨key, value⟩
      by_cases hmeets : introducing ≠ "" ∧ key = discriminator
      · have hdeclared : declared? discriminator (key, value) = none :=
          (hplain.resolve_left hmeets.1) _ (by simp)
        cases value with
        | string name => simp [declared?, hmeets.2] at hdeclared
        | _ =>
          simp only [Walk.advance, Option.isNone_none, true_and, if_pos hmeets, refusal,
            ← Registry.append_warn, Registry.append_empty]
          rfl
      · have hrefusal :
            refusal discriminator introducing s!"{path}.{key}" (key, value) = {} := by
          cases value with
          | string name => rfl
          | _ => exact if_neg hmeets
        simp only [Walk.advance, Option.isNone_none, true_and, if_neg hmeets, hrefusal,
          Registry.append_empty]
        rfl
    have hrest := ih ⟨collected ++ surfaced discriminator path member, none,
      registry ++ recorded discriminator path member ++
        refusal discriminator introducing s!"{path}.{member.1}" member⟩ rfl
      (hplain.imp_right fun h other hm => h other (by simp [hm]))
    rw [resolveMembers_step, hadvance, hrest, surfacedAll_cons, recordedUntyped]
    simp only [Registry.append_assoc, List.append_assoc]

/-! ## Objects and plans -/

theorem surfaced_object (discriminator path key : String) (members : Members) :
    surfaced discriminator path (key, .object members) =
      ((resolveMembers discriminator (Identifier.ofKey key) s!"{path}.{key}" members
        {  registry := {} }).finish (Identifier.ofKey key) key s!"{path}.{key}").1 := by
  simp only [surfaced, resolveProperty]

theorem recorded_object (discriminator path key : String) (members : Members) :
    recorded discriminator path (key, .object members) =
      ((resolveMembers discriminator (Identifier.ofKey key) s!"{path}.{key}" members
        {  registry := {} }).finish (Identifier.ofKey key) key s!"{path}.{key}").2 := by
  simp only [recorded, resolveProperty]

section Object

variable (discriminator path : String) {key name : String} {members before after : Members}

/-- The walk over an object that does not become a type. -/
private theorem walk_plainObject
    (hplain : Identifier.ofKey key = "" ∨
      ∀ member ∈ members, declared? discriminator member = none) :
    resolveMembers discriminator (Identifier.ofKey key) path members { registry := {} } =
      { collected := surfacedAll discriminator path members
        pending := none
        registry := recordedUntyped discriminator (Identifier.ofKey key) path members } := by
  rw [resolveMembers_untyped discriminator _ path members _ rfl hplain]
  simp

/-- An object that does not become a type gives all its fields to the type around it. -/
theorem surfaced_plainObject
    (hplain : Identifier.ofKey key = "" ∨
      ∀ member ∈ members, declared? discriminator member = none) :
    surfaced discriminator path (key, .object members) =
      surfacedAll discriminator s!"{path}.{key}" members := by
  rw [surfaced_object, walk_plainObject discriminator _ hplain]
  rfl

theorem recorded_plainObject
    (hplain : Identifier.ofKey key = "" ∨
      ∀ member ∈ members, declared? discriminator member = none) :
    recorded discriminator path (key, .object members) =
      recordedUntyped discriminator (Identifier.ofKey key) s!"{path}.{key}" members := by
  rw [recorded_object, walk_plainObject discriminator _ hplain]
  rfl

/-- The walk over an object that becomes a type, up to the member that declares the type. -/
private theorem walk_declaration (hkey : Identifier.ofKey key ≠ "")
    (hbefore : ∀ member ∈ before, declared? discriminator member = none) :
    resolveMembers discriminator (Identifier.ofKey key) path
        (before ++ [(discriminator, .string name)]) { registry := {} } =
      { collected := surfacedAll discriminator path before
        pending := some ((recordedUntyped discriminator (Identifier.ofKey key) path
          before).definitions.length, name)
        registry := recordedUntyped discriminator (Identifier.ofKey key) path before ++
          { definitions := [{ name := name
                              fields := surfaced discriminator path
                                (discriminator, .string name) }] } } := by
  have hrecorded : recorded discriminator path (discriminator, .string name) = {} := by
    simp only [recorded, resolveProperty]
  rw [resolveMembers_append,
    resolveMembers_untyped discriminator _ path before _ rfl (Or.inr hbefore),
    resolveMembers_step, hrecorded]
  simp only [resolveMembers, Walk.advance, Option.isNone_none, List.nil_append,
    Registry.empty_append, Registry.append_empty, hkey, ne_eq, not_false_eq_true, and_self, if_true,
    Walk.meetDiscriminator, Walk.give, Registry.addFields_openType]
  rfl

/-- The walk over an object that becomes a type. -/
private theorem walk_typedObject (hkey : Identifier.ofKey key ≠ "")
    (hbefore : ∀ member ∈ before, declared? discriminator member = none) :
    resolveMembers discriminator (Identifier.ofKey key) path
        (before ++ (discriminator, .string name) :: after) { registry := {} } =
      { collected := surfacedAll discriminator path before
        pending := some ((recordedUntyped discriminator (Identifier.ofKey key) path
          before).definitions.length, name)
        registry := recordedUntyped discriminator (Identifier.ofKey key) path before ++
          ({ definitions := [{ name := name
                               fields := surfacedAll discriminator path
                                 ((discriminator, .string name) :: after) }] } ++
            recordedAll discriminator path after) } := by
  rw [List.append_cons before _ after, resolveMembers_append,
    walk_declaration discriminator path hkey hbefore]
  rw [resolveMembers_typed discriminator _ path after _ rfl (by simp)]
  congr 1
  rw [← Registry.append_assoc]
  congr 1
  exact (Registry.append_addFields 0 _ _ _).trans (by simp [Registry.addFields])

/-- An object that becomes a type gives the fields before the declaration to the type around it,
and a reference to the new type. -/
theorem surfaced_typedObject (hkey : Identifier.ofKey key ≠ "")
    (hbefore : ∀ member ∈ before, declared? discriminator member = none) :
    surfaced discriminator path (key, .object (before ++ (discriminator, .string name) :: after)) =
      surfacedAll discriminator s!"{path}.{key}" before ++
        [referenceField s!"{path}.{key}" key name] := by
  have hwire : key ≠ "" := by
    rintro rfl
    exact hkey (by decide)
  rw [surfaced_object, walk_typedObject discriminator _ hkey hbefore]
  simp only [Walk.finish, if_neg hwire, referenceField]

/-- An object that becomes a type records what its members record, and the new type behind what
stands before the declaration. -/
theorem recorded_typedObject (hkey : Identifier.ofKey key ≠ "")
    (hbefore : ∀ member ∈ before, declared? discriminator member = none) :
    recorded discriminator path (key, .object (before ++ (discriminator, .string name) :: after)) =
      recordedUntyped discriminator (Identifier.ofKey key) s!"{path}.{key}" before ++
        ({ definitions := [{ name := name
                             fields := surfacedAll discriminator s!"{path}.{key}"
                               ((discriminator, .string name) :: after) }] } ++
          recordedAll discriminator s!"{path}.{key}" after) := by
  rw [recorded_object, walk_typedObject discriminator _ hkey hbefore]
  rfl

end Object

/-- The root never becomes a type: it surfaces and records what its members do. -/
theorem resolveObject_root (discriminator path wireName : String) (members : Members) :
    resolveObject discriminator "" path wireName members {} =
      (surfacedAll discriminator path members, recordedAll discriminator path members) := by
  simp only [resolveObject]
  rw [resolveMembers_untyped discriminator "" path members _ rfl (Or.inl rfl),
    recordedUntyped_root]
  simp [Walk.finish]

/-- The definitions of a plan: what its members record, and the root with what they surface. -/
theorem definitions_planOfMembers_eq (discriminator root : String) (members : Members) :
    (planOfMembers discriminator root members).definitions =
      (recordedAll discriminator "$" members).definitions ++
        [{ name := root, fields := surfacedAll discriminator "$" members }] := by
  simp only [planOfMembers, resolveObject_root]

/-! ## Objects one after another -/

/-- A root with the members of two objects contributes what the one does and then what the other
does. -/
theorem resolveObject_root_append (discriminator path wireName : String) (front back : Members) :
    resolveObject discriminator "" path wireName (front ++ back) {} =
      ((resolveObject discriminator "" path wireName front {}).1 ++
          (resolveObject discriminator "" path wireName back {}).1,
        (resolveObject discriminator "" path wireName front {}).2 ++
          (resolveObject discriminator "" path wireName back {}).2) := by
  simp only [resolveObject_root, surfacedAll_append, recordedAll_append]

/-- **The registry is only appended to.** Over a registry that is filled already an object has the
fields that it has over an empty one; what was recorded stays as it is, and behind it stands what the
object records over an empty registry. So a root with the members of two objects has the fields, the
types and the warnings of the one and then those of the other, whatever their keys are, and so has
its plan. -/
theorem registry_is_only_appended_to
    (discriminator introducing path wireName root source : String)
    (members front back : Members) (r : Registry) :
    resolveObject discriminator introducing path wireName members r =
        ((resolveObject discriminator introducing path wireName members {}).1,
          { definitions := r.definitions ++
              (resolveObject discriminator introducing path wireName members {}).2.definitions
            warnings := r.warnings ++
              (resolveObject discriminator introducing path wireName members {}).2.warnings }) ∧
      resolveObject discriminator "" path wireName (front ++ back) {} =
        ((resolveObject discriminator "" path wireName front {}).1 ++
            (resolveObject discriminator "" path wireName back {}).1,
          { definitions :=
              (resolveObject discriminator "" path wireName front {}).2.definitions ++
                (resolveObject discriminator "" path wireName back {}).2.definitions
            warnings :=
              (resolveObject discriminator "" path wireName front {}).2.warnings ++
                (resolveObject discriminator "" path wireName back {}).2.warnings }) ∧
      ∃ fields types warnings otherFields otherTypes otherWarnings,
        planOfDocument discriminator root source (.object front) =
            .ok { root := root
                  definitions := types ++ [{ name := root, fields := fields }]
                  warnings := warnings } ∧
          planOfDocument discriminator root source (.object back) =
            .ok { root := root
                  definitions := otherTypes ++ [{ name := root, fields := otherFields }]
                  warnings := otherWarnings } ∧
          planOfDocument discriminator root source (.object (front ++ back)) =
            .ok { root := root
                  definitions := types ++ otherTypes ++
                    [{ name := root, fields := fields ++ otherFields }]
                  warnings := warnings ++ otherWarnings } := by
  have hframe := resolveObject_append discriminator introducing path wireName members r {}
  rw [Registry.append_empty] at hframe
  refine ⟨hframe, resolveObject_root_append discriminator path wireName front back,
    _, _, _, _, _, _, rfl, rfl, ?_⟩
  simp only [planOfDocument, planOfMembers, resolveObject_root_append]
  rfl

end SampleTypes
