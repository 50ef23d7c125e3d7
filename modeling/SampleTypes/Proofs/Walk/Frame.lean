import SampleTypes.Resolution

/-!
# The walk only appends

What a walk records does not depend on what has been recorded before it. A walk over a registry
that is already filled gives the same fields as the walk over an empty one and puts its types and
warnings behind those that are there.

The difficulty is the type that is still open: it lies inside the registry and gains fields while
further types are appended behind it. It is addressed by its place, so a walk that starts on a
filled registry is the walk on an empty one with that place moved (`Walk.behind`), and every step of
the walk commutes with the move.

## Main results

* `resolveProperty_append`: a property adds to a filled registry what it adds to an empty one.
* `resolveMembers_behind`: the same of the members of an object, from any state of the walk.
* `resolveObject_append`: the same of a whole object.
-/

namespace SampleTypes

open Json (Value Members)

namespace Registry

/-- What is recorded in `s`, behind what is recorded in `r`. -/
instance : Append Registry where
  append r s := ⟨r.definitions ++ s.definitions, r.warnings ++ s.warnings⟩

@[simp] theorem definitions_append (r s : Registry) :
    (r ++ s).definitions = r.definitions ++ s.definitions := rfl

@[simp] theorem warnings_append (r s : Registry) :
    (r ++ s).warnings = r.warnings ++ s.warnings := rfl

@[ext] theorem ext {r s : Registry} (hd : r.definitions = s.definitions)
    (hw : r.warnings = s.warnings) : r = s := by
  cases r
  cases s
  simp_all

@[simp] theorem append_empty (r : Registry) : r ++ ({} : Registry) = r := by
  ext1 <;> simp

@[simp] theorem empty_append (r : Registry) : ({} : Registry) ++ r = r := by
  ext1 <;> simp

theorem append_assoc (r s t : Registry) : r ++ s ++ t = r ++ (s ++ t) := by
  ext1 <;> simp

theorem append_warn (message : String) (r s : Registry) :
    (r ++ s).warn message = r ++ s.warn message := by
  ext1 <;> simp

theorem append_openType (name : String) (r s : Registry) :
    (r ++ s).openType name = r ++ s.openType name := by
  ext1 <;> simp

theorem append_nextPlace (r s : Registry) :
    (r ++ s).nextPlace = r.definitions.length + s.nextPlace := by
  simp [nextPlace]

/-- Fields for a type of the later part leave the earlier part alone. -/
theorem append_addFields (place : Nat) (fields : List Field) (r s : Registry) :
    (r ++ s).addFields (r.definitions.length + place) fields = r ++ s.addFields place fields := by
  ext1
  · rw [definitions_addFields, definitions_append, definitions_append, definitions_addFields]
    exact List.modifyTailIdx_add _ place r.definitions s.definitions
  · rfl

/-- Fields for a type of the earlier part leave the later part alone. -/
theorem addFields_append {place : Nat} {r : Registry} (h : place < r.definitions.length)
    (fields : List Field) (s : Registry) :
    (r ++ s).addFields place fields = r.addFields place fields ++ s := by
  ext1
  · simp only [definitions_addFields, definitions_append]
    generalize r.definitions = definitions at h
    induction definitions generalizing place with
    | nil => simp at h
    | cons d rest ih =>
      cases place with
      | zero => rfl
      | succ place =>
        simp only [List.length_cons] at h
        simp only [List.cons_append, List.modify_succ_cons]
        rw [ih (by omega)]
  · rfl

theorem addFields_addFields (place : Nat) (fields others : List Field) (r : Registry) :
    (r.addFields place fields).addFields place others = r.addFields place (fields ++ others) := by
  ext1
  · simp only [definitions_addFields, List.modify_modify_eq]
    congr 1
    funext d
    simp
  · rfl

theorem length_addFields (place : Nat) (fields : List Field) (r : Registry) :
    (r.addFields place fields).definitions.length = r.definitions.length := by
  simp [definitions_addFields]

/-- A type that is opened and given its first fields. -/
theorem addFields_openType (name : String) (fields : List Field) (r : Registry) :
    (r.openType name).addFields r.nextPlace fields =
      r ++ { definitions := [{ name := name, fields := fields }] } := by
  ext1
  · exact List.modifyTailIdx_add _ 0 r.definitions [{ name := name }]
  · simp

end Registry

namespace Walk

/-- The walk after one more member, when the property itself has come to `fields` and has left
`recorded` behind. This is the body of the loop of `resolveMembers`. -/
def advance (discriminator introducing path key : String) (value : Value) (fields : List Field)
    (recorded : Registry) (w : Walk) : Walk :=
  let w := { w with registry := recorded }
  let w :=
    if w.pending.isNone ∧ introducing ≠ "" ∧ key = discriminator then
      w.meetDiscriminator introducing path key value
    else w
  w.give fields

/-- The same walk, started when `r` was recorded already. -/
def behind (r : Registry) (w : Walk) : Walk :=
  { collected := w.collected
    pending := w.pending.map fun current => (r.definitions.length + current.1, current.2)
    registry := r ++ w.registry }

theorem isNone_pending_behind (r : Registry) (w : Walk) :
    (w.behind r).pending.isNone = w.pending.isNone := by
  simp [behind]

theorem behind_meetDiscriminator (introducing path key : String) (value : Value) (r : Registry)
    (w : Walk) :
    (w.behind r).meetDiscriminator introducing path key value =
      (w.meetDiscriminator introducing path key value).behind r := by
  cases value <;>
    simp [behind, meetDiscriminator, Registry.append_nextPlace, Registry.append_openType,
      Registry.append_warn]

theorem behind_give (fields : List Field) (r : Registry) (w : Walk) :
    (w.behind r).give fields = (w.give fields).behind r := by
  rcases w with ⟨collected, _ | ⟨place, name⟩, registry⟩
  · rfl
  · simp [behind, give, Registry.append_addFields]

theorem behind_advance (discriminator introducing path key : String) (value : Value)
    (fields : List Field) (r s : Registry) (w : Walk) :
    (w.behind r).advance discriminator introducing path key value fields (r ++ s) =
      (w.advance discriminator introducing path key value fields s).behind r := by
  have hrecord : { w.behind r with registry := r ++ s } =
      ({ w with registry := s } : Walk).behind r := rfl
  by_cases hmeets : w.pending.isNone ∧ introducing ≠ "" ∧ key = discriminator
  · have hmeets' : (w.behind r).pending.isNone ∧ introducing ≠ "" ∧ key = discriminator := by
      rwa [isNone_pending_behind]
    simp only [advance]
    rw [if_pos hmeets, if_pos hmeets', hrecord, behind_meetDiscriminator, behind_give]
  · have hmeets' :
        ¬((w.behind r).pending.isNone ∧ introducing ≠ "" ∧ key = discriminator) := by
      rwa [isNone_pending_behind]
    simp only [advance]
    rw [if_neg hmeets, if_neg hmeets', hrecord, behind_give]

theorem behind_finish (introducing wireName path : String) (r : Registry) (w : Walk) :
    (w.behind r).finish introducing wireName path =
      ((w.finish introducing wireName path).1,
        r ++ (w.finish introducing wireName path).2) := by
  rcases w with ⟨collected, _ | ⟨place, name⟩, registry⟩ <;> rfl

end Walk

theorem resolveArray_append (path key : String) (items : List Value) (r s : Registry) :
    resolveArray path key items (r ++ s) =
      ((resolveArray path key items s).1, r ++ (resolveArray path key items s).2) := by
  cases items with
  | nil => simp [resolveArray, Registry.append_warn]
  | cons first rest =>
    cases h : arrayKind? first <;> simp [resolveArray, h, Registry.append_warn]

/-- The loop over the members, one round at a time. -/
theorem resolveMembers_cons (discriminator introducing path key : String) (value : Value)
    (rest : Members) (w : Walk) :
    resolveMembers discriminator introducing path ((key, value) :: rest) w =
      resolveMembers discriminator introducing path rest
        (w.advance discriminator introducing s!"{path}.{key}" key value
          (resolveProperty discriminator s!"{path}.{key}" key value w.registry).1
          (resolveProperty discriminator s!"{path}.{key}" key value w.registry).2) := by
  simp only [resolveMembers, Walk.advance]

/-- The members of an object, when each property is known to add to a filled registry what it adds
to an empty one. -/
private theorem resolveMembers_behind_of (discriminator introducing path : String)
    {members : Members}
    (h : ∀ member ∈ members, ∀ path key r s,
      resolveProperty discriminator path key member.2 (r ++ s) =
        ((resolveProperty discriminator path key member.2 s).1,
          r ++ (resolveProperty discriminator path key member.2 s).2))
    (r : Registry) (w : Walk) :
    resolveMembers discriminator introducing path members (w.behind r) =
      (resolveMembers discriminator introducing path members w).behind r := by
  induction members generalizing w with
  | nil => simp only [resolveMembers]
  | cons member rest ih =>
    rcases member with ⟨key, value⟩
    have hvalue := h (key, value) (by simp) s!"{path}.{key}" key r w.registry
    have hregistry : (w.behind r).registry = r ++ w.registry := rfl
    rw [resolveMembers_cons, resolveMembers_cons, hregistry, hvalue, Walk.behind_advance]
    exact ih (fun member hm => h member (by simp [hm])) _

/-- **Frame.** A property adds to a filled registry what it adds to an empty one. -/
theorem resolveProperty_append (discriminator path key : String) (value : Value)
    (r s : Registry) :
    resolveProperty discriminator path key value (r ++ s) =
      ((resolveProperty discriminator path key value s).1,
        r ++ (resolveProperty discriminator path key value s).2) := by
  induction value using Value.memberInduction generalizing path key r s with
  | leaf value h =>
    cases value with
    | array items => simp [resolveProperty, resolveArray_append]
    | object members => exact absurd rfl (h members)
    | null => simp [resolveProperty, Registry.append_warn]
    | _ => simp [resolveProperty]
  | object members ih =>
    simp only [resolveProperty]
    have hstart : ({ registry := r ++ s } : Walk) = ({ registry := s } : Walk).behind r := rfl
    rw [hstart, resolveMembers_behind_of discriminator _ path
      (fun member hm path key r s => ih member hm path key r s), Walk.behind_finish]

/-- **Frame**, from any state of the walk over an object. -/
theorem resolveMembers_behind (discriminator introducing path : String) (members : Members)
    (r : Registry) (w : Walk) :
    resolveMembers discriminator introducing path members (w.behind r) =
      (resolveMembers discriminator introducing path members w).behind r :=
  resolveMembers_behind_of discriminator introducing path
    (fun member _ path key r s => resolveProperty_append discriminator path key member.2 r s) r w

/-- **Frame** of a whole object. -/
theorem resolveObject_append (discriminator introducing path wireName : String)
    (members : Members) (r s : Registry) :
    resolveObject discriminator introducing path wireName members (r ++ s) =
      ((resolveObject discriminator introducing path wireName members s).1,
        r ++ (resolveObject discriminator introducing path wireName members s).2) := by
  have hstart : ({ registry := r ++ s } : Walk) = ({ registry := s } : Walk).behind r := rfl
  simp only [resolveObject]
  rw [hstart, resolveMembers_behind, Walk.behind_finish]

end SampleTypes
