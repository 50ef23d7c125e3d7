import Mathlib.Data.Set.Function
import SampleTypes.Repository

/-!
# Runs over several repositories

A run is any interleaving of operations on any number of repositories. What a run does to one
repository depends on the operations on that repository alone, so the repositories are told apart
first and the closed form is proved for one of them.

The closed form speaks of occurrences: an entity may be added several times, and each time it stays
until it is deleted the next time. An occurrence is an item together with the operations that come
behind its arrival; the items of the beginning have all operations behind them. The induction is on
the operations, with the repository they start from as a variable.

Entities are compared by identity. That one identity is one entity is said of the set of entities
that a run deals with.

## Main results

* `getElem?_run`: a run, seen from one repository.
* `items_replay`, `journal_replay`: items and journal after operations on one repository.
* `run_keeps_undeleted`: both, for every run, and the independence of different repositories.
-/

namespace SampleTypes.Repository

/-- A step of a run: an operation on the repository at a place, with an entity. -/
structure Step where
  place : Nat
  operation : Operation
  entity : Entity
  deriving DecidableEq, Repr

/-- The repositories after a run. -/
def run (steps : List Step) (rs : List Repository) : List Repository :=
  steps.foldl (fun rs step => applyAt step.place step.operation step.entity rs) rs

/-- The steps of a run that are taken on the repository at a place. -/
def stepsAt (place : Nat) (steps : List Step) : List Step :=
  steps.filter fun step => step.place = place

/-- A repository after steps that are all its own. -/
def replay (steps : List Step) (r : Repository) : Repository :=
  steps.foldl (fun r step => r.apply step.operation step.entity) r

/-- The entities that steps add, in order. -/
def added (steps : List Step) : List Entity :=
  (steps.filter fun step => step.operation = .add).map Step.entity

/-- The entities that steps add, each with the steps behind its arrival. -/
def arrivals : List Step → List (Entity × List Step)
  | [] => []
  | step :: later =>
    match step.operation with
    | .add => (step.entity, later) :: arrivals later
    | _ => arrivals later

/-- Everything that is ever an item, with the steps behind its arrival: the items of the beginning
and what is added. -/
def occurrences (items : List Entity) (steps : List Step) : List (Entity × List Step) :=
  items.map (fun item => (item, steps)) ++ arrivals steps

/-- No step deletes the entity. -/
def undeleted (e : Entity) (steps : List Step) : Bool :=
  steps.all fun step => step.operation ≠ .delete ∨ step.entity.identity ≠ e.identity

/-- What is left of the items of the beginning and of what is added: the occurrences that no later
step deletes. -/
def kept (items : List Entity) (steps : List Step) : List Entity :=
  ((occurrences items steps).filter fun occurrence => undeleted occurrence.1 occurrence.2).map
    Prod.fst

/-! ## One repository -/

section Replay

variable {steps : List Step} {step : Step} {r : Repository}

@[simp] theorem replay_nil (r : Repository) : replay [] r = r := rfl

@[simp] theorem replay_cons (step : Step) (later : List Step) (r : Repository) :
    replay (step :: later) r = replay later (r.apply step.operation step.entity) := rfl

theorem undeleted_cons (e : Entity) (step : Step) (later : List Step) :
    undeleted e (step :: later) =
      (decide (step.operation ≠ .delete ∨ step.entity.identity ≠ e.identity) &&
        undeleted e later) := rfl

/-- The occurrences are those of the items of the beginning and of the entities added, in order. -/
theorem map_fst_occurrences (items : List Entity) (steps : List Step) :
    (occurrences items steps).map Prod.fst = items ++ added steps := by
  have harrivals : (arrivals steps).map Prod.fst = added steps := by
    induction steps with
    | nil => rfl
    | cons step later ih =>
      rcases step with ⟨place, operation, e⟩
      cases operation <;> simp [arrivals, added, ih]
  simp [occurrences, harrivals, Function.comp_def]

/-- What is left of the items of the beginning comes first. -/
theorem kept_eq (items : List Entity) (steps : List Step) :
    kept items steps = (items.filter fun item => undeleted item steps) ++ kept [] steps := by
  simp [kept, occurrences, List.filter_map, Function.comp_def]

/-- Where nothing is done, everything is left. -/
theorem kept_nil (items : List Entity) : kept items [] = items := by
  rw [kept_eq]
  simp [undeleted, kept, occurrences, arrivals]

/-- What is left, one step further on: the items of the beginning go through the step. -/
theorem kept_cons (items : List Entity) (step : Step) (later : List Step) :
    kept items (step :: later) =
      match step.operation with
      | .add => kept (items ++ [step.entity]) later
      | .delete => kept (items.filter fun item => item.identity ≠ step.entity.identity) later
      | .update => kept items later := by
  rcases step with ⟨place, operation, e⟩
  rw [kept_eq]
  cases operation with
  | add =>
    have hlater : kept [] (⟨place, .add, e⟩ :: later) =
        ([e].filter fun item => undeleted item later) ++ kept [] later := by
      cases h : undeleted e later <;> simp [kept, occurrences, arrivals, h]
    rw [kept_eq (items ++ [e]), hlater, List.filter_append, List.append_assoc]
    simp [undeleted_cons]
  | delete =>
    have hboth : (items.filter fun item => undeleted item (⟨place, .delete, e⟩ :: later)) =
        (items.filter fun item => item.identity ≠ e.identity).filter fun item =>
          undeleted item later := by
      rw [List.filter_filter]
      refine List.filter_congr fun item _ => ?_
      rw [undeleted_cons, Bool.and_comm]
      simp [ne_comm]
    rw [kept_eq (items.filter _), hboth]
    rfl
  | update =>
    rw [kept_eq items]
    simp [undeleted_cons]
    rfl

/-- **The journal of a repository** is continued by one entry for each step, in order. -/
theorem journal_replay (steps : List Step) (r : Repository) :
    (replay steps r).journal =
      r.journal ++ steps.map fun step => (step.operation, step.entity.className) := by
  induction steps generalizing r with
  | nil => simp
  | cons step later ih =>
    rw [replay_cons, ih, journal_apply, List.append_assoc]
    rfl

/-- An operation brings in no entity but its own. -/
theorem mem_items_apply {operation : Operation} {e item : Entity}
    (h : item ∈ (r.apply operation e).items) : item ∈ r.items ∨ item = e := by
  cases operation with
  | add => simpa [apply, add] using h
  | delete => exact Or.inl (List.mem_filter.1 h).1
  | update =>
    obtain ⟨former, hformer, rfl⟩ := List.mem_map.1 h
    split
    · exact Or.inr rfl
    · exact Or.inl hformer

end Replay

section World

variable {world : Set Entity} (hworld : Set.InjOn Entity.identity world)

/-- An operation keeps a repository to the entities of the world. -/
theorem subset_items_apply {r : Repository} {operation : Operation} {e : Entity}
    (hitems : ∀ item ∈ r.items, item ∈ world) (he : e ∈ world) :
    ∀ item ∈ (r.apply operation e).items, item ∈ world := by
  intro item hitem
  rcases mem_items_apply hitem with hold | rfl
  · exact hitems item hold
  · exact he

/-- So do steps. -/
theorem subset_items_replay {steps : List Step} {r : Repository}
    (hitems : ∀ item ∈ r.items, item ∈ world) (hsteps : ∀ step ∈ steps, step.entity ∈ world) :
    ∀ item ∈ (replay steps r).items, item ∈ world := by
  induction steps generalizing r with
  | nil => exact hitems
  | cons step later ih =>
    exact ih (subset_items_apply hitems (hsteps step List.mem_cons_self))
      fun other hother => hsteps other (List.mem_cons_of_mem _ hother)

include hworld

/-- In a world where one identity is one entity, an update changes no item. -/
theorem items_update_of_injOn {r : Repository} {e : Entity}
    (hitems : ∀ item ∈ r.items, item ∈ world) (he : e ∈ world) :
    (r.update e).items = r.items :=
  items_update fun item hitem hidentity => hworld (hitems item hitem) he hidentity

/-- **The items of a repository** are the occurrences that no later step deletes. -/
theorem items_replay {steps : List Step} {r : Repository}
    (hitems : ∀ item ∈ r.items, item ∈ world) (hsteps : ∀ step ∈ steps, step.entity ∈ world) :
    (replay steps r).items = kept r.items steps := by
  induction steps generalizing r with
  | nil => rw [replay_nil, kept_nil]
  | cons step later ih =>
    have he := hsteps step List.mem_cons_self
    have hlater : (replay later (r.apply step.operation step.entity)).items =
        kept (r.apply step.operation step.entity).items later :=
      ih (subset_items_apply hitems he)
        fun other hother => hsteps other (List.mem_cons_of_mem _ hother)
    rw [replay_cons, hlater, kept_cons]
    cases step.operation with
    | add => rfl
    | delete => rfl
    | update => rw [apply, items_update_of_injOn hworld hitems he]

end World

/-! ## Several repositories -/

section Several

variable {steps : List Step} {rs : List Repository}

@[simp] theorem run_nil (rs : List Repository) : run [] rs = rs := rfl

@[simp] theorem run_cons (step : Step) (later : List Step) (rs : List Repository) :
    run (step :: later) rs = run later (applyAt step.place step.operation step.entity rs) := rfl

theorem length_run (steps : List Step) (rs : List Repository) :
    (run steps rs).length = rs.length := by
  induction steps generalizing rs with
  | nil => rfl
  | cons step later ih => rw [run_cons, ih, applyAt, List.length_modify]

/-- An operation on one repository leaves all others alone. -/
theorem getElem?_applyAt (place other : Nat) (operation : Operation) (e : Entity)
    (rs : List Repository) :
    (applyAt place operation e rs)[other]? =
      if place = other then rs[other]?.map (apply operation e) else rs[other]? := by
  rw [applyAt, List.getElem?_modify]
  split <;> simp

/-- Operations on different repositories commute. -/
theorem applyAt_comm {place other : Nat} (h : place ≠ other) (operation operation' : Operation)
    (e e' : Entity) (rs : List Repository) :
    applyAt place operation e (applyAt other operation' e' rs) =
      applyAt other operation' e' (applyAt place operation e rs) := by
  refine List.ext_getElem? fun turn => ?_
  simp only [getElem?_applyAt]
  by_cases hplace : place = turn
  · rw [if_pos hplace, if_pos hplace, if_neg fun hother => h (hplace.trans hother.symm),
      if_neg fun hother => h (hplace.trans hother.symm)]
  · rw [if_neg hplace, if_neg hplace]

/-- **A run, seen from one repository**: the steps on it, and nothing else. -/
theorem getElem?_run (steps : List Step) (rs : List Repository) (place : Nat) :
    (run steps rs)[place]? = rs[place]?.map (replay (stepsAt place steps)) := by
  induction steps generalizing rs with
  | nil => cases h : rs[place]? <;> simp [stepsAt, h]
  | cons step later ih =>
    rw [run_cons, ih, getElem?_applyAt, stepsAt, stepsAt, List.filter_cons]
    by_cases hplace : step.place = place
    · cases rs[place]? <;> simp [hplace]
    · simp [hplace]

/-- Runs with the same steps on each repository, whatever their order across repositories, end in
the same repositories. -/
theorem run_congr {steps' : List Step}
    (h : ∀ place, stepsAt place steps = stepsAt place steps') (rs : List Repository) :
    run steps rs = run steps' rs :=
  List.ext_getElem? fun place => by rw [getElem?_run, getElem?_run, h]

/-- **Repositories over whole runs.** In a world where one identity is one entity, every run over
any number of repositories continues the journal of each by one entry for each of its own steps, in
order, and leaves of the items of the beginning and the entities added, in order, the occurrences
that no later step on the repository deletes. At every point of a run an update changes no item,
and an operation changes one repository only; so operations on different repositories commute, and
how the steps on different repositories are interleaved makes no difference. -/
theorem run_keeps_undeleted {world : Set Entity} (hworld : Set.InjOn Entity.identity world)
    {rs : List Repository} (hitems : ∀ r ∈ rs, ∀ item ∈ r.items, item ∈ world)
    {steps : List Step} (hsteps : ∀ step ∈ steps, step.entity ∈ world) :
    (run steps rs).length = rs.length ∧
      (∀ place r, rs[place]? = some r → ∃ r', (run steps rs)[place]? = some r' ∧
        r'.journal = r.journal ++
          (stepsAt place steps).map (fun step => (step.operation, step.entity.className)) ∧
        r'.items = ((occurrences r.items (stepsAt place steps)).filter fun occurrence =>
          undeleted occurrence.1 occurrence.2).map Prod.fst ∧
        (occurrences r.items (stepsAt place steps)).map Prod.fst =
          r.items ++ added (stepsAt place steps)) ∧
      (∀ (place : Nat) r e, (run steps rs)[place]? = some r → e ∈ world →
        (r.update e).items = r.items) ∧
      (∀ place other operation e, place ≠ other →
        (applyAt place operation e (run steps rs))[other]? = (run steps rs)[other]?) ∧
      (∀ place other operation operation' e e', place ≠ other →
        applyAt place operation e (applyAt other operation' e' (run steps rs)) =
          applyAt other operation' e' (applyAt place operation e (run steps rs))) ∧
      ∀ steps', (∀ place, stepsAt place steps = stepsAt place steps') →
        run steps rs = run steps' rs := by
  have hown : ∀ place, ∀ step ∈ stepsAt place steps, step.entity ∈ world :=
    fun place step hstep => hsteps step (List.mem_filter.1 hstep).1
  have hreplay : ∀ place r, rs[place]? = some r →
      (replay (stepsAt place steps) r).items = kept r.items (stepsAt place steps) :=
    fun place r hr => items_replay hworld (hitems r (List.mem_of_getElem? hr)) (hown place)
  refine ⟨?_, ?_, ?_, ?_, ?_, fun steps' h => run_congr h rs⟩
  · exact length_run steps rs
  · intro place r hr
    refine ⟨replay (stepsAt place steps) r, ?_, journal_replay _ r, hreplay place r hr,
      map_fst_occurrences _ _⟩
    rw [getElem?_run, hr, Option.map_some]
  · intro place r e hr he
    rw [getElem?_run] at hr
    obtain ⟨first, hfirst, rfl⟩ := Option.map_eq_some_iff.1 hr
    exact items_update_of_injOn hworld
      (subset_items_replay (hitems first (List.mem_of_getElem? hfirst)) (hown place)) he
  · intro place other operation e hne
    rw [getElem?_applyAt, if_neg hne]
  · intro place other operation operation' e e' hne
    exact applyAt_comm hne operation operation' e e' _

end Several

/-- Two parcels of one kind and a letter. -/
def parcel : Entity := ⟨"parcel", "Parcel"⟩

def otherParcel : Entity := ⟨"other parcel", "Parcel"⟩

def letter : Entity := ⟨"letter", "Letter"⟩

/-- A shelf that holds one parcel twice, and an empty one. -/
def shelves : List Repository := [{ items := [parcel, otherParcel, parcel] }, {}]

/-- The parcel is taken away and put back once; the other shelf has both kinds of mail. -/
def day : List Step :=
  [⟨1, .add, parcel⟩, ⟨0, .delete, parcel⟩, ⟨1, .delete, letter⟩, ⟨1, .add, letter⟩,
    ⟨0, .add, parcel⟩, ⟨1, .update, parcel⟩, ⟨1, .add, parcel⟩]

/-- Deleting the parcel on one shelf leaves it on the other, and the other parcel stays. -/
theorem run_keeps_undeleted_shelves :
    Set.InjOn Entity.identity {e | e ∈ [parcel, otherParcel, letter]} ∧
      ((run day shelves)[0]?.map Repository.items = some [otherParcel, parcel] ∧
        (run day shelves)[0]?.map Repository.journal =
          some [(.delete, "Parcel"), (.add, "Parcel")]) ∧
      (run day shelves)[1]?.map Repository.items = some [parcel, letter, parcel] := by
  have hworld : Set.InjOn Entity.identity {e | e ∈ [parcel, otherParcel, letter]} := by
    intro first hfirst second hsecond
    have hdistinct : ∀ first ∈ [parcel, otherParcel, letter],
        ∀ second ∈ [parcel, otherParcel, letter],
          first.identity = second.identity → first = second := by decide
    exact hdistinct first hfirst second hsecond
  have hitems : ∀ r ∈ shelves, ∀ item ∈ r.items, item ∈ [parcel, otherParcel, letter] := by
    decide
  have hsteps : ∀ step ∈ day, step.entity ∈ [parcel, otherParcel, letter] := by decide
  obtain ⟨-, hruns, -⟩ := run_keeps_undeleted hworld hitems hsteps
  obtain ⟨first, hfirst, hjournal, hleft, -⟩ := hruns 0 _ rfl
  obtain ⟨second, hsecond, -, hothers, -⟩ := hruns 1 _ rfl
  rw [hfirst, hsecond, Option.map_some, Option.map_some, Option.map_some, hjournal, hleft, hothers]
  exact ⟨hworld, ⟨by decide, by decide⟩, by decide⟩

end SampleTypes.Repository
