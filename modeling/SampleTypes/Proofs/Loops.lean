/-!
# Loops that may fail

What is needed of the loops over lists whose steps may fail: a loop that succeeds has succeeded
step by step, and one that fails has failed at one of its steps.

## Main results

* `bind_eq_ok`, `bind_eq_error`: one step and the rest.
* `mapM_eq_ok_map`, `exists_of_mapM_ok`, `exists_of_mapM_error`: item by item.
* `foldlM_append_eq_ok`, `exists_of_foldlM_error`: the state in the middle of a loop, and where it
  fails.
* `foldlM_eq_error_iff`, `forM_eq_error_iff`: the first item that fails.
-/

namespace SampleTypes.Loops

universe u v

variable {ε : Type v} {α β : Type u}

theorem bind_eq_ok {x : Except ε α} {f : α → Except ε β} {b : β} :
    (x >>= f) = .ok b ↔ ∃ a, x = .ok a ∧ f a = .ok b := by
  cases x with
  | error fault =>
    constructor
    · intro h
      cases h
    · rintro ⟨a, h, -⟩
      cases h
  | ok a =>
    constructor
    · intro h
      exact ⟨a, rfl, h⟩
    · rintro ⟨a', h, hf⟩
      cases h
      exact hf

theorem bind_eq_error {x : Except ε α} {f : α → Except ε β} {fault : ε} :
    (x >>= f) = .error fault ↔ x = .error fault ∨ ∃ a, x = .ok a ∧ f a = .error fault := by
  cases x with
  | error fault' =>
    constructor
    · intro h
      cases h
      exact Or.inl rfl
    · rintro (h | ⟨a, h, -⟩)
      · cases h
        rfl
      · cases h
  | ok a =>
    constructor
    · intro h
      exact Or.inr ⟨a, rfl, h⟩
    · rintro (h | ⟨a', h, hf⟩)
      · cases h
      · cases h
        exact hf

theorem toOption_eq_some {x : Except ε α} {a : α} : x.toOption = some a ↔ x = .ok a := by
  cases x <;> simp [Except.toOption]

theorem mapM_eq_ok_map {γ : Type _} {f : γ → Except ε β} {g : γ → β} {xs : List γ}
    (h : ∀ x ∈ xs, f x = .ok (g x)) : xs.mapM f = .ok (xs.map g) := by
  induction xs with
  | nil => rfl
  | cons x rest ih =>
    have hrest := ih fun y hy => h y (List.mem_cons_of_mem _ hy)
    rw [List.mapM_cons, h x List.mem_cons_self, hrest]
    rfl

theorem mapM_cons_eq_ok {γ : Type _} {f : γ → Except ε β} {x : γ} {rest : List γ} {ys : List β} :
    (x :: rest).mapM f = .ok ys ↔
      ∃ first others, f x = .ok first ∧ rest.mapM f = .ok others ∧ ys = first :: others := by
  rw [List.mapM_cons, bind_eq_ok]
  constructor
  · rintro ⟨first, hfirst, h⟩
    obtain ⟨others, hothers, h⟩ := bind_eq_ok.1 h
    cases h
    exact ⟨first, others, hfirst, hothers, rfl⟩
  · rintro ⟨first, others, hfirst, hothers, rfl⟩
    exact ⟨first, hfirst, bind_eq_ok.2 ⟨others, hothers, rfl⟩⟩

/-- What a loop returns was returned by its steps. -/
theorem exists_of_mapM_ok {γ : Type _} {f : γ → Except ε β} {xs : List γ} {ys : List β}
    (h : xs.mapM f = .ok ys) : ∀ y ∈ ys, ∃ x ∈ xs, f x = .ok y := by
  induction xs generalizing ys with
  | nil =>
    cases h
    simp
  | cons x rest ih =>
    obtain ⟨first, others, hfirst, hothers, rfl⟩ := mapM_cons_eq_ok.1 h
    intro y hy
    rcases List.mem_cons.1 hy with rfl | hy
    · exact ⟨x, List.mem_cons_self, hfirst⟩
    · obtain ⟨other, hmem, hother⟩ := ih hothers y hy
      exact ⟨other, List.mem_cons_of_mem _ hmem, hother⟩

/-- In a loop that succeeds every step has returned something. -/
theorem exists_step_of_mapM_ok {γ : Type _} {f : γ → Except ε β} {xs : List γ} {ys : List β}
    (h : xs.mapM f = .ok ys) : ∀ x ∈ xs, ∃ y ∈ ys, f x = .ok y := by
  induction xs generalizing ys with
  | nil => simp
  | cons x rest ih =>
    obtain ⟨first, others, hfirst, hothers, rfl⟩ := mapM_cons_eq_ok.1 h
    intro other hother
    rcases List.mem_cons.1 hother with rfl | hother
    · exact ⟨first, List.mem_cons_self, hfirst⟩
    · obtain ⟨y, hmem, hy⟩ := ih hothers other hother
      exact ⟨y, List.mem_cons_of_mem _ hmem, hy⟩

/-- What every step of a loop keeps, the whole loop keeps in order. -/
theorem map_eq_of_mapM_ok {γ δ : Type _} {f : γ → Except ε β} {g : β → δ} {k : γ → δ}
    (hstep : ∀ x y, f x = .ok y → g y = k x) {xs : List γ} {ys : List β}
    (h : xs.mapM f = .ok ys) : ys.map g = xs.map k := by
  induction xs generalizing ys with
  | nil =>
    cases h
    rfl
  | cons x rest ih =>
    obtain ⟨first, others, hfirst, hothers, rfl⟩ := mapM_cons_eq_ok.1 h
    rw [List.map_cons, List.map_cons, hstep x first hfirst, ih hothers]

/-- A loop that fails has failed at one of its steps. -/
theorem exists_of_mapM_error {γ : Type _} {f : γ → Except ε β} {xs : List γ} {fault : ε}
    (h : xs.mapM f = .error fault) : ∃ x ∈ xs, f x = .error fault := by
  induction xs with
  | nil => cases h
  | cons x rest ih =>
    rw [List.mapM_cons] at h
    rcases bind_eq_error.1 h with hfirst | ⟨first, -, h⟩
    · exact ⟨x, List.mem_cons_self, hfirst⟩
    · rcases bind_eq_error.1 h with hrest | ⟨others, -, h⟩
      · obtain ⟨other, hmem, hother⟩ := ih hrest
        exact ⟨other, List.mem_cons_of_mem _ hmem, hother⟩
      · cases h

theorem foldlM_cons_eq_ok {γ : Type _} {f : α → γ → Except ε α} {x : γ} {rest : List γ}
    {start last : α} :
    (x :: rest).foldlM f start = .ok last ↔
      ∃ next, f start x = .ok next ∧ rest.foldlM f next = .ok last := by
  rw [List.foldlM_cons]
  exact bind_eq_ok

/-- A loop over two lists passes through the state after the first one. -/
theorem foldlM_append_eq_ok {γ : Type _} {f : α → γ → Except ε α} {front back : List γ}
    {start last : α} :
    (front ++ back).foldlM f start = .ok last ↔
      ∃ middle, front.foldlM f start = .ok middle ∧ back.foldlM f middle = .ok last := by
  rw [List.foldlM_append]
  exact bind_eq_ok

/-- A loop that fails has succeeded up to one of its steps and fails there. -/
theorem exists_of_foldlM_error {γ : Type _} {f : α → γ → Except ε α} {xs : List γ} {start : α}
    {fault : ε} (h : xs.foldlM f start = .error fault) :
    ∃ front x back middle, xs = front ++ x :: back ∧ front.foldlM f start = .ok middle ∧
      f middle x = .error fault := by
  induction xs generalizing start with
  | nil => cases h
  | cons x rest ih =>
    rw [List.foldlM_cons] at h
    rcases bind_eq_error.1 h with hfirst | ⟨next, hnext, h⟩
    · exact ⟨[], x, rest, start, rfl, rfl, hfirst⟩
    · obtain ⟨front, y, back, middle, rfl, hfront, hy⟩ := ih h
      exact ⟨x :: front, y, back, middle, rfl, foldlM_cons_eq_ok.2 ⟨next, hnext, hfront⟩, hy⟩

/-- A loop fails where one of its steps does. -/
theorem foldlM_append_eq_error {γ : Type _} {f : α → γ → Except ε α} {front back : List γ} {x : γ}
    {start middle : α} {fault : ε} (hfront : front.foldlM f start = .ok middle)
    (hx : f middle x = .error fault) : (front ++ x :: back).foldlM f start = .error fault := by
  rw [List.foldlM_append, hfront]
  refine bind_eq_error.2 (Or.inr ⟨middle, rfl, ?_⟩)
  rw [List.foldlM_cons]
  exact bind_eq_error.2 (Or.inl hx)

/-- A loop whose failures are those of its items, whatever the state, fails at the first item that
does. -/
theorem foldlM_eq_error_iff {γ : Type _} {f : α → γ → Except ε α} {fails : γ → ε → Prop}
    (hfails : ∀ state x fault, f state x = .error fault ↔ fails x fault) {xs : List γ} {start : α}
    {fault : ε} :
    xs.foldlM f start = .error fault ↔ ∃ front x back, xs = front ++ x :: back ∧
      (∀ y ∈ front, ∀ other, ¬ fails y other) ∧ fails x fault := by
  have hstep : ∀ state x next, f state x = .ok next → ∀ other, ¬ fails x other := by
    intro state x next hnext other hfault
    rw [(hfails state x other).2 hfault] at hnext
    cases hnext
  constructor
  · intro h
    obtain ⟨front, x, back, middle, rfl, hfront, hx⟩ := exists_of_foldlM_error h
    refine ⟨front, x, back, rfl, ?_, (hfails middle x fault).1 hx⟩
    clear h hx
    induction front generalizing start with
    | nil => simp
    | cons y rest ih =>
      obtain ⟨next, hnext, hrest⟩ := foldlM_cons_eq_ok.1 hfront
      intro z hz
      rcases List.mem_cons.1 hz with rfl | hz
      · exact hstep start z next hnext
      · exact ih hrest z hz
  · rintro ⟨front, x, back, rfl, hfront, hx⟩
    cases hmiddle : front.foldlM f start with
    | ok middle => exact foldlM_append_eq_error hmiddle ((hfails middle x fault).2 hx)
    | error other =>
      obtain ⟨before, y, after, middle, rfl, -, hy⟩ := exists_of_foldlM_error hmiddle
      have hmem : y ∈ before ++ y :: after := List.mem_append_right _ List.mem_cons_self
      exact absurd ((hfails middle y other).1 hy) (hfront y hmem other)

/-- A loop without a state fails at the first item that fails. -/
theorem forM_eq_error_iff {γ : Type _} {f : γ → Except ε PUnit} {xs : List γ} {fault : ε} :
    xs.forM f = .error fault ↔ ∃ front x back, xs = front ++ x :: back ∧
      (∀ y ∈ front, f y = .ok ⟨⟩) ∧ f x = .error fault := by
  induction xs with
  | nil =>
    constructor
    · nofun
    · rintro ⟨front, x, back, h, -⟩
      cases front <;> cases h
  | cons x rest ih =>
    show (f x >>= fun _ => rest.forM f) = .error fault ↔ _
    rw [bind_eq_error, ih]
    constructor
    · rintro (hx | ⟨⟨⟩, hx, front, y, back, rfl, hfront, hy⟩)
      · exact ⟨[], x, rest, rfl, by simp, hx⟩
      · refine ⟨x :: front, y, back, rfl, fun z hz => ?_, hy⟩
        rcases List.mem_cons.1 hz with rfl | hz
        · exact hx
        · exact hfront z hz
    · rintro ⟨front, y, back, hsplit, hfront, hy⟩
      cases front with
      | nil =>
        cases hsplit
        exact Or.inl hy
      | cons z front =>
        cases hsplit
        refine Or.inr ⟨⟨⟩, hfront _ List.mem_cons_self, front, y, back, rfl, ?_, hy⟩
        exact fun w hw => hfront w (List.mem_cons_of_mem _ hw)

/-- A loop without a state succeeds if every item does. -/
theorem forM_eq_ok_iff {γ : Type _} {f : γ → Except ε PUnit} {xs : List γ} :
    xs.forM f = .ok ⟨⟩ ↔ ∀ x ∈ xs, f x = .ok ⟨⟩ := by
  induction xs with
  | nil => exact ⟨fun _ => by simp, fun _ => rfl⟩
  | cons x rest ih =>
    show (f x >>= fun _ => rest.forM f) = .ok ⟨⟩ ↔ _
    rw [bind_eq_ok, List.forall_mem_cons, ← ih]
    constructor
    · rintro ⟨⟨⟩, hx, hrest⟩
      exact ⟨hx, hrest⟩
    · rintro ⟨hx, hrest⟩
      exact ⟨⟨⟩, hx, hrest⟩

end SampleTypes.Loops
