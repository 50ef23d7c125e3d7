import SampleTypes.Command.Run

/-!
# How actions end

An action takes a session to an outcome and another session. What a command does follows from what
its steps do, one behind the other: a step that comes to its end hands its answer on, and one that
stops is the end of all.

## Main results

* `ends_bind`: one step and the rest.
* `faults_expect_bind`, `faults_report_bind`: a sequence ends with a fault that its first step
  lets out, or with one of the rest.
* `ending_eq_fault`, `ending_eq_exit`: the report of an action by how it ends.
-/

namespace SampleTypes.Command

open Files (FileSystem Path)

namespace Session

/-- The session with more on standard output. -/
def printing (session : Session) (s : String) : Session :=
  { session with stdout := session.stdout ++ printed s }

/-- The session with one more line on standard error. -/
def complaining (session : Session) (line : String) : Session :=
  { session with stderr := session.stderr ++ printed (line ++ "\n") }

/-- The session with warnings on standard error. -/
def warned (session : Session) (lead : String) (warnings : List String) : Session :=
  warnings.foldl
    (fun session warning => session.complaining ("warning: " ++ lead ++ warning)) session

/-- The session with other files. -/
def holding (session : Session) (files : FileSystem) : Session :=
  { session with files := files }

@[simp] theorem files_printing (session : Session) (s : String) :
    (session.printing s).files = session.files := rfl

@[simp] theorem files_complaining (session : Session) (line : String) :
    (session.complaining line).files = session.files := rfl

@[simp] theorem files_holding (session : Session) (files : FileSystem) :
    (session.holding files).files = files := rfl

@[simp] theorem files_warned (session : Session) (lead : String) (warnings : List String) :
    (session.warned lead warnings).files = session.files := by
  unfold warned
  induction warnings generalizing session with
  | nil => rfl
  | cons warning rest ih => exact ih (session.complaining ("warning: " ++ lead ++ warning))

end Session

/-- The exit code of a command that has ended with one. -/
def Ending.code? : Ending → Option Nat
  | .exit code => some code
  | _ => none

theorem Ending.code?_eq_some {ending : Ending} {code : Nat} :
    ending.code? = some code ↔ ending = .exit code := by
  cases ending <;> simp [Ending.code?]

theorem run_of_request {fs : FileSystem} {words : List String} {request : Request}
    (h : Request.ofWords words = .ok request) : run fs words = request.action.run fs := by
  rw [run, h]

namespace Action

section

variable {α β : Type} {a : Action α} {f : α → Action β} {before between after last : Session}
  {outcome : Except Stop β} {ended : Except Stop α} {stop : Stop} {x : α} {cause other : Fault}
  {code : Nat}
  {result : Except Fault α} {s lead line message : String} {warnings : List String}
  {target : Option Path} {p : Path}

/-- An action that starts in one session ends with an outcome in another one. -/
def Ends (a : Action α) (before : Session) (ended : Except Stop α) (after : Session) : Prop :=
  (StateT.run (ExceptT.run a) before : Except Stop α × Session) = (ended, after)

theorem exists_ends (a : Action α) (before : Session) : ∃ ended after, a.Ends before ended after :=
  ⟨_, _, rfl⟩

/-- An action ends in one way. -/
theorem Ends.unique {ended' : Except Stop α} (h : a.Ends before ended after)
    (h' : a.Ends before ended' last) : ended = ended' ∧ after = last :=
  Prod.mk.inj (h.symm.trans h')

/-! ## One step and the rest -/

theorem run_bind (a : Action α) (f : α → Action β) (before : Session) :
    (StateT.run (ExceptT.run (a >>= f)) before : Except Stop β × Session) =
      match (StateT.run (ExceptT.run a) before : Except Stop α × Session) with
      | (.ok x, between) => StateT.run (ExceptT.run (f x)) between
      | (.error stop, between) => (.error stop, between) := by
  simp only [ExceptT.run_bind, StateT.run_bind]
  rcases hfirst : StateT.run (ExceptT.run a) before with ⟨_ | _, between⟩ <;> rfl

/-- Behind a step that comes to its end the rest goes on. -/
theorem Ends.bind (h : a.Ends before (.ok x) between) :
    (a >>= f).Ends before outcome after ↔ (f x).Ends between outcome after := by
  rw [Ends, run_bind, h]
  exact Iff.rfl

/-- A step that stops is the end of all. -/
theorem Ends.bind_stop (h : a.Ends before (.error stop) between) :
    (a >>= f).Ends before outcome after ↔ outcome = .error stop ∧ after = between := by
  rw [Ends, run_bind, h, Prod.mk.injEq, eq_comm, @eq_comm _ between]

/-- **One step and the rest.** -/
theorem ends_bind : (a >>= f).Ends before outcome after ↔
    (∃ stop, a.Ends before (.error stop) after ∧ outcome = .error stop) ∨
      ∃ x between, a.Ends before (.ok x) between ∧ (f x).Ends between outcome after := by
  constructor
  · intro h
    obtain ⟨ended, between, hfirst⟩ := exists_ends a before
    cases ended with
    | error stop =>
      obtain ⟨rfl, rfl⟩ := hfirst.bind_stop.1 h
      exact Or.inl ⟨stop, hfirst, rfl⟩
    | ok x => exact Or.inr ⟨x, between, hfirst, hfirst.bind.1 h⟩
  · rintro (⟨stop, hfirst, rfl⟩ | ⟨x, between, hfirst, h⟩)
    · exact hfirst.bind_stop.2 ⟨rfl, rfl⟩
    · exact hfirst.bind.2 h

/-! ## Steps that come to their end -/

theorem ends_pure (x : α) (before : Session) : (pure x : Action α).Ends before (.ok x) before := rfl

theorem ends_files (before : Session) : files.Ends before (.ok before.files) before := rfl

theorem ends_print (s : String) (before : Session) :
    (print s).Ends before (.ok ()) (before.printing s) := rfl

theorem ends_complain (line : String) (before : Session) :
    (complain line).Ends before (.ok ()) (before.complaining line) := rfl

theorem ends_expect (h : result = .ok x) (before : Session) :
    (expect result).Ends before (.ok x) before := by
  rw [h]
  rfl

theorem ends_report (h : result = .ok x) (before : Session) :
    (report result).Ends before (.ok x) before := by
  rw [h]
  rfl

theorem ends_warn (lead : String) (warnings : List String) (before : Session) :
    (warn lead warnings).Ends before (.ok warnings.length) (before.warned lead warnings) := by
  have hlines : (warnings.forM fun warning => complain ("warning: " ++ lead ++ warning)).Ends before
      (.ok ()) (before.warned lead warnings) := by
    induction warnings generalizing before with
    | nil => rfl
    | cons warning rest ih =>
      exact (ends_complain ("warning: " ++ lead ++ warning) before).bind.2 (ih _)
  exact hlines.bind.2 rfl

/-! ## Steps that stop -/

theorem ends_fail (message : String) (before : Session) :
    (fail message : Action α).Ends before (.error (.exit errorCode))
      (before.complaining ("error: " ++ message)) := rfl

theorem ends_expect_error (h : result = .error cause) (before : Session) :
    (expect result).Ends before (.error (.fault cause)) before := by
  rw [h]
  rfl

/-- How a command stops at a fault that it reports if it is one of the input. -/
def stopOf (cause : Fault) : Stop :=
  if cause.isReported then .exit errorCode else .fault cause

/-- A fault that is reported is told, and any other one leaves the command. -/
theorem ends_report_error (h : result = .error cause) (before : Session) :
    (report result).Ends before (.error (stopOf cause))
      (if cause.isReported then before.complaining ("error: " ++ cause.message) else before) := by
  rw [h]
  cases hreported : cause.isReported <;> simp only [report, stopOf, hreported] <;> rfl

theorem stopOf_eq_fault :
    stopOf cause = .fault other ↔ cause = other ∧ cause.isReported = false := by
  unfold stopOf
  cases cause.isReported <;> simp

theorem stopOf_eq_exit :
    stopOf cause = .exit code ↔ code = errorCode ∧ cause.isReported = true := by
  unfold stopOf
  cases cause.isReported <;> simp [eq_comm]

/-! ## Refusals -/

/-- An action stops with an error or at a fault, and no file has been touched. -/
def Refuses (a : Action α) (before : Session) : Prop :=
  ∃ stop after, a.Ends before (.error stop) after ∧ after.files = before.files ∧
    ∀ code, stop = .exit code → code = errorCode

theorem Refuses.bind (h : a.Refuses before) : (a >>= f).Refuses before := by
  obtain ⟨stop, after, hends, hfiles, hstop⟩ := h
  exact ⟨stop, after, hends.bind_stop.2 ⟨rfl, rfl⟩, hfiles, hstop⟩

theorem Ends.refuses_bind (h : a.Ends before (.ok x) between)
    (hfiles : between.files = before.files) (hrest : (f x).Refuses between) :
    (a >>= f).Refuses before := by
  obtain ⟨stop, after, hends, hrest, hstop⟩ := hrest
  exact ⟨stop, after, h.bind.2 hends, hrest.trans hfiles, hstop⟩

theorem refuses_fail (message : String) (before : Session) :
    (fail message : Action α).Refuses before := by
  refine ⟨_, _, ends_fail message before, rfl, fun code hstop => ?_⟩
  cases hstop
  rfl

theorem refuses_expect (h : result = .error cause) (before : Session) :
    (expect result).Refuses before :=
  ⟨_, _, ends_expect_error h before, rfl, fun _ hstop => Stop.noConfusion hstop⟩

theorem refuses_report (h : result = .error cause) (before : Session) :
    (report result).Refuses before := by
  refine ⟨_, _, ends_report_error h before, ?_, fun code hstop => (stopOf_eq_exit.1 hstop).1⟩
  split
  · rfl
  · rfl

/-! ## Exit codes -/

/-- Wherever the action stops with an exit code, `Q` holds of the code and the session behind it. -/
def Exits (a : Action α) (Q : Nat → Session → Prop) : Prop :=
  ∀ before code after, a.Ends before (.error (.exit code)) after → Q code after

theorem Exits.bind {Q : Nat → Session → Prop} (ha : a.Exits Q) (hf : ∀ x, (f x).Exits Q) :
    (a >>= f).Exits Q := by
  intro before code after h
  rcases ends_bind.1 h with ⟨stop, hstop, heq⟩ | ⟨x, between, -, hrest⟩
  · cases heq
    exact ha before code after hstop
  · exact hf x between code after hrest

theorem exits_of_ends {Q : Nat → Session → Prop} (h : ∀ before, ∃ ended after,
    a.Ends before ended after ∧ ∀ code, ended = .error (.exit code) → Q code after) :
    a.Exits Q := by
  intro before code after hafter
  obtain ⟨ended, last, hends, hcode⟩ := h before
  obtain ⟨heq, hlast⟩ := hends.unique hafter
  exact hlast ▸ hcode code heq

section

variable {Q : Nat → Session → Prop}

theorem exits_pure (x : α) : (pure x : Action α).Exits Q :=
  exits_of_ends fun before => ⟨_, _, ends_pure x before, nofun⟩

theorem exits_files : files.Exits Q :=
  exits_of_ends fun before => ⟨_, _, ends_files before, nofun⟩

theorem exits_print (s : String) : (print s).Exits Q :=
  exits_of_ends fun before => ⟨_, _, ends_print s before, nofun⟩

theorem exits_warn (lead : String) (warnings : List String) : (warn lead warnings).Exits Q :=
  exits_of_ends fun before => ⟨_, _, ends_warn lead warnings before, nofun⟩

theorem exits_expect (result : Except Fault α) : (expect result).Exits Q := by
  refine exits_of_ends fun before => ?_
  cases result with
  | ok x => exact ⟨_, _, ends_expect rfl before, nofun⟩
  | error cause => exact ⟨_, _, ends_expect_error rfl before, nofun⟩

theorem exits_fail (message : String)
    (h : ∀ before : Session, Q errorCode (before.complaining ("error: " ++ message))) :
    (fail message : Action α).Exits Q := by
  refine exits_of_ends fun before => ⟨_, _, ends_fail message before, fun code heq => ?_⟩
  cases heq
  exact h before

/-- A report ends with an error only if it tells it. -/
theorem exits_report (result : Except Fault α)
    (h : ∀ (before : Session) (cause : Fault),
      Q errorCode (before.complaining ("error: " ++ cause.message))) :
    (report result).Exits Q := by
  refine exits_of_ends fun before => ?_
  cases result with
  | ok x => exact ⟨_, _, ends_report rfl before, nofun⟩
  | error cause =>
    refine ⟨_, _, ends_report_error rfl before, fun code heq => ?_⟩
    obtain ⟨rfl, hreported⟩ := stopOf_eq_exit.1 (Except.error.inj heq)
    rw [if_pos hreported]
    exact h before cause

end

/-! ## Faults that leave -/

/-- An action ends with a fault. -/
def Faults (a : Action α) (before : Session) (cause : Fault) : Prop :=
  ∃ after, a.Ends before (.error (.fault cause)) after

theorem Ends.not_faults (h : a.Ends before (.ok x) after) : ¬ a.Faults before cause := by
  rintro ⟨last, hlast⟩
  cases (h.unique hlast).1

theorem Ends.faults_bind (h : a.Ends before (.ok x) between) :
    (a >>= f).Faults before cause ↔ (f x).Faults between cause :=
  exists_congr fun _ => h.bind

theorem Ends.faults_bind_stop (h : a.Ends before (.error stop) between) :
    (a >>= f).Faults before cause ↔ stop = .fault cause := by
  refine (exists_congr fun _ => h.bind_stop).trans ?_
  simp only [Except.error.injEq, exists_and_left, exists_eq, and_true]
  exact eq_comm

/-- If the rest never ends with a fault, the first step decides. -/
theorem faults_bind_of_not (h : ∀ x between, ¬ (f x).Faults between cause) :
    (a >>= f).Faults before cause ↔ a.Faults before cause := by
  constructor
  · rintro ⟨after, hends⟩
    rcases ends_bind.1 hends with ⟨stop, hstop, heq⟩ | ⟨x, between, -, hrest⟩
    · cases heq
      exact ⟨after, hstop⟩
    · exact absurd ⟨after, hrest⟩ (h x between)
  · rintro ⟨after, hends⟩
    exact ⟨after, hends.bind_stop.2 ⟨rfl, rfl⟩⟩

theorem faults_files_bind {f : FileSystem → Action β} :
    (files >>= f).Faults before cause ↔ (f before.files).Faults before cause :=
  (ends_files before).faults_bind

theorem faults_warn_bind {f : Nat → Action β} :
    (warn lead warnings >>= f).Faults before cause ↔
      (f warnings.length).Faults (before.warned lead warnings) cause :=
  (ends_warn lead warnings before).faults_bind

/-- A step whose faults leave the command. -/
theorem faults_expect_bind : (expect result >>= f).Faults before cause ↔
    result = .error cause ∨ ∃ x, result = .ok x ∧ (f x).Faults before cause := by
  cases result with
  | ok x => simp [(ends_expect rfl before).faults_bind]
  | error other => simp [(ends_expect_error rfl before).faults_bind_stop]

/-- A step whose reported faults are told. -/
theorem faults_report_bind : (report result >>= f).Faults before cause ↔
    result = .error cause ∧ cause.isReported = false ∨
      ∃ x, result = .ok x ∧ (f x).Faults before cause := by
  cases result with
  | ok x => simp [(ends_report rfl before).faults_bind]
  | error other =>
    rw [(ends_report_error rfl before).faults_bind_stop, stopOf_eq_fault]
    simp only [Except.error.injEq, reduceCtorEq, false_and, exists_false, or_false]
    constructor
    · rintro ⟨rfl, hunreported⟩
      exact ⟨rfl, hunreported⟩
    · rintro ⟨rfl, hunreported⟩
      exact ⟨rfl, hunreported⟩

/-! ## Reports -/

theorem files_run {a : Action Unit} {fs : FileSystem} {ended : Except Stop Unit}
    (h : a.Ends { files := fs } ended after) : (a.run fs).files = after.files := by
  rw [Action.run, h]

theorem stderr_run {a : Action Unit} {fs : FileSystem} {ended : Except Stop Unit}
    (h : a.Ends { files := fs } ended after) : (a.run fs).stderr = String.ofList after.stderr := by
  rw [Action.run, h]

/-- A report of a fault is one of an action that ends with it. -/
theorem ending_eq_fault {a : Action Unit} {fs : FileSystem} :
    (a.run fs).ending = .fault cause ↔ a.Faults { files := fs } cause := by
  obtain ⟨ended, after, h⟩ := exists_ends a { files := fs }
  have hfaults : a.Faults { files := fs } cause ↔ ended = .error (.fault cause) := by
    constructor
    · rintro ⟨last, hlast⟩
      exact (h.unique hlast).1
    · rintro rfl
      exact ⟨after, h⟩
  rw [hfaults, Action.run, h]
  rcases ended with (code | other) | ⟨⟩ <;> simp

/-- A report of an exit code is one of an action that comes to its end, or stops with the code. -/
theorem ending_eq_exit {a : Action Unit} {fs : FileSystem}
    (h : (a.run fs).ending = .exit code) :
    ∃ after, a.Ends { files := fs } (.ok ()) after ∧ code = 0 ∨
      a.Ends { files := fs } (.error (.exit code)) after := by
  obtain ⟨ended, after, hends⟩ := exists_ends a { files := fs }
  rw [Action.run, hends] at h
  refine ⟨after, ?_⟩
  rcases ended with (code | other) | ⟨⟩
  · cases h
    exact Or.inr hends
  · cases h
  · cases h
    exact Or.inl ⟨hends, rfl⟩

end

end Action

end SampleTypes.Command
