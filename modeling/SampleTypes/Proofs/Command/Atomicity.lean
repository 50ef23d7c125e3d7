import SampleTypes.Proofs.Command.Building

/-!
# What an error leaves behind

A command that ends with an error should leave the files as they were. That holds of a sequence
whose first steps touch no file and whose last ones never end with an error, and two of the
commands are of this kind: they read, and write once. A build writes between its readings, so when
a model is refused the models in front of it have been written already.

## Main results

* `Action.Quiet.bind_atomic`: the law of sequences.
* `atomic_synth`, `atomic_scaffold`: the two commands that write once.
* `files_of_error`: the files behind any command that ends with an error.
* `refused_model_leaves_file`: a build that ends with an error and leaves a file.
-/

namespace SampleTypes.Command

open SampleTypes.Command.Action
open Files (FileSystem Path)

namespace Action

section

variable {α β : Type} {a : Action α} {f : α → Action β}

/-- However the action ends, it touches no file. -/
def Quiet (a : Action α) : Prop :=
  ∀ before ended after, a.Ends before ended after → after.files = before.files

/-- If the action ends with an error, it has touched no file. -/
def Atomic (a : Action α) : Prop :=
  ∀ before after, a.Ends before (.error (.exit errorCode)) after → after.files = before.files

/-! ## Sequences -/

theorem Quiet.bind (ha : a.Quiet) (hf : ∀ x, (f x).Quiet) : (a >>= f).Quiet := by
  intro before ended after h
  rcases ends_bind.1 h with ⟨stop, hstop, -⟩ | ⟨x, between, hfirst, hrest⟩
  · exact ha before _ after hstop
  · exact (hf x between ended after hrest).trans (ha before _ between hfirst)

/-- What never ends with an error is atomic. -/
theorem Exits.atomic (h : a.Exits fun code _ => code ≠ errorCode) : a.Atomic :=
  fun before after hends => absurd rfl (h before errorCode after hends)

/-- **Behind a step that touches no file**, the rest decides. -/
theorem Quiet.bind_atomic (ha : a.Quiet) (hf : ∀ x, (f x).Atomic) : (a >>= f).Atomic := by
  intro before after h
  rcases ends_bind.1 h with ⟨stop, hstop, -⟩ | ⟨x, between, hfirst, hrest⟩
  · exact ha before _ after hstop
  · exact (hf x between after hrest).trans (ha before _ between hfirst)

/-! ## Steps -/

theorem quiet_of_ends {ended : Session → Except Stop α} {after : Session → Session}
    (h : ∀ before, a.Ends before (ended before) (after before))
    (hfiles : ∀ before, (after before).files = before.files) : a.Quiet := by
  intro before other last hlast
  rw [((h before).unique hlast).2.symm, hfiles]

theorem quiet_files : files.Quiet :=
  quiet_of_ends ends_files fun _ => rfl

theorem quiet_pure (x : α) : (pure x : Action α).Quiet :=
  quiet_of_ends (ends_pure x) fun _ => rfl

theorem quiet_warn (lead : String) (warnings : List String) : (warn lead warnings).Quiet :=
  quiet_of_ends (ends_warn lead warnings) fun before => Session.files_warned before lead warnings

theorem quiet_fail (message : String) : (fail message : Action α).Quiet :=
  quiet_of_ends (ends_fail message) fun _ => rfl

theorem quiet_expect (result : Except Fault α) : (expect result).Quiet := by
  cases result with
  | ok x => exact quiet_of_ends (ends_expect rfl) fun _ => rfl
  | error cause => exact quiet_of_ends (ends_expect_error rfl) fun _ => rfl

theorem quiet_report (result : Except Fault α) : (report result).Quiet := by
  cases result with
  | ok x => exact quiet_of_ends (ends_report rfl) fun _ => rfl
  | error cause =>
    refine quiet_of_ends (ends_report_error rfl) fun before => ?_
    split
    · rfl
    · rfl

end

end Action

/-! ## Commands that write once -/

section

variable {words : List String}

theorem quiet_configuration (common : Common) : (configuration common).Quiet :=
  quiet_files.bind fun _ => quiet_expect _

theorem quiet_outputForm (settings : Section) : (outputForm settings).Quiet := by
  cases hform : formOf? settings with
  | some form => exact quiet_of_ends (ends_outputForm hform) fun _ => rfl
  | none =>
    rw [outputForm_eq_fail hform]
    exact (quiet_expect _).bind fun _ => quiet_fail _

/-- **The types of one sample are written last.** -/
theorem atomic_synth (common : Common) (request : SynthRequest) :
    (synth common request).Atomic := by
  refine (quiet_configuration common).bind_atomic fun config => ?_
  refine (quiet_outputForm _).bind_atomic fun form => ?_
  refine quiet_files.bind_atomic fun fs => ?_
  refine (quiet_report _).bind_atomic fun plan => ?_
  refine (quiet_warn _ _).bind_atomic fun warned => ?_
  refine (quiet_expect _).bind_atomic fun output => ?_
  refine Exits.atomic ((exits_emit _ _).bind fun _ => exits_settleWarnings _ _ fun _ => ?_)
  decide

/-- **Repositories are written last.** -/
theorem atomic_scaffold (common : Common) (request : ScaffoldRequest) :
    (scaffold common request).Atomic := by
  have hincluded : (includedModels common request).Quiet := by
    unfold includedModels
    split
    · exact (quiet_configuration common).bind fun _ => quiet_files.bind fun _ => quiet_report _
    · exact quiet_pure _
  rw [scaffold_eq]
  refine (quiet_configuration common).bind_atomic fun config => ?_
  refine (quiet_expect _).bind_atomic fun base => ?_
  refine quiet_files.bind_atomic fun fs => ?_
  refine (quiet_expect _).bind_atomic fun found => ?_
  refine (quiet_warn _ _).bind_atomic fun warned => ?_
  refine hincluded.bind_atomic fun declared => ?_
  refine (quiet_expect _).bind_atomic fun source => ?_
  exact Exits.atomic (exits_emit _ _)

/-! ## Builds -/

/-- The files behind a build that ends with an error: none is touched, or a model is refused and
those in front of it are written. -/
theorem files_of_build_error {common : Common} {request : BuildRequest} {before after : Session}
    (h : (build common request).Ends before (.error (.exit errorCode)) after) :
    after.files = before.files ∨
      ∃ job built failing rest cause, request.job? before.files common = some job ∧
        job.models = built ++ failing :: rest ∧ built ≠ [] ∧
        built.foldlM job.write before.files = .ok after.files ∧
        job.output failing = .error cause ∧ cause.isReported = true := by
  cases build_end h with
  | refused hjob hfiles houtcome hstop => exact Or.inl hfiles
  | written hjob hloop houtcome =>
    rcases houtcome with houtcome | houtcome
    · cases houtcome
    · cases houtcome
  | @failed job built rest failing between cause hjob hsplit hbuilt hfailing houtcome hfiles =>
    have hreported := (stopOf_eq_exit.1 (Except.error.inj houtcome).symm).2
    rw [← hfiles hreported] at hbuilt
    by_cases hfirst : built = []
    · subst hfirst
      exact Or.inl (Except.ok.inj hbuilt).symm
    · refine Or.inr ⟨job, built, failing, rest, cause, hjob, hsplit, hfirst, hbuilt, ?_, hreported⟩
      rcases Job.write_eq_error.1 hfailing with houtput | ⟨_, _, -, -, rfl⟩
      · exact houtput
      · cases hreported

/-- **The files behind a command that ends with an error.** Either they are as before, or the
command is a build, it is refused at a model that is not the first one, and the files are those of
the models in front of it, written one after another. -/
theorem files_of_error {fs : FileSystem} (hend : (run fs words).ending = .exit errorCode) :
    (run fs words).files = fs ∨
      ∃ common request job built failing rest cause,
        Request.ofWords words = .ok (.build common request) ∧ request.job? fs common = some job ∧
          job.models = built ++ failing :: rest ∧ built ≠ [] ∧
          built.foldlM job.write fs = .ok (run fs words).files ∧
          job.output failing = .error cause ∧ cause.isReported = true := by
  have hrefused : ∀ refusal, Request.ofWords words = .error refusal → False := by
    intro refusal h
    rw [run, h] at hend
    cases refusal <;> cases hend
  cases hwords : Request.ofWords words with
  | error refusal => exact (hrefused refusal hwords).elim
  | ok request =>
    rw [run_of_request hwords] at hend ⊢
    obtain ⟨after, ⟨-, hcode⟩ | hends⟩ := ending_eq_exit hend
    · cases hcode
    · rw [files_run hends]
      cases request with
      | synth common request => exact Or.inl (atomic_synth common request _ _ hends)
      | scaffold common request => exact Or.inl (atomic_scaffold common request _ _ hends)
      | build common request =>
        refine (files_of_build_error hends).imp_right ?_
        rintro ⟨job, built, failing, rest, cause, h⟩
        exact ⟨common, request, job, built, failing, rest, cause, rfl, h⟩

end

/-- A project that declares two models, of which the second one has a sample that is no object. -/
def halfway : FileSystem :=
  { root := [("ldsynth.toml", .file
      ("[[models]]\nname = \"A\"\njson = '\x7b\"a\":1\x7d'\n" ++
        "[[models]]\nname = \"B\"\njson = '[1]'\n").toUTF8)] }

theorem ending_halfway : (run halfway outlineWords).ending = .exit errorCode :=
  Ending.code?_eq_some.1 (by decide +kernel)

theorem files_of_error_halfway :
    (run halfway outlineWords).ending = .exit errorCode ∧
      ((run halfway outlineWords).files = halfway ∨
        ∃ common request job built failing rest cause,
          Request.ofWords outlineWords = .ok (.build common request) ∧
            request.job? halfway common = some job ∧ job.models = built ++ failing :: rest ∧
            built ≠ [] ∧ built.foldlM job.write halfway = .ok (run halfway outlineWords).files ∧
            job.output failing = .error cause ∧ cause.isReported = true) :=
  ⟨ending_halfway, files_of_error ending_halfway⟩

/-- **A refused model leaves a file.** The build reports that the second sample is no object and
ends with an error, and the file of the first model, which was not there before, is there. -/
theorem refused_model_leaves_file :
    (run halfway outlineWords).ending = .exit errorCode ∧
      (run halfway outlineWords).stderr =
        "error: B: top-level value must be an object, got array\n" ∧
      ¬ halfway.Holds { parts := ["generated", "a.txt"] }
        "type A \x7b\n  A: number  // wire-name: a\n\x7d\n" ∧
      (run halfway outlineWords).files.Holds { parts := ["generated", "a.txt"] }
        "type A \x7b\n  A: number  // wire-name: a\n\x7d\n" := by
  refine ⟨ending_halfway, ?_, ?_, ?_⟩
  · decide +kernel
  · decide +kernel
  · decide +kernel

end SampleTypes.Command
