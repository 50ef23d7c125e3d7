import SampleTypes.Proofs.Command.Stages
import SampleTypes.Proofs.Command.Targets
import SampleTypes.Proofs.Files.Writing

/-!
# Building declared models

A build first settles what there is to do, without touching a file, and then writes the models one
after another. As far as files go the second part is a loop of one step that may fail: make the
plan, write it down, write the file. So the files behind a build are those of the loop, and since
every step writes under one name of one directory, the last model with a name is the one whose
text stays.

## Main results

* `ends_buildModels_ok`, `ends_buildModels_error`: building as a loop on files.
* `build_end`: the ways in which a build ends.
* `Job.holds_last`: the files behind the loop.
* `build_keeps_last_output`: the files behind a build that does not end with an error.
* `namesakes_share_a_file`: two models of which only one is left.
-/

namespace SampleTypes.Command

open SampleTypes.Command.Action
open Files (FileSystem Path)

/-- What a build has settled before it writes anything. -/
structure Job where
  /-- The key that makes types of nested objects. -/
  discriminator : String
  form : OutputForm
  /-- The directory for the generated files. -/
  directory : Path
  models : List DeclaredModel
  deriving DecidableEq, Repr

namespace Job

/-- The text that a job writes for a model. -/
def output (job : Job) (m : DeclaredModel) : Except Fault String :=
  (m.plan job.discriminator).bind (Plan.render job.form)

/-- The file that a job writes for a model. -/
def target (job : Job) (m : DeclaredModel) : Path :=
  targetOf job.directory job.form m

/-- Writes the file of a model. -/
def write (job : Job) (fs : FileSystem) (m : DeclaredModel) : Except Fault FileSystem :=
  (job.output m).bind fun output =>
    match fs.writeText (job.target m) output with
    | (written, .ok ()) => .ok written
    | (_, .error refusal) => .error (.file refusal)

end Job

/-- The job that a request leads to, unless something in front of it fails. -/
def BuildRequest.job? (request : BuildRequest) (fs : FileSystem) (common : Common) :
    Option Job := do
  let config ← (Configuration.load fs common.root common.config).toOption
  let form ← formOf? (request.settings config)
  let directory ← (outputDirectory common.root (request.settings config)).toOption
  let models ← (DeclaredModel.ofConfiguration fs common.root config).toOption
  return { discriminator := discriminatorOf config, form := form, directory := directory,
           models := models }

section

variable {job : Job} {m : DeclaredModel} {models : List DeclaredModel} {before after : Session}
  {fs written : FileSystem} {cause : Fault} {output : String} {outcome : Except Stop Unit}
  {common : Common} {request : BuildRequest} {code : Nat}

/-! ## One model -/

theorem Job.write_eq_ok : job.write fs m = .ok written ↔
    ∃ output, job.output m = .ok output ∧
      fs.writeText (job.target m) output = (written, .ok ()) := by
  unfold Job.write
  cases job.output m with
  | error cause => simp [Except.bind]
  | ok output =>
    rcases hwrite : fs.writeText (job.target m) output with ⟨files, refusal | ⟨⟩⟩
    · simp [Except.bind, hwrite]
    · simp [Except.bind, hwrite]

theorem Job.write_eq_error : job.write fs m = .error cause ↔
    job.output m = .error cause ∨
      ∃ output refusal, job.output m = .ok output ∧
        (fs.writeText (job.target m) output).2 = .error refusal ∧ cause = .file refusal := by
  unfold Job.write
  cases job.output m with
  | error other => simp [Except.bind]
  | ok output =>
    rcases hwrite : fs.writeText (job.target m) output with ⟨files, refusal | ⟨⟩⟩
    · simp [Except.bind, hwrite, eq_comm]
    · simp [Except.bind, hwrite]

/-- A plan that cannot be made is all that keeps a job from having a text. -/
theorem Job.output_eq_error : job.output m = .error cause ↔
    m.plan job.discriminator = .error cause := by
  unfold Job.output
  cases m.plan job.discriminator with
  | error other => simp [Except.bind]
  | ok plan =>
    obtain ⟨output, houtput⟩ := plan.exists_render job.form
    simp [Except.bind, houtput]

theorem Job.output_eq_ok : job.output m = .ok output ↔
    ∃ plan, m.plan job.discriminator = .ok plan ∧ plan.render job.form = .ok output := by
  unfold Job.output
  cases m.plan job.discriminator with
  | error other => simp [Except.bind]
  | ok plan => simp [Except.bind]



/-! ## The loop on files -/

/-- The target of a model is a file. -/
theorem fileOf?_target (job : Job) (m : DeclaredModel) :
    fileOf? (some (job.target m)) = some (job.target m) :=
  Option.filter_eq_some_iff.2 ⟨rfl, decide_eq_true text_targetOf_ne⟩

/-- What a build does with a model, once it has a plan that can be written down: it warns, and
goes on with the file. -/
theorem ends_buildModel_iff {plan : Plan} {ended : Except Stop Nat}
    (hplan : m.plan job.discriminator = .ok plan) (hrender : plan.render job.form = .ok output) :
    (buildModel job.discriminator job.form job.directory m).Ends before ended after ↔
      (emit (some (job.target m)) output >>= fun _ =>
        print ("Wrote " ++ m.name ++ ": " ++ (job.target m).text ++ "\n") >>= fun _ =>
          pure plan.warnings.length).Ends
        (before.warned (m.name ++ ": ") plan.warnings) ended after :=
  (ends_report hplan before).bind.trans
    ((ends_warn (m.name ++ ": ") plan.warnings before).bind.trans (ends_expect hrender _).bind)

/-- Behind a model whose file is written the files are those of the step. -/
theorem ends_buildModel_ok (h : job.write before.files m = .ok written) :
    ∃ warned after, after.files = written ∧
      (buildModel job.discriminator job.form job.directory m).Ends before (.ok warned) after := by
  obtain ⟨output, houtput, hwrite⟩ := Job.write_eq_ok.1 h
  obtain ⟨plan, hplan, hrender⟩ := Job.output_eq_ok.1 houtput
  rw [← Session.files_warned before (m.name ++ ": ") plan.warnings] at hwrite
  have hemit := ends_emit_ok (fileOf?_target job m) hwrite
  have hprint := ends_print ("Wrote " ++ m.name ++ ": " ++ (job.target m).text ++ "\n")
    ((before.warned (m.name ++ ": ") plan.warnings).holding written)
  exact ⟨plan.warnings.length, _, rfl,
    (ends_buildModel_iff hplan hrender).2 (hemit.bind.2 (hprint.bind.2 rfl))⟩

/-- At a model whose file is not written a build stops as the step does, and if the step is reported
without having touched a file. -/
theorem ends_buildModel_error (h : job.write before.files m = .error cause) :
    ∃ after, (buildModel job.discriminator job.form job.directory m).Ends before
        (.error (stopOf cause)) after ∧ (cause.isReported = true → after.files = before.files) := by
  rcases Job.write_eq_error.1 h with houtput | ⟨output, refusal, houtput, hrefused, rfl⟩
  · have hreport := ends_report_error (Job.output_eq_error.1 houtput) before
    refine ⟨_, hreport.bind_stop.2 ⟨rfl, rfl⟩, fun hreported => ?_⟩
    rw [if_pos hreported, Session.files_complaining]
  · obtain ⟨plan, hplan, hrender⟩ := Job.output_eq_ok.1 houtput
    rw [← Session.files_warned before (m.name ++ ": ") plan.warnings] at hrefused
    have hemit := ends_emit_error (fileOf?_target job m) hrefused
    have hends := (ends_buildModel_iff hplan hrender).2 (hemit.bind_stop.2 ⟨rfl, rfl⟩)
    exact ⟨_, hends, fun hreported => absurd hreported Bool.false_ne_true⟩

/-- **Building as a loop on files**: behind models that are all written the files are those of the
loop. -/
theorem ends_buildModels_ok (h : models.foldlM job.write before.files = .ok written) :
    ∃ warned after, after.files = written ∧
      (buildModels job.discriminator job.form job.directory models).Ends before (.ok warned)
        after := by
  induction models generalizing before with
  | nil =>
    cases h
    exact ⟨0, before, rfl, rfl⟩
  | cons m rest ih =>
    obtain ⟨next, hnext, hrest⟩ := Loops.foldlM_cons_eq_ok.1 h
    obtain ⟨warned, between, rfl, hfirst⟩ := ends_buildModel_ok hnext
    obtain ⟨others, after, hfiles, hothers⟩ := ih hrest
    exact ⟨warned + others, after, hfiles, hfirst.bind.2 (hothers.bind.2 rfl)⟩

/-- A build stops as its loop does, at the first model that is not written. If this is reported, the
files are those behind the models in front. -/
theorem ends_buildModels_error (h : models.foldlM job.write before.files = .error cause) :
    ∃ built failing rest between after, models = built ++ failing :: rest ∧
      built.foldlM job.write before.files = .ok between ∧ job.write between failing = .error cause ∧
      (buildModels job.discriminator job.form job.directory models).Ends before
        (.error (stopOf cause)) after ∧ (cause.isReported = true → after.files = between) := by
  induction models generalizing before with
  | nil => cases h
  | cons m rest ih =>
    rw [List.foldlM_cons] at h
    rcases Loops.bind_eq_error.1 h with hfirst | ⟨next, hnext, h⟩
    · obtain ⟨after, hends, hfiles⟩ := ends_buildModel_error hfirst
      exact ⟨[], m, rest, before.files, after, rfl, rfl, hfirst,
        hends.bind_stop.2 ⟨rfl, rfl⟩, hfiles⟩
    · obtain ⟨warned, session, rfl, hfirst⟩ := ends_buildModel_ok hnext
      obtain ⟨built, failing, others, between, after, rfl, hbuilt, hfailing, hends, hfiles⟩ := ih h
      exact ⟨m :: built, failing, others, between, after, rfl,
        Loops.foldlM_cons_eq_ok.2 ⟨_, hnext, hbuilt⟩, hfailing,
        hfirst.bind.2 (hends.bind_stop.2 ⟨rfl, rfl⟩), hfiles⟩

/-! ## Jobs -/

theorem BuildRequest.job?_eq_some : request.job? fs common = some job ↔
    ∃ config, Configuration.load fs common.root common.config = .ok config ∧
      formOf? (request.settings config) = some job.form ∧
      outputDirectory common.root (request.settings config) = .ok job.directory ∧
      DeclaredModel.ofConfiguration fs common.root config = .ok job.models ∧
      job.discriminator = discriminatorOf config := by
  obtain ⟨discriminator, form, directory, models⟩ := job
  unfold BuildRequest.job?
  simp only [bind, Option.bind_eq_some_iff, Loops.toOption_eq_some, pure, Option.some.injEq,
    Job.mk.injEq]
  constructor
  · rintro ⟨config, hload, _, hform, _, hdirectory, _, hmodels, rfl, rfl, rfl, rfl⟩
    exact ⟨config, hload, hform, hdirectory, hmodels, rfl⟩
  · rintro ⟨config, hload, hform, hdirectory, hmodels, rfl⟩
    exact ⟨config, hload, form, hform, directory, hdirectory, models, hmodels, rfl, rfl, rfl, rfl⟩

/-- A build without a job refuses. -/
theorem build_of_job?_eq_none (h : request.job? before.files common = none) :
    (build common request).Refuses before := by
  unfold build
  cases hload : Configuration.load before.files common.root common.config with
  | error cause => exact (refuses_configuration hload).bind
  | ok config =>
    refine (ends_configuration hload).refuses_bind rfl ?_
    cases hform : formOf? (request.settings config) with
    | none => exact (refuses_outputForm hform before).bind
    | some form =>
      refine (ends_outputForm hform before).refuses_bind rfl ?_
      cases hdirectory : outputDirectory common.root (request.settings config) with
      | error cause => exact (refuses_expect hdirectory before).bind
      | ok directory =>
        refine (ends_expect hdirectory before).refuses_bind rfl ?_
        refine (ends_files before).refuses_bind rfl ?_
        cases hmodels : DeclaredModel.ofConfiguration before.files common.root config with
        | error cause => exact (refuses_report rfl before).bind
        | ok models =>
          have hjob : request.job? before.files common =
              some ⟨discriminatorOf config, form, directory, models⟩ :=
            BuildRequest.job?_eq_some.2 ⟨config, hload, hform, hdirectory, hmodels, rfl⟩
          rw [h] at hjob
          cases hjob

/-- What a build does with a job. -/
theorem build_of_job?_eq_some (h : request.job? before.files common = some job) :
    ∃ settings, ∀ outcome after, (build common request).Ends before outcome after ↔
      (if job.models.isEmpty then print "No models declared; nothing to build.\n"
        else buildModels job.discriminator job.form job.directory job.models >>=
          settleWarnings settings).Ends before outcome after := by
  obtain ⟨config, hload, hform, hdirectory, hmodels, hdiscriminator⟩ :=
    BuildRequest.job?_eq_some.1 h
  refine ⟨request.settings config, fun outcome after => ?_⟩
  rw [hdiscriminator]
  exact (ends_configuration hload).bind.trans ((ends_outputForm hform before).bind.trans
    ((ends_expect hdirectory before).bind.trans ((ends_files before).bind.trans
      (ends_report hmodels before).bind)))

/-- **A build with a job whose models are all written**: the files are those behind the loop, and
only warnings may be fatal. -/
theorem ends_build_ok (h : request.job? before.files common = some job)
    (hwritten : job.models.foldlM job.write before.files = .ok written) :
    ∃ outcome after, (build common request).Ends before outcome after ∧ after.files = written ∧
      (outcome = .ok () ∨ outcome = .error (.exit warningsCode)) := by
  obtain ⟨settings, hbuild⟩ := build_of_job?_eq_some h
  by_cases hempty : job.models = []
  · rw [hempty] at hwritten
    cases hwritten
    have hends : (build common request).Ends before (.ok ())
        (before.printing "No models declared; nothing to build.\n") := by
      refine (hbuild _ _).2 ?_
      rw [if_pos (List.isEmpty_iff.2 hempty)]
      exact ends_print _ before
    exact ⟨_, _, hends, Session.files_printing before _, Or.inl rfl⟩
  · obtain ⟨warned, after, hfiles, hmodels⟩ := ends_buildModels_ok hwritten
    have hloop : ∀ {outcome : Except Stop Unit},
        (settleWarnings settings warned).Ends after outcome after →
          (build common request).Ends before outcome after := by
      intro outcome hsettle
      refine (hbuild _ _).2 ?_
      rw [if_neg (by simpa using hempty)]
      exact hmodels.bind.2 hsettle
    rcases settleWarnings_ends settings warned after with hsettle | hsettle
    · exact ⟨_, after, hloop hsettle, hfiles, Or.inl rfl⟩
    · exact ⟨_, after, hloop hsettle, hfiles, Or.inr rfl⟩

/-- **A build with a job of which one model is not written** stops there, as the step does. If
this is reported, the files are those behind the models in front. -/
theorem ends_build_error (h : request.job? before.files common = some job)
    (hfailed : job.models.foldlM job.write before.files = .error cause) :
    ∃ built failing rest between after, job.models = built ++ failing :: rest ∧
      built.foldlM job.write before.files = .ok between ∧ job.write between failing = .error cause ∧
      (build common request).Ends before (.error (stopOf cause)) after ∧
      (cause.isReported = true → after.files = between) := by
  obtain ⟨settings, hbuild⟩ := build_of_job?_eq_some h
  obtain ⟨built, failing, rest, between, after, hsplit, hbuilt, hfailing, hends, hfiles⟩ :=
    ends_buildModels_error hfailed
  refine ⟨built, failing, rest, between, after, hsplit, hbuilt, hfailing, (hbuild _ _).2 ?_, hfiles⟩
  rw [if_neg (by simp [hsplit])]
  exact hends.bind_stop.2 ⟨rfl, rfl⟩

/-- The ways in which a build ends. -/
inductive BuildEnd (request : BuildRequest) (common : Common) (before after : Session)
    (outcome : Except Stop Unit) : Prop where
  /-- There is no job, and no file is touched. -/
  | refused {stop : Stop} (hjob : request.job? before.files common = none)
      (hfiles : after.files = before.files) (houtcome : outcome = .error stop)
      (hstop : ∀ code, stop = .exit code → code = errorCode) :
      BuildEnd request common before after outcome
  /-- Every model is written. -/
  | written {job : Job} (hjob : request.job? before.files common = some job)
      (hloop : job.models.foldlM job.write before.files = .ok after.files)
      (houtcome : outcome = .ok () ∨ outcome = .error (.exit warningsCode)) :
      BuildEnd request common before after outcome
  /-- The models in front of one are written, and this one is not. -/
  | failed {job : Job} {built rest : List DeclaredModel} {failing : DeclaredModel}
      {between : FileSystem} {cause : Fault} (hjob : request.job? before.files common = some job)
      (hsplit : job.models = built ++ failing :: rest)
      (hbuilt : built.foldlM job.write before.files = .ok between)
      (hfailing : job.write between failing = .error cause)
      (houtcome : outcome = .error (stopOf cause))
      (hfiles : cause.isReported = true → after.files = between) :
      BuildEnd request common before after outcome

/-- **Every build ends in one of these ways.** -/
theorem build_end (h : (build common request).Ends before outcome after) :
    BuildEnd request common before after outcome := by
  cases hjob : request.job? before.files common with
  | none =>
    obtain ⟨stop, last, hends, hfiles, hstop⟩ := build_of_job?_eq_none hjob
    obtain ⟨rfl, rfl⟩ := h.unique hends
    exact .refused hjob hfiles rfl hstop
  | some job =>
    cases hloop : job.models.foldlM job.write before.files with
    | ok files =>
      obtain ⟨ended, last, hends, rfl, houtcome⟩ := ends_build_ok hjob hloop
      obtain ⟨rfl, rfl⟩ := h.unique hends
      exact .written hjob hloop houtcome
    | error cause =>
      obtain ⟨built, failing, rest, between, last, hsplit, hbuilt, hfailing, hends, hfiles⟩ :=
        ends_build_error hjob hloop
      obtain ⟨rfl, rfl⟩ := h.unique hends
      exact .failed hjob hsplit hbuilt hfailing rfl hfiles

/-! ## The files behind a build -/

/-- **The last model with a name is the one whose text stays.** Behind the loop the target of every
model holds the text of the last model with the same stem. -/
theorem Job.holds_last (h : models.foldlM job.write fs = .ok written) (hm : m ∈ models) :
    ∃ last output, (models.filter fun other => other.stem = m.stem).getLast? = some last ∧
      job.output last = .ok output ∧ written.Holds (job.target m) output := by
  have htarget : ∀ m, (job.target m).parts = job.directory.parts ++ [targetName job.form m] := by
    intro m
    rw [Job.target, targetOf_eq]
  have hname : ∀ m, targetName job.form m ≠ ".." := fun m => targetName_ne (by decide)
  induction models using List.reverseRecOn generalizing written with
  | nil => cases hm
  | append_singleton front x ih =>
    obtain ⟨between, hfront, hlast⟩ := Loops.foldlM_append_eq_ok.1 h
    obtain ⟨next, hwrite, hnext⟩ := Loops.foldlM_cons_eq_ok.1 hlast
    cases hnext
    obtain ⟨output, houtput, hwritten⟩ := Job.write_eq_ok.1 hwrite
    by_cases hstem : x.stem = m.stem
    · -- The file of the model is written last of all.
      have hsame : job.target m = job.target x := by
        rw [Job.target, Job.target, targetOf_eq, targetOf_eq, targetName_inj.2 hstem]
      refine ⟨x, output, ?_, houtput, ?_⟩
      · simp [List.filter_append, hstem]
      · rw [hsame]
        exact Files.FileSystem.Holds.of_writeText hwritten (htarget x) (hname x)
    · -- Another name is written, and the model stands in front.
      have hfound : m ∈ front := by
        rcases List.mem_append.1 hm with hfound | hfound
        · exact hfound
        · exact absurd (List.mem_singleton.1 hfound ▸ rfl) hstem
      obtain ⟨last, text, hmember, htext, hholds⟩ := ih hfront hfound
      refine ⟨last, text, ?_, htext, ?_⟩
      · simpa [List.filter_append, hstem] using hmember
      · refine hholds.of_writeText_of_ne hwritten ?_ (htarget m) (hname m) (htarget x) (hname x) ?_
        · rw [Job.target, Job.target, targetOf_eq, targetOf_eq]
        · exact fun heq => hstem (targetName_inj.1 heq).symm

/-- A build that ends, and not with an error, had a job, and its models are all written. -/
theorem written_of_ends (hends : (build common request).Ends before outcome after)
    (hcode : ∀ stop, outcome = .error stop → ∃ code, stop = .exit code ∧ code ≠ errorCode) :
    ∃ job, request.job? before.files common = some job ∧
      job.models.foldlM job.write before.files = .ok after.files := by
  cases build_end hends with
  | refused hjob hfiles houtcome hstop =>
    obtain ⟨code, rfl, hne⟩ := hcode _ houtcome
    exact absurd (hstop code rfl) hne
  | written hjob hloop houtcome => exact ⟨_, hjob, hloop⟩
  | failed hjob hsplit hbuilt hfailing houtcome hfiles =>
    obtain ⟨code, hstop, hne⟩ := hcode _ houtcome
    exact absurd (stopOf_eq_exit.1 hstop).1 hne

/-- **The files of a build that does not end with an error.** The target of every declared model
holds the text of the last declared model with the same stem, which need not be its own. -/
theorem build_keeps_last_output {words : List String}
    (hwords : Request.ofWords words = .ok (.build common request))
    (hend : (run fs words).ending = .exit code) (hcode : code ≠ errorCode) :
    ∃ job, request.job? fs common = some job ∧
      ∀ m ∈ job.models, ∃ last output,
        (job.models.filter fun other => other.stem = m.stem).getLast? = some last ∧
          job.output last = .ok output ∧ (run fs words).files.Holds (job.target m) output := by
  rw [run_of_request hwords] at hend ⊢
  obtain ⟨after, hends⟩ := ending_eq_exit hend
  have hwritten : ∃ job, request.job? fs common = some job ∧
      job.models.foldlM job.write fs = .ok after.files ∧
      ((build common request).run fs).files = after.files := by
    rcases hends with ⟨hdone, -⟩ | hstop
    · obtain ⟨job, hjob, hloop⟩ := written_of_ends hdone fun _ h => nomatch h
      exact ⟨job, hjob, hloop, files_run hdone⟩
    · obtain ⟨job, hjob, hloop⟩ := written_of_ends hstop fun stop heq =>
        ⟨code, (Except.error.inj heq).symm, hcode⟩
      exact ⟨job, hjob, hloop, files_run hstop⟩
  obtain ⟨job, hjob, hloop, hfiles⟩ := hwritten
  refine ⟨job, hjob, fun m hm => ?_⟩
  obtain ⟨last, output, hlast, houtput, hholds⟩ := Job.holds_last hloop hm
  refine ⟨last, output, hlast, houtput, ?_⟩
  show ((build common request).run fs).files.Holds _ _
  rw [hfiles]
  exact hholds

end

/-- A declared model called `Person`, with one number. -/
def person : DeclaredModel :=
  { name := "Person", moduleName := "", text := "\x7b\"a\":1\x7d" }

/-- A declared model with the same name in lower case, and one text. -/
def namesake : DeclaredModel :=
  { name := "person", moduleName := "", text := "\x7b\"b\":\"x\"\x7d" }

/-- A project that declares both. -/
def namesakes : FileSystem :=
  { root := [("ldsynth.toml", .file
      ("[[models]]\nname = \"Person\"\njson = '\x7b\"a\":1\x7d'\n" ++
        "[[models]]\nname = \"person\"\njson = '\x7b\"b\":\"x\"\x7d'\n").toUTF8)] }

/-- The words that ask for outlines of all declared models. -/
def outlineWords : List String := ["build", "--kind", "outline"]

/-- What these words ask for. -/
def outlineRequest : BuildRequest :=
  { outDir := none, kind := some "outline", failOnWarnings := none }

/-- The job that this request leads to in a project that configures nothing but models. -/
def outlineJob (models : List DeclaredModel) : Job :=
  { discriminator := "@type", form := .outline, directory := { parts := ["generated"] },
    models := models }

theorem ofWords_outlineWords : Request.ofWords outlineWords = .ok (.build {} outlineRequest) := by
  decide +kernel

theorem ending_namesakes : (run namesakes outlineWords).ending = .exit 0 :=
  Ending.code?_eq_some.1 (by decide +kernel)

theorem build_keeps_last_output_namesakes :
    Request.ofWords outlineWords = .ok (.build {} outlineRequest) ∧
      (run namesakes outlineWords).ending = .exit 0 ∧
      ∃ job, outlineRequest.job? namesakes {} = some job ∧
        ∀ m ∈ job.models, ∃ last output,
          (job.models.filter fun other => other.stem = m.stem).getLast? = some last ∧
            job.output last = .ok output ∧
            (run namesakes outlineWords).files.Holds (job.target m) output :=
  ⟨ofWords_outlineWords, ending_namesakes,
    build_keeps_last_output ofWords_outlineWords ending_namesakes (by decide)⟩

/-- **Two models of which only one is left.** Both are declared, the build ends without complaint,
and the target of the first one does not hold its text. -/
theorem namesakes_share_a_file :
    ∃ output, Request.ofWords outlineWords = .ok (.build {} outlineRequest) ∧
      (run namesakes outlineWords).ending = .exit 0 ∧
      outlineRequest.job? namesakes {} = some (outlineJob [person, namesake]) ∧
      (outlineJob [person, namesake]).output person = .ok output ∧
      ¬ (run namesakes outlineWords).files.Holds
        ((outlineJob [person, namesake]).target person) output := by
  refine ⟨"type Person \x7b\n  A: number  // wire-name: a\n\x7d\n", ofWords_outlineWords,
    ending_namesakes, ?_, ?_, ?_⟩
  · decide +kernel
  · exact Loops.toOption_eq_some.1 (by decide +kernel)
  · decide +kernel

end SampleTypes.Command
