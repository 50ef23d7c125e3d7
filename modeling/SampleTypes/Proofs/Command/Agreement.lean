import SampleTypes.Proofs.Command.Building
import SampleTypes.Proofs.Command.Printing
import SampleTypes.Proofs.Command.Samples

/-!
# One declared model and one sample

A build of a configuration that declares one model, and the types of its sample asked for by hand
with the same options, end alike and leave the same files. They tell the same error, or the same
warnings, which a build leads with the name of the model.

Both commands are sequences of steps, and most of the steps they share. So agreement is stated of
two actions that start in one session, with a law for a shared step, one for a step that only the
first of them takes, and one for each way to stop. What they write for the model is compared at the
end, where the sessions differ in what has been printed and in nothing else.

## Main results

* `Agree`: two actions that end alike, with the laws for single steps.
* `agree_build_synth`: the two commands.
* `build_agrees_with_synth`: their reports.
-/

namespace SampleTypes

open Files (FileSystem Path)

/-! ## Settings -/

/-- An option that is given hides the default, and no other one does. -/
theorem Section.get?_merge {options : Section} (h : (Assoc.keys options).Nodup) (key : String)
    (defaults : Section) :
    Assoc.get? key (Section.merge options defaults) =
      ((Assoc.get? key options).filter fun setting => !setting.isUnset).or
        (Assoc.get? key defaults) := by
  induction options generalizing defaults with
  | nil => rfl
  | cons option rest ih =>
    rcases option with ⟨name, setting⟩
    rw [Assoc.keys_cons, List.nodup_cons] at h
    have hstep : Section.merge ((name, setting) :: rest) defaults =
        Section.merge rest
          (if setting.isUnset then defaults else Assoc.put name setting defaults) := rfl
    rw [hstep, ih h.2, Assoc.get?_cons]
    by_cases hkey : name = key
    · subst hkey
      rw [Assoc.get?_eq_none.2 h.1, if_pos rfl]
      cases hunset : setting.isUnset <;> simp [Option.filter, hunset, Assoc.get?_put]
    · cases hunset : setting.isUnset <;> simp [hkey, Assoc.get?_put]

namespace Command

open SampleTypes.Command.Action

/-- The request for the types of one sample, with the options of a build. -/
def BuildRequest.synthRequest (request : BuildRequest) (sample : Path) (name : String)
    (output : Path) : SynthRequest :=
  { sample := sample, name := some name, kind := request.kind, output := some output,
    failOnWarnings := request.failOnWarnings }

section

variable {request : BuildRequest} {config : Section} {sample output : Path} {name : String}

/-- The settings agree in everything but the directory for generated files. -/
theorem get?_synthRequest {key : String} (h : key ≠ "out_dir") :
    Assoc.get? key ((request.synthRequest sample name output).settings config) =
      Assoc.get? key (request.settings config) := by
  have hsynth : (Assoc.keys [("kind", given request.kind),
      ("fail_on_warnings", switched request.failOnWarnings)]).Nodup := by simp
  have hbuild : (Assoc.keys [("kind", given request.kind),
      ("out_dir", given (request.outDir.map Path.text)),
      ("fail_on_warnings", switched request.failOnWarnings)]).Nodup := by simp
  have hoptions : Assoc.get? key [("kind", given request.kind),
        ("fail_on_warnings", switched request.failOnWarnings)] =
      Assoc.get? key [("kind", given request.kind),
        ("out_dir", given (request.outDir.map Path.text)),
        ("fail_on_warnings", switched request.failOnWarnings)] := by
    rw [Assoc.get?_cons, Assoc.get?_cons _ _ [("out_dir", _), ("fail_on_warnings", _)],
      Assoc.get?_cons _ ("out_dir", _), if_neg (Ne.symm h)]
  have hmerged := Section.get?_merge hsynth key (Configuration.synthesisPart config)
  rw [hoptions, ← Section.get?_merge hbuild] at hmerged
  exact hmerged

theorem outputForm_synthRequest :
    outputForm ((request.synthRequest sample name output).settings config) =
      outputForm (request.settings config) := by
  unfold outputForm
  rw [get?_synthRequest (by decide)]

theorem settleWarnings_synthRequest :
    settleWarnings ((request.synthRequest sample name output).settings config) =
      settleWarnings (request.settings config) := by
  funext warned
  unfold settleWarnings Settings.failOnWarnings Setting.toSection
  rw [get?_synthRequest (by decide)]

end

/-! ## Agreement -/

section

variable {α β : Type} {a : Action α} {f : α → Action Unit} {b : Action β} {g : β → Action Unit}
  {action first second : Action Unit} {before : Session} {lead message : String} {x : α} {y : β}
  {cause : Fault}

/-- Two actions that start in one session end alike and leave the same files. They tell the same
error, or the same warnings, which the first of them leads with some words. -/
def Agree (lead : String) (before : Session) (first second : Action Unit) : Prop :=
  ∃ outcome after after', first.Ends before outcome after ∧ second.Ends before outcome after' ∧
    after.files = after'.files ∧
    ((∃ message, outcome = .error (.exit errorCode) ∧
        after.stderr = before.stderr ++ printed ("error: " ++ message ++ "\n") ∧
        after'.stderr = after.stderr) ∨
      ∃ warnings, after.stderr = (before.warned lead warnings).stderr ∧
        after'.stderr = (before.warned "" warnings).stderr)

/-- A step that both actions take. -/
theorem Agree.bind (ha : a.Ends before (.ok x) before) (hb : b.Ends before (.ok y) before)
    (h : Agree lead before (f x) (g y)) : Agree lead before (a >>= f) (b >>= g) := by
  obtain ⟨outcome, after, after', hfirst, hsecond, hrest⟩ := h
  exact ⟨outcome, after, after', ha.bind.2 hfirst, hb.bind.2 hsecond, hrest⟩

/-- A step that only the first action takes. -/
theorem Agree.bind_left (ha : a.Ends before (.ok x) before) (h : Agree lead before (f x) action) :
    Agree lead before (a >>= f) action := by
  obtain ⟨outcome, after, after', hfirst, hsecond, hrest⟩ := h
  exact ⟨outcome, after, after', ha.bind.2 hfirst, hsecond, hrest⟩

/-- A step that only the second action takes. -/
theorem Agree.bind_right (hb : b.Ends before (.ok y) before) (h : Agree lead before action (g y)) :
    Agree lead before action (b >>= g) := by
  obtain ⟨outcome, after, after', hfirst, hsecond, hrest⟩ := h
  exact ⟨outcome, after, after', hfirst, hb.bind.2 hsecond, hrest⟩

/-- Both actions stop with the same error. -/
theorem Agree.of_fail
    (hfirst : first.Ends before (.error (.exit errorCode))
      (before.complaining ("error: " ++ message)))
    (hsecond : second.Ends before (.error (.exit errorCode))
      (before.complaining ("error: " ++ message))) : Agree lead before first second :=
  ⟨_, _, _, hfirst, hsecond, rfl, Or.inl ⟨message, rfl, rfl, rfl⟩⟩

/-- Both actions let the same fault out. -/
theorem Agree.of_fault (hfirst : first.Ends before (.error (.fault cause)) before)
    (hsecond : second.Ends before (.error (.fault cause)) before) :
    Agree lead before first second :=
  ⟨_, _, _, hfirst, hsecond, rfl, Or.inr ⟨[], rfl, rfl⟩⟩

/-- Both actions report the same fault. -/
theorem Agree.of_report {after : Session}
    (hafter : after =
      if cause.isReported then before.complaining ("error: " ++ cause.message) else before)
    (hfirst : first.Ends before (.error (stopOf cause)) after)
    (hsecond : second.Ends before (.error (stopOf cause)) after) :
    Agree lead before first second := by
  subst hafter
  unfold stopOf at hfirst hsecond
  cases hreported : cause.isReported with
  | true =>
    rw [hreported] at hfirst hsecond
    exact .of_fail hfirst hsecond
  | false =>
    rw [hreported] at hfirst hsecond
    exact .of_fault hfirst hsecond

/-- Both actions look up the form of output. -/
theorem Agree.outputForm {settings : Section} {f g : OutputForm → Action Unit}
    (h : ∀ form, formOf? settings = some form → Agree lead before (f form) (g form)) :
    Agree lead before (outputForm settings >>= f) (outputForm settings >>= g) := by
  cases hform : formOf? settings with
  | some form =>
    have hends := ends_outputForm hform before
    exact .bind hends hends (h form hform)
  | none =>
    rw [outputForm_eq_fail hform, bind_assoc, bind_assoc]
    cases hshown : (kindSetting settings).shown? with
    | error cause =>
      have hstop : (expect (.error cause) : Action String).Ends before (.error (.fault cause))
          before := ends_expect_error rfl before
      exact .of_fault (hstop.bind_stop.2 ⟨rfl, rfl⟩) (hstop.bind_stop.2 ⟨rfl, rfl⟩)
    | ok shown =>
      refine .bind (ends_expect rfl before) (ends_expect rfl before) ?_
      have hstop : ∀ message, (fail message : Action OutputForm).Ends before
          (.error (.exit errorCode)) (before.complaining ("error: " ++ message)) :=
        fun message => ends_fail message before
      exact .of_fail ((hstop _).bind_stop.2 ⟨rfl, rfl⟩) ((hstop _).bind_stop.2 ⟨rfl, rfl⟩)

end

/-! ## The two commands -/

section

variable {fs : FileSystem} {common : Common} {request : BuildRequest} {config entry : Section}
  {name sample : String} {directory output : Path} {before : Session}

theorem synth_eq (common : Common) (request : SynthRequest) :
    synth common request = (configuration common >>= fun config =>
      outputForm (request.settings config) >>= fun form => files >>= fun fs =>
        report (planOfFile fs (discriminatorOf config) (rootName request) request.sample) >>=
          fun plan => warn "" plan.warnings >>= fun warned => expect (plan.render form) >>=
            fun output => emit request.output output >>= fun _ =>
              settleWarnings (request.settings config) warned) := rfl

theorem build_eq (common : Common) (request : BuildRequest) :
    build common request = (configuration common >>= fun config =>
      outputForm (request.settings config) >>= fun form =>
        expect (outputDirectory common.root (request.settings config)) >>= fun directory =>
          files >>= fun fs => report (DeclaredModel.ofConfiguration fs common.root config) >>=
            fun models =>
              if models.isEmpty then print "No models declared; nothing to build.\n"
              else buildModels (discriminatorOf config) form directory models >>=
                settleWarnings (request.settings config)) := rfl

/-- Warnings are settled in the same way whatever has been printed. -/
theorem exists_settled (settings : Section) (warned : Nat) :
    ∃ outcome, ∀ before, (settleWarnings settings warned).Ends before outcome before := by
  unfold settleWarnings
  split
  · exact ⟨_, fun _ => rfl⟩
  · exact ⟨_, fun _ => rfl⟩

/-- How a file is written depends on the files, and not on what has been printed. -/
theorem exists_emitted {target : Option Path} {p : Path} (h : fileOf? target = some p)
    (text : String) (fs : FileSystem) :
    ∃ ended written, ∀ session : Session, session.files = fs →
      (emit target text).Ends session ended (session.holding written) := by
  refine ⟨((fs.writeText p text).2.mapError Fault.file).mapError Stop.fault,
    (fs.writeText p text).1, fun session hfiles => ?_⟩
  rw [emit_eq_writeFile h]
  exact hfiles ▸ ends_writeFile p text session

/-- A model with a plan: its file is written in one way, and what is printed differs in the words
in front of the warnings. -/
theorem agree_written (job : Job) {m : DeclaredModel} {plan : Plan}
    (hplan : m.plan job.discriminator = .ok plan) (settings : Section) (before : Session) :
    Agree (m.name ++ ": ") before
      (buildModels job.discriminator job.form job.directory [m] >>= settleWarnings settings)
      (warn "" plan.warnings >>= fun warned => expect (plan.render job.form) >>= fun output =>
        emit (some (job.target m)) output >>= fun _ => settleWarnings settings warned) := by
  obtain ⟨text, htext⟩ := plan.exists_render job.form
  obtain ⟨ended, written, hemit⟩ := exists_emitted (fileOf?_target job m) text before.files
  have hled := hemit (before.warned (m.name ++ ": ") plan.warnings)
    (Session.files_warned before _ _)
  have hplain := hemit (before.warned "" plan.warnings) (Session.files_warned before _ _)
  have hsynth : ∀ {outcome after}, (emit (some (job.target m)) text >>= fun _ =>
        settleWarnings settings plan.warnings.length).Ends (before.warned "" plan.warnings)
          outcome after →
      (warn "" plan.warnings >>= fun warned => expect (plan.render job.form) >>= fun output =>
        emit (some (job.target m)) output >>= fun _ => settleWarnings settings warned).Ends before
          outcome after :=
    fun h => (ends_warn "" plan.warnings before).bind.2 ((ends_expect htext _).bind.2 h)
  cases ended with
  | error stop =>
    have hmodel := (ends_buildModel_iff hplan htext).2 (hled.bind_stop.2 ⟨rfl, rfl⟩)
    have hmodels : (buildModels job.discriminator job.form job.directory [m]).Ends before _ _ :=
      hmodel.bind_stop.2 ⟨rfl, rfl⟩
    exact ⟨_, _, _, hmodels.bind_stop.2 ⟨rfl, rfl⟩, hsynth (hplain.bind_stop.2 ⟨rfl, rfl⟩), rfl,
      Or.inr ⟨plan.warnings, rfl, rfl⟩⟩
  | ok done =>
    have hmodel := (ends_buildModel_iff hplan htext).2
      (hled.bind.2 ((ends_print _ _).bind.2 (ends_pure _ _)))
    have hmodels : (buildModels job.discriminator job.form job.directory [m]).Ends before
        (.ok plan.warnings.length) _ := hmodel.bind.2 (ends_pure _ _)
    obtain ⟨outcome, hsettled⟩ := exists_settled settings plan.warnings.length
    exact ⟨outcome, _, _, hmodels.bind.2 (hsettled _), hsynth (hplain.bind.2 (hsettled _)), rfl,
      Or.inr ⟨plan.warnings, rfl, rfl⟩⟩

/-- **The two commands agree.** -/
theorem agree_build_synth
    (hload : Configuration.load before.files common.root common.config = .ok config)
    (hmodels : Assoc.get? "models" config = some (.list [.table entry]))
    (hentry : DeclaredModel.Names entry name sample)
    (hsource : (DeclaredModel.samplePath common.root sample).text ≠ "")
    (hdirectory : outputDirectory common.root (request.settings config) = .ok directory)
    (houtput : ∀ form m, formOf? (request.settings config) = some form →
      m.name = Text.Blank.trim name → targetOf directory form m = output) :
    Agree (Text.Blank.trim name ++ ": ") before (build common request)
      (synth common (request.synthRequest (DeclaredModel.samplePath common.root sample)
        (Identifier.className name) output)) := by
  rw [build_eq, synth_eq]
  refine .bind (ends_configuration hload) (ends_configuration hload) ?_
  rw [outputForm_synthRequest]
  refine .outputForm fun form hform => ?_
  refine .bind_left (ends_expect hdirectory before) ?_
  refine .bind (ends_files before) (ends_files before) ?_
  have hname : rootName (request.synthRequest (DeclaredModel.samplePath common.root sample)
      (Identifier.className name) output) = Identifier.className name := by
    obtain ⟨letter, others, hchars, -⟩ := Identifier.isPlain_className name
    refine if_neg fun hempty => ?_
    rw [hempty] at hchars
    cases hchars
  rw [hname]
  rcases hentry.declared before.files hmodels hsource (discriminatorOf config) with
    ⟨m, hdeclared, hm, hplan⟩ | ⟨cause, hdeclared, hplan⟩
  · refine .bind_left (ends_report hdeclared before) ?_
    cases hown : m.plan (discriminatorOf config) with
    | error cause =>
      have hmodel : (buildModel (discriminatorOf config) form directory m).Ends before _ _ :=
        (ends_report_error hown before).bind_stop.2 ⟨rfl, rfl⟩
      have hmodels : (buildModels (discriminatorOf config) form directory [m]).Ends before _ _ :=
        hmodel.bind_stop.2 ⟨rfl, rfl⟩
      exact .of_report rfl (hmodels.bind_stop.2 ⟨rfl, rfl⟩)
        ((ends_report_error (hplan.symm.trans hown) before).bind_stop.2 ⟨rfl, rfl⟩)
    | ok plan =>
      refine .bind_right (ends_report (hplan.symm.trans hown) before) ?_
      have hwritten := agree_written ⟨discriminatorOf config, form, directory, [m]⟩ hown
        (request.settings config) before
      have htarget : Job.target ⟨discriminatorOf config, form, directory, [m]⟩ m = output :=
        houtput form m hform hm
      rw [hm, htarget] at hwritten
      rw [settleWarnings_synthRequest]
      exact hwritten
  · exact .of_report rfl ((ends_report_error hdeclared before).bind_stop.2 ⟨rfl, rfl⟩)
      ((ends_report_error hplan before).bind_stop.2 ⟨rfl, rfl⟩)

/-- The lines of warnings, led by some words. -/
def warningLines (lead : String) (warnings : List String) : String :=
  String.ofList (warnings.flatMap fun warning =>
    "warning: ".toList ++ printed lead ++ printed (warning ++ "\n"))

/-- The line of an error. -/
def errorLine (message : String) : String :=
  String.ofList (printed ("error: " ++ message ++ "\n"))

/-- Two commands have ended alike and left the same files. They have told the same error, or the
same warnings, which the first of them leads with a name. -/
structure Report.Agrees (name : String) (first second : Report) : Prop where
  ending : first.ending = second.ending
  files : first.files = second.files
  told : (∃ message, first.ending = .exit errorCode ∧ first.stderr = errorLine message ∧
      second.stderr = errorLine message) ∨
    ∃ warnings, first.stderr = warningLines (name ++ ": ") warnings ∧
      second.stderr = warningLines "" warnings

/-- Agreement, seen from outside. -/
theorem Agree.reports {first second : Action Unit}
    (h : Agree (name ++ ": ") { files := fs } first second) :
    Report.Agrees name (first.run fs) (second.run fs) := by
  obtain ⟨outcome, after, after', hfirst, hsecond, hfiles, htold⟩ := h
  refine ⟨?_, ?_, ?_⟩
  · rw [Action.run, Action.run, hfirst, hsecond]
  · rw [files_run hfirst, files_run hsecond, hfiles]
  · rw [stderr_run hfirst, stderr_run hsecond]
    rcases htold with ⟨message, rfl, herror, hsame⟩ | ⟨warnings, hled, hplain⟩
    · refine Or.inl ⟨message, ?_, ?_, ?_⟩
      · rw [Action.run, hfirst]
      · rw [herror]
        rfl
      · rw [hsame, herror]
        rfl
    · refine Or.inr ⟨warnings, ?_, ?_⟩
      · rw [hled, stderr_warned (printed_lead name)]
        rfl
      · rw [hplain, stderr_warned fun _ => rfl]
        rfl

/-- **One declared model and its sample.** In a configuration that declares one model, well formed
and with a sample, whatever stands in the sample, a build and the request for the types of the
sample agree if they are given the same options, the second one the class name of the model and the
file that the build writes. -/
theorem build_agrees_with_synth {buildWords synthWords : List String}
    (hload : Configuration.load fs common.root common.config = .ok config)
    (hmodels : Assoc.get? "models" config = some (.list [.table entry]))
    (hentry : DeclaredModel.Names entry name sample)
    (hdirectory : outputDirectory common.root (request.settings config) = .ok directory)
    (houtput : ∀ form m, formOf? (request.settings config) = some form →
      m.name = Text.Blank.trim name → targetOf directory form m = output)
    (hbuild : Request.ofWords buildWords = .ok (.build common request))
    (hsynth : Request.ofWords synthWords = .ok (.synth common
      (request.synthRequest (DeclaredModel.samplePath common.root sample)
        (Identifier.className name) output))) :
    Report.Agrees (Text.Blank.trim name) (run fs buildWords) (run fs synthWords) := by
  rw [run_of_request hbuild, run_of_request hsynth]
  have hsource := text_samplePath_ne hbuild sample
  exact (agree_build_synth hload hmodels hentry hsource hdirectory houtput).reports

end

/-- A project that declares one model, with blanks around its name and a sample that is warned of.
-/
def surveyed : FileSystem :=
  { root := [("ldsynth.toml", .file
        "[[models]]\nname = \" site plan \"\nsample = \"site.json\"\n".toUTF8),
      ("site.json", .file "\x7b\"area\":1,\"owner\":null\x7d".toUTF8)] }

/-- The words that ask for an outline of the sample, in the place of the generated file. -/
def surveyWords : List String :=
  ["synth", "site.json", "--name", "SitePlan", "--kind", "outline", "--output",
    "generated/site_plan.txt"]

/-- The model that the project declares. -/
def sitePlan : DeclaredModel :=
  { name := "site plan", moduleName := "", text := "\x7b\"area\":1,\"owner\":null\x7d",
    source := "site.json" }

/-- What these words ask for: the sample under the class name of the model. -/
def surveyRequest : SynthRequest :=
  outlineRequest.synthRequest { parts := ["site.json"] } (Identifier.className "site plan")
    { parts := ["generated", "site_plan.txt"] }

/-- The blanks around the name show neither in the class name nor in front of the warning. -/
theorem build_agrees_with_synth_surveyed :
    Request.ofWords outlineWords = .ok (.build {} outlineRequest) ∧
      Request.ofWords surveyWords = .ok (.synth {} surveyRequest) ∧
      Report.Agrees "site plan" (run surveyed outlineWords) (run surveyed surveyWords) := by
  have hsynth : Request.ofWords surveyWords = .ok (.synth {} surveyRequest) := by decide +kernel
  have hjob : outlineRequest.job? surveyed {} = some (outlineJob [sitePlan]) := by decide +kernel
  obtain ⟨config, hload, hform, hdirectory, hdeclared, -⟩ := BuildRequest.job?_eq_some.1 hjob
  obtain ⟨entry, name, sample, hmodels, hentry, hname, hsource⟩ :=
    DeclaredModel.names_of_ofConfiguration hdeclared (by decide)
  have hpath : DeclaredModel.samplePath {} sample = { parts := ["site.json"] } := by
    have hread := Path.ofText_text
      (DeclaredModel.isCanonical_samplePath (Path.isCanonical_ofText "") sample)
    exact hread.symm.trans (hsource ▸ by decide +kernel)
  have hclass : Identifier.className name = Identifier.className "site plan" := by
    rw [← Identifier.className_trim name, ← hname]
    rfl
  have htarget : ∀ form m, formOf? (outlineRequest.settings config) = some form →
      m.name = Text.Blank.trim name → targetOf { parts := ["generated"] } form m =
        { parts := ["generated", "site_plan.txt"] } := by
    intro form m hasked hm
    obtain rfl := Option.some.inj (hform.symm.trans hasked)
    rw [← hname] at hm
    have hstem : m.stem = sitePlan.stem := by rw [DeclaredModel.stem, hm, DeclaredModel.stem]
    rw [targetOf, hstem]
    decide +kernel
  have hasked : Request.ofWords surveyWords = .ok (.synth {} (outlineRequest.synthRequest
      (DeclaredModel.samplePath {} sample) (Identifier.className name)
        { parts := ["generated", "site_plan.txt"] })) := by
    rw [hpath, hclass]
    exact hsynth
  have hagrees := build_agrees_with_synth hload hmodels hentry hdirectory htarget
    ofWords_outlineWords hasked
  rw [← hname] at hagrees
  exact ⟨ofWords_outlineWords, hsynth, hagrees⟩

end Command

end SampleTypes
