import SampleTypes.Proofs.Command.Actions
import SampleTypes.Proofs.Rendering.Classes

/-!
# The stages of commands

The steps that commands share, each with what it does to a session: the form of output is looked
up, plans are written down, output goes to a file or is printed, and warnings are settled. Of
these only a setting that cannot be shown and a file that cannot be written are faults.

## Main results

* `SynthRequest.settings`, `BuildRequest.settings`, `ScaffoldRequest.settings`: options before
  defaults.
* `faults_outputForm_bind`, `faults_emit`: the faults of the shared steps.
* `Plan.exists_render`: every plan has every form.
* `scaffold_eq`: a scaffold as one sequence of steps.
-/

namespace SampleTypes

open Files (FileSystem Path)

/-! ## Settings -/

theorem Setting.shown?_eq_error {setting : Setting} {cause : Fault} :
    setting.shown? = .error cause ↔
      setting.literal.isShowable = false ∧ cause = .unshownInteger := by
  unfold shown?
  cases setting.literal.isShowable <;> simp [eq_comm]

theorem Setting.plain?_eq_error {setting : Setting} {cause : Fault} :
    setting.plain? = .error cause ↔
      setting.literal.isShowable = false ∧ cause = .unshownInteger := by
  unfold plain?
  cases setting.literal.isShowable <;> simp [eq_comm]

namespace Command

/-- The settings for one sample: the options before the configured ones. -/
def SynthRequest.settings (request : SynthRequest) (config : Section) : Section :=
  Section.merge
    [("kind", given request.kind), ("fail_on_warnings", switched request.failOnWarnings)]
    (Configuration.synthesisPart config)

/-- The settings for declared models: the options before the configured ones. -/
def BuildRequest.settings (request : BuildRequest) (config : Section) : Section :=
  Section.merge
    [("kind", given request.kind), ("out_dir", given (request.outDir.map Path.text)),
     ("fail_on_warnings", switched request.failOnWarnings)]
    (Configuration.synthesisPart config)

/-- The settings for repositories: the options before the configured ones. -/
def ScaffoldRequest.settings (request : ScaffoldRequest) (config : Section) : Section :=
  Section.merge [("base", given request.base)] (Configuration.scaffoldPart config)

/-- The key that makes types of nested objects. -/
def discriminatorOf (config : Section) : String :=
  Settings.discriminator (.table (Configuration.synthesisPart config))

/-- The setting for the form of output. -/
def kindSetting (settings : Section) : Setting :=
  (Assoc.get? "kind" settings).getD (.text OutputForm.classModule.name)

/-- The form that the settings name. -/
def formOf? (settings : Section) : Option OutputForm :=
  match kindSetting settings with
  | .text name => OutputForm.ofName? name
  | _ => none

/-- The setting for the directory of generated files. -/
def directorySetting (settings : Section) : Setting :=
  (Assoc.get? "out_dir" settings).getD (.text "generated")

/-- The setting for the base class of entities. -/
def baseSetting (settings : Section) : Setting :=
  (Assoc.get? "base" settings).getD (.text Scaffold.defaultBase)

end Command

/-! ## Forms -/

/-- **Every plan has every form.** -/
theorem Plan.exists_render (form : OutputForm) (plan : Plan) :
    ∃ output, plan.render form = .ok output := by
  cases form with
  | classModule => exact ⟨_, ClassModule.render_eq plan⟩
  | json => exact ⟨_, rfl⟩
  | outline =>
    choose line hline using Outline.fieldLine_isOk
    have hblock : ∀ d, ∃ text, Outline.block d = .ok text := by
      intro d
      have hlines : d.fields.mapM Outline.fieldLine = .ok (d.fields.map line) :=
        Loops.mapM_eq_ok_map fun field _ => hline field
      rw [Outline.block, hlines]
      exact ⟨_, rfl⟩
    choose block hblock using hblock
    have hblocks : plan.definitions.mapM Outline.block = .ok (plan.definitions.map block) :=
      Loops.mapM_eq_ok_map fun d _ => hblock d
    rw [Plan.render, Outline.render, hblocks]
    exact ⟨_, rfl⟩

namespace Command

open SampleTypes.Command.Action

section

variable {β : Type} {settings : Section} {form : OutputForm} {plan : Plan} {cause : Fault}
  {before after : Session} {target : Option Path} {p : Path} {s output : String} {warned : Nat}
  {written : FileSystem} {refusal : FileFault}

/-! ## The configuration -/

theorem ends_configuration {common : Common} {config : Section}
    (h : Configuration.load before.files common.root common.config = .ok config) :
    (configuration common).Ends before (.ok config) before :=
  (ends_files before).bind.2 (ends_expect h before)

theorem refuses_configuration {common : Common}
    (h : Configuration.load before.files common.root common.config = .error cause) :
    (configuration common).Refuses before :=
  (ends_files before).refuses_bind rfl (refuses_expect h before)

theorem faults_configuration_bind {common : Common} {f : Section → Action β} :
    (configuration common >>= f).Faults before cause ↔
      Configuration.load before.files common.root common.config = .error cause ∨
        ∃ config, Configuration.load before.files common.root common.config = .ok config ∧
          (f config).Faults before cause := by
  rw [configuration, bind_assoc, faults_files_bind, faults_expect_bind]

/-! ## Looking up the form -/

theorem ends_outputForm (h : formOf? settings = some form) (before : Session) :
    (outputForm settings).Ends before (.ok form) before := by
  unfold formOf? at h
  split at h
  · rename_i name hname
    unfold kindSetting at hname
    simp only [outputForm, hname, h]
    rfl
  · cases h

theorem outputForm_eq_fail (h : formOf? settings = none) :
    outputForm settings = (Action.expect (kindSetting settings).shown? >>= fun shown =>
      Action.fail ("unknown kind " ++ shown ++ "; expected one of " ++
        ", ".intercalate (OutputForm.all.map OutputForm.name))) := by
  unfold formOf? at h
  unfold kindSetting at h ⊢
  unfold outputForm
  generalize (Assoc.get? "kind" settings).getD (.text OutputForm.classModule.name) = asked at h ⊢
  cases asked with
  | text name =>
    dsimp only at h ⊢
    rw [h]
  | _ => rfl

theorem refuses_outputForm (h : formOf? settings = none) (before : Session) :
    (outputForm settings).Refuses before := by
  rw [outputForm_eq_fail h]
  cases hshown : (kindSetting settings).shown? with
  | error cause => exact (refuses_expect rfl before).bind
  | ok shown => exact (ends_expect rfl before).refuses_bind rfl (refuses_fail _ before)

theorem faults_outputForm_bind {f : OutputForm → Action β} :
    (outputForm settings >>= f).Faults before cause ↔
      (formOf? settings = none ∧ (kindSetting settings).literal.isShowable = false ∧
          cause = .unshownInteger) ∨
        ∃ form, formOf? settings = some form ∧ (f form).Faults before cause := by
  cases hform : formOf? settings with
  | some form =>
    rw [(ends_outputForm hform before).faults_bind]
    simp
  | none =>
    rw [outputForm_eq_fail hform, bind_assoc, Action.faults_expect_bind, Setting.shown?_eq_error]
    have hfail : ∀ message : String,
        ¬ ((Action.fail message : Action OutputForm) >>= f).Faults before cause := by
      intro message h
      cases (Action.ends_fail message before).faults_bind_stop.1 h
    simp [hfail]

theorem outputDirectory_eq_error {root : Path} : outputDirectory root settings = .error cause ↔
    (directorySetting settings).literal.isShowable = false ∧ cause = .unshownInteger := by
  rw [← Setting.plain?_eq_error]
  show ((directorySetting settings).plain?.map _) = _ ↔ _
  cases (directorySetting settings).plain? <;> simp [Except.map]

/-! ## Output -/

/-- The file that output goes to, if it is not printed. -/
def fileOf? (target : Option Path) : Option Path :=
  target.filter fun p => p.text ≠ Action.stdoutName

theorem ends_writeFile (p : Path) (s : String) (before : Session) :
    (Action.writeFile p s).Ends before
      (((before.files.writeText p s).2.mapError Fault.file).mapError Stop.fault)
      (before.holding (before.files.writeText p s).1) := by
  rcases hwrite : before.files.writeText p s with ⟨files, result⟩
  have hget : (get : Action Session).Ends before (.ok before) before := rfl
  refine hget.bind.2 ?_
  rw [hwrite]
  have hset : (set (before.holding files) : Action PUnit).Ends before (.ok ())
      (before.holding files) := rfl
  refine hset.bind.2 ?_
  cases result <;> rfl

theorem emit_eq_print (h : fileOf? target = none) (s : String) :
    Action.emit target s = Action.print (Action.withLineEnd s) := by
  cases target with
  | none => rfl
  | some p =>
    have hmark : p.text = Action.stdoutName := by
      by_contra hne
      simp [fileOf?, hne] at h
    exact if_pos hmark

theorem emit_eq_writeFile (h : fileOf? target = some p) (s : String) :
    Action.emit target s = Action.writeFile p s := by
  obtain ⟨rfl, hfile⟩ := Option.filter_eq_some_iff.1 h
  exact if_neg (of_decide_eq_true hfile)

theorem ends_emit_ok (h : fileOf? target = some p)
    (hwrite : before.files.writeText p s = (written, .ok ())) :
    (Action.emit target s).Ends before (.ok ()) (before.holding written) := by
  have hends := ends_writeFile p s before
  rw [hwrite] at hends
  rw [emit_eq_writeFile h]
  exact hends

theorem ends_emit_error (h : fileOf? target = some p)
    (hwrite : (before.files.writeText p s).2 = .error refusal) :
    (Action.emit target s).Ends before (.error (.fault (.file refusal)))
      (before.holding (before.files.writeText p s).1) := by
  have hends := ends_writeFile p s before
  rw [hwrite] at hends
  rw [emit_eq_writeFile h]
  exact hends

/-- Output is not written if the file that it goes to refuses. -/
theorem faults_emit : (Action.emit target s).Faults before cause ↔
    ∃ p refusal, fileOf? target = some p ∧ (before.files.writeText p s).2 = .error refusal ∧
      cause = .file refusal := by
  constructor
  · rintro ⟨after, hafter⟩
    cases htarget : fileOf? target with
    | none =>
      rw [emit_eq_print htarget] at hafter
      cases ((ends_print _ before).unique hafter).1
    | some p =>
      cases hresult : (before.files.writeText p s).2 with
      | ok done =>
        have hwrite : before.files.writeText p s = ((before.files.writeText p s).1, .ok ()) :=
          Prod.ext rfl hresult
        cases ((ends_emit_ok htarget hwrite).unique hafter).1
      | error refusal =>
        cases ((ends_emit_error htarget hresult).unique hafter).1
        exact ⟨p, refusal, rfl, hresult, rfl⟩
  · rintro ⟨p, refusal, htarget, hresult, rfl⟩
    exact ⟨_, ends_emit_error htarget hresult⟩

/-! ## Settling warnings -/

theorem settleWarnings_ends (settings : Section) (warned : Nat) (before : Session) :
    (settleWarnings settings warned).Ends before (.ok ()) before ∨
      (settleWarnings settings warned).Ends before (.error (.exit warningsCode)) before := by
  unfold settleWarnings
  split
  · exact Or.inr rfl
  · exact Or.inl rfl

theorem settleWarnings_not_faults : ¬ (settleWarnings settings warned).Faults before cause := by
  rcases settleWarnings_ends settings warned before with h | h
  · exact h.not_faults
  · rintro ⟨after, hafter⟩
    cases (h.unique hafter).1

theorem faults_emit_settleWarnings {settings : Section} {warned : Nat} :
    (emit target s >>= fun _ => settleWarnings settings warned).Faults before cause ↔
      ∃ p refusal, fileOf? target = some p ∧ (before.files.writeText p s).2 = .error refusal ∧
        cause = .file refusal :=
  (faults_bind_of_not fun _ _ => settleWarnings_not_faults).trans faults_emit

/-! ## Exit codes -/

section

variable {Q : Nat → Session → Prop}

theorem exits_configuration (common : Common) : (configuration common).Exits Q :=
  exits_files.bind fun _ => exits_expect _

theorem exits_outputForm (settings : Section)
    (h : ∀ (before : Session) (message : String),
      Q errorCode (before.complaining ("error: " ++ message))) :
    (outputForm settings).Exits Q := by
  cases hform : formOf? settings with
  | some form =>
    exact exits_of_ends fun before => ⟨_, _, ends_outputForm hform before, nofun⟩
  | none =>
    rw [outputForm_eq_fail hform]
    exact (exits_expect _).bind fun shown => exits_fail _ fun before => h before _

theorem exits_emit (target : Option Path) (s : String) : (emit target s).Exits Q := by
  refine exits_of_ends fun before => ?_
  cases htarget : fileOf? target with
  | none =>
    rw [emit_eq_print htarget]
    exact ⟨_, _, ends_print _ before, nofun⟩
  | some p =>
    rw [emit_eq_writeFile htarget]
    refine ⟨_, _, ends_writeFile p s before, fun code heq => ?_⟩
    cases hresult : (before.files.writeText p s).2 with
    | ok done => cases hresult ▸ heq
    | error refusal => cases hresult ▸ heq

theorem exits_settleWarnings (settings : Section) (warned : Nat)
    (h : ∀ after, Q warningsCode after) :
    (settleWarnings settings warned).Exits Q := by
  refine exits_of_ends fun before => ?_
  rcases settleWarnings_ends settings warned before with hends | hends
  · exact ⟨_, _, hends, nofun⟩
  · refine ⟨_, _, hends, fun code heq => ?_⟩
    cases heq
    exact h before

end

/-! ## Repositories -/

/-- The declared models, if repositories for them are asked for. -/
def includedModels (common : Common) (request : ScaffoldRequest) : Action (List DeclaredModel) :=
  if request.includeModels then
    configuration common >>= fun config => files >>= fun fs =>
      report (DeclaredModel.ofConfiguration fs common.root config)
  else pure []

/-- The classes that get repositories: those found, and those of declared models. -/
def entitiesOf (found : Discovery.Findings) (declared : List DeclaredModel) : List EntityType :=
  found.types ++ declared.map DeclaredModel.entityType

/-- What is written for repositories. -/
def scaffoldOutput (request : ScaffoldRequest) (found : Discovery.Findings)
    (declared : List DeclaredModel) (source : String) : String :=
  if request.asJson then
    (scaffoldDocument (entitiesOf found declared) source found.warnings).indented ++ "\n"
  else source

theorem scaffold_eq (common : Common) (request : ScaffoldRequest) :
    scaffold common request = (configuration common >>= fun config =>
      expect (baseSetting (request.settings config)).plain? >>= fun base => files >>= fun fs =>
        expect (Discovery.discover fs common.root base
          (scanPaths common.root request.paths
            (Configuration.scaffoldPart config))) >>= fun found =>
        warn "" found.warnings >>= fun _ => includedModels common request >>= fun declared =>
          expect (Scaffold.render (entitiesOf found declared)) >>= fun source =>
            emit request.output (scaffoldOutput request found declared source)) := by
  unfold scaffold
  refine bind_congr fun config => bind_congr fun base => bind_congr fun fs => ?_
  refine bind_congr fun found => ?_
  rw [Functor.discard, map_const, Function.comp_apply, bind_map_left]
  refine bind_congr fun warned => ?_
  by_cases hincluded : request.includeModels = true
  · simp only [includedModels, if_pos hincluded, bind_assoc]
    rfl
  · simp only [includedModels, if_neg hincluded, pure_bind]
    rfl

end

end Command

end SampleTypes
