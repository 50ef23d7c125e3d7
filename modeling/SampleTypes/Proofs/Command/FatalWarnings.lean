import SampleTypes.Proofs.Command.Agreement
import SampleTypes.Proofs.Command.Escapes

/-!
# Fatal warnings

Whether warnings are fatal is asked once, when all output is written. So a command is two actions:
one that does everything and answers how many warnings there were, and one that decides the exit
code. The first does not look at the setting, which makes two runs that differ in it alike up to
their ends.

That the answer of the first action is the number of warnings that were told is kept from step to
step, over all models of a build: each of them adds the lines that it counts.

## Main results

* `action_eq`: a command as its work and a decision.
* `work_withSwitch`: the work does not depend on the setting.
* `counts_synth`, `counts_build`: the work counts the warnings that it tells.
* `fatal_warnings_change_only_the_ending`: two runs that differ in the setting.
-/

namespace SampleTypes.Command

open SampleTypes.Command.Action
open Files (FileSystem Path)

/-! ## The setting -/

/-- The switch on the command line, if it is given. -/
def Request.switch? : Request → Option Bool
  | .synth _ request => request.failOnWarnings
  | .build _ request => request.failOnWarnings
  | .scaffold _ _ => none

/-- The request with another switch, or with none. -/
def Request.withSwitch (switch : Option Bool) : Request → Request
  | .synth common request => .synth common { request with failOnWarnings := switch }
  | .build common request => .build common { request with failOnWarnings := switch }
  | .scaffold common request => .scaffold common request

/-- Whether a configuration makes warnings fatal. Those about repositories never are. -/
def Request.configured (config : Section) : Request → Bool
  | .scaffold _ _ => false
  | _ => Settings.failOnWarnings (.table (Configuration.synthesisPart config))

/-- Whether warnings are fatal: as the switch says, and without one as the configuration says. -/
def Request.fatal (config : Section) (request : Request) : Bool :=
  request.switch?.getD (request.configured config)

/-- Whether warnings are fatal in a run on some files. A configuration that cannot be read decides
nothing. -/
def Request.fatalIn (fs : FileSystem) (request : Request) : Bool :=
  request.fatal
    ((Configuration.load fs request.common.root request.common.config).toOption.getD [])

section

variable {config options : Section} {key : String} {switch : Option Bool} {request : Request}

theorem failOnWarnings_table (settings : Section) :
    Settings.failOnWarnings (.table settings) =
      ((Assoc.get? "fail_on_warnings" settings).map Settings.isTrue).getD false := by
  unfold Settings.failOnWarnings Setting.toSection
  cases Assoc.get? "fail_on_warnings" settings <;> rfl

/-- A switch that is given hides the configured setting, whatever that is, and no other one does. -/
theorem failOnWarnings_merge (hkeys : (Assoc.keys options).Nodup)
    (hswitch : Assoc.get? "fail_on_warnings" options = some (switched switch))
    (defaults : Section) :
    Settings.failOnWarnings (.table (Section.merge options defaults)) =
      switch.getD (Settings.failOnWarnings (.table defaults)) := by
  rw [failOnWarnings_table, failOnWarnings_table, Section.get?_merge hkeys, hswitch]
  cases switch <;> rfl

/-- Settings that are merged from options with different switches agree in everything else. -/
theorem get?_merge_switch {front : Section} {one other : Setting}
    (hkeys : (Assoc.keys front ++ ["fail_on_warnings"]).Nodup) (h : key ≠ "fail_on_warnings")
    (defaults : Section) :
    Assoc.get? key (Section.merge (front ++ [("fail_on_warnings", one)]) defaults) =
      Assoc.get? key (Section.merge (front ++ [("fail_on_warnings", other)]) defaults) := by
  have hfront : ∀ setting : Setting, Assoc.get? key (front ++ [("fail_on_warnings", setting)]) =
      Assoc.get? key front := by
    intro setting
    clear hkeys
    induction front with
    | nil => exact if_neg (Ne.symm h)
    | cons option rest ih => rw [List.cons_append, Assoc.get?_cons, Assoc.get?_cons, ih]
  rw [Section.get?_merge (by simpa using hkeys), Section.get?_merge (by simpa using hkeys),
    hfront, hfront]

end

/-! ## The work -/

/-- All that `synth` does under a configuration but the decision; the answer is how many warnings
there were. -/
def SynthRequest.work (request : SynthRequest) (config : Section) : Action Nat :=
  outputForm (request.settings config) >>= fun form => files >>= fun fs =>
    report (planOfFile fs (discriminatorOf config) (rootName request) request.sample) >>=
      fun plan => warn "" plan.warnings >>= fun warned => expect (plan.render form) >>=
        fun output => emit request.output output >>= fun _ => pure warned

/-- All that `build` does under a configuration but the decision. -/
def BuildRequest.work (request : BuildRequest) (common : Common) (config : Section) : Action Nat :=
  outputForm (request.settings config) >>= fun form =>
    expect (outputDirectory common.root (request.settings config)) >>= fun directory =>
      files >>= fun fs => report (DeclaredModel.ofConfiguration fs common.root config) >>=
        fun models =>
          if models.isEmpty then print "No models declared; nothing to build.\n" >>= fun _ => pure 0
          else buildModels (discriminatorOf config) form directory models

/-- An action under the configuration of a command; the answer keeps the configuration. -/
def underConfiguration (common : Common) (work : Section → Action Nat) : Action (Section × Nat) :=
  configuration common >>= fun config => work config >>= fun warned => pure (config, warned)

/-- All that a command does but the decision. Of repositories nothing is left to decide. -/
def Request.work : Request → Action (Section × Nat)
  | .synth common request => underConfiguration common request.work
  | .build common request => underConfiguration common (request.work common)
  | .scaffold common request => Command.scaffold common request >>= fun _ => pure ([], 0)

/-- The decision: the end of a command that has done its work. -/
def settle (fatal : Bool) (warned : Nat) : Action Unit :=
  if warned ≠ 0 ∧ fatal then throw (.exit warningsCode) else return ()

section

variable {common : Common} {config : Section} {key : String} {warned : Nat} {before : Session}

theorem ends_settle (fatal : Bool) (warned : Nat) (before : Session) :
    (settle fatal warned).Ends before
      (if warned ≠ 0 ∧ fatal then .error (.exit warningsCode) else .ok ()) before := by
  unfold settle
  split
  · rfl
  · rfl

theorem settle_zero (fatal : Bool) : settle fatal 0 = pure () :=
  if_neg fun h => h.1 rfl

theorem settleWarnings_synth (common : Common) (request : SynthRequest) (config : Section) :
    settleWarnings (request.settings config) =
      settle ((Request.synth common request).fatal config) := by
  have hfatal : Settings.failOnWarnings (.table (request.settings config)) =
      (Request.synth common request).fatal config :=
    failOnWarnings_merge (by simp) rfl _
  rw [← hfatal]
  rfl

theorem settleWarnings_build (common : Common) (request : BuildRequest) (config : Section) :
    settleWarnings (request.settings config) =
      settle ((Request.build common request).fatal config) := by
  have hfatal : Settings.failOnWarnings (.table (request.settings config)) =
      (Request.build common request).fatal config :=
    failOnWarnings_merge (by simp) rfl _
  rw [← hfatal]
  rfl

/-- **A command is its work and a decision.** -/
theorem action_eq (request : Request) :
    request.action = request.work >>= fun done => settle (request.fatal done.1) done.2 := by
  cases request with
  | synth common request =>
    rw [Request.action, synth_eq]
    simp only [Request.work, underConfiguration, SynthRequest.work, bind_assoc, pure_bind,
      settleWarnings_synth common]
  | build common request =>
    rw [Request.action, build_eq]
    simp only [Request.work, underConfiguration, BuildRequest.work, bind_assoc, pure_bind,
      settleWarnings_build common]
    refine bind_congr fun config => bind_congr fun form => bind_congr fun directory => ?_
    refine bind_congr fun fs => bind_congr fun models => ?_
    split
    · simp only [bind_assoc, pure_bind, settle_zero, bind_pure_unit]
    · rfl
  | scaffold common request =>
    simp only [Request.action, Request.work, bind_assoc, pure_bind, settle_zero, bind_pure_unit]

/-- The settings for one sample agree in everything but the switch. -/
theorem get?_settings_synth (request : SynthRequest) (switch : Option Bool)
    (h : key ≠ "fail_on_warnings") (config : Section) :
    Assoc.get? key (({ request with failOnWarnings := switch } : SynthRequest).settings config) =
      Assoc.get? key (request.settings config) := by
  have hkeys : (Assoc.keys [("kind", given request.kind)] ++ ["fail_on_warnings"]).Nodup := by simp
  exact get?_merge_switch hkeys h _

/-- The settings for declared models agree in everything but the switch. -/
theorem get?_settings_build (request : BuildRequest) (switch : Option Bool)
    (h : key ≠ "fail_on_warnings") (config : Section) :
    Assoc.get? key (({ request with failOnWarnings := switch } : BuildRequest).settings config) =
      Assoc.get? key (request.settings config) := by
  have hkeys : (Assoc.keys [("kind", given request.kind),
      ("out_dir", given (request.outDir.map Path.text))] ++ ["fail_on_warnings"]).Nodup := by simp
  exact get?_merge_switch hkeys h _

/-- **The work does not depend on the setting.** -/
theorem work_withSwitch (switch : Option Bool) (request : Request) :
    (request.withSwitch switch).work = request.work := by
  cases request with
  | synth common request =>
    refine bind_congr fun config => congrArg (· >>= _) ?_
    unfold SynthRequest.work outputForm
    rw [get?_settings_synth request switch (by decide)]
    rfl
  | build common request =>
    refine bind_congr fun config => congrArg (· >>= _) ?_
    unfold BuildRequest.work outputForm outputDirectory
    rw [get?_settings_build request switch (by decide),
      get?_settings_build request switch (by decide)]
  | scaffold common request => rfl

end

/-! ## The warnings that are told -/

/-- From one session to the next, so many warnings have been told, each on a line of its own, and
nothing else on standard error. -/
def Session.Warned (before : Session) (count : Nat) (after : Session) : Prop :=
  ∃ lines : List (List Char), lines.length = count ∧
    after.stderr = before.stderr ++ lines.flatMap fun line => "warning: ".toList ++ line

theorem Session.Warned.trans {before between after : Session} {count more : Nat}
    (h : before.Warned count between) (hrest : between.Warned more after) :
    before.Warned (count + more) after := by
  obtain ⟨lines, rfl, hlines⟩ := h
  obtain ⟨others, rfl, hothers⟩ := hrest
  exact ⟨lines ++ others, List.length_append, by simp [hothers, hlines]⟩

namespace Action

section

variable {α β : Type} {a : Action α} {f : α → Action β} {before between after : Session}
  {count : β → Nat} {n : Nat} {y : β}

/-- Whenever the action comes to its end, nothing has been told on standard error. -/
def Silent (a : Action α) : Prop :=
  ∀ before x after, a.Ends before (.ok x) after → after.stderr = before.stderr

/-- Whenever the action comes to its end, it has told the warnings that its answer counts. -/
def Counts (count : α → Nat) (a : Action α) : Prop :=
  ∀ before x after, a.Ends before (.ok x) after → before.Warned (count x) after

/-- Every answer of the action is of this kind. -/
def Answers (Q : α → Prop) (a : Action α) : Prop :=
  ∀ before x after, a.Ends before (.ok x) after → Q x

/-- A silent action whose answer counts `n` warnings, which have been told before. -/
def HandsOn (count : α → Nat) (n : Nat) (a : Action α) : Prop :=
  a.Silent ∧ a.Answers fun x => count x = n

/-- A sequence that comes to its end has come to the end of its first step. -/
theorem Ends.bind_ok (h : (a >>= f).Ends before (.ok y) after) :
    ∃ x between, a.Ends before (.ok x) between ∧ (f x).Ends between (.ok y) after := by
  rcases ends_bind.1 h with ⟨stop, -, heq⟩ | hrest
  · cases heq
  · exact hrest

/-! ### Sequences -/

theorem Silent.bind (ha : a.Silent) (hf : ∀ x, (f x).Silent) : (a >>= f).Silent := by
  intro before y after h
  obtain ⟨x, between, hfirst, hrest⟩ := h.bind_ok
  exact (hf x between y after hrest).trans (ha before x between hfirst)

theorem answers_bind {Q : β → Prop} (hf : ∀ x, (f x).Answers Q) : (a >>= f).Answers Q := by
  intro before y after h
  obtain ⟨x, between, -, hrest⟩ := h.bind_ok
  exact hf x between y after hrest

theorem Silent.bind_handsOn (ha : a.Silent) (hf : ∀ x, (f x).HandsOn count n) :
    (a >>= f).HandsOn count n :=
  ⟨ha.bind fun x => (hf x).1, answers_bind fun x => (hf x).2⟩

theorem Silent.bind_counts (ha : a.Silent) (hf : ∀ x, (f x).Counts count) :
    (a >>= f).Counts count := by
  intro before y after h
  obtain ⟨x, between, hfirst, hrest⟩ := h.bind_ok
  obtain ⟨lines, hlength, hlines⟩ := hf x between y after hrest
  exact ⟨lines, hlength, ha before x between hfirst ▸ hlines⟩

/-- **What has been counted is handed on.** -/
theorem Counts.bind {counted : α → Nat} (ha : a.Counts counted)
    (hf : ∀ x, (f x).HandsOn count (counted x)) : (a >>= f).Counts count := by
  intro before y after h
  obtain ⟨x, between, hfirst, hrest⟩ := h.bind_ok
  obtain ⟨lines, hlength, hlines⟩ := ha before x between hfirst
  refine ⟨lines, hlength.trans ((hf x).2 between y after hrest).symm, ?_⟩
  rw [(hf x).1 between y after hrest, hlines]

/-! ### Steps -/

theorem silent_of_ends (h : ∀ before, ∃ ended after, a.Ends before ended after ∧
    after.stderr = before.stderr) : a.Silent := by
  intro before x after hafter
  obtain ⟨ended, last, hends, hstderr⟩ := h before
  exact (hends.unique hafter).2 ▸ hstderr

theorem silent_of_stop (h : ∀ before, ∃ stop after, a.Ends before (.error stop) after) :
    a.Silent := by
  intro before x after hafter
  obtain ⟨stop, last, hends⟩ := h before
  cases (hends.unique hafter).1

theorem silent_files : files.Silent :=
  silent_of_ends fun before => ⟨_, _, ends_files before, rfl⟩

theorem silent_print (s : String) : (print s).Silent :=
  silent_of_ends fun before => ⟨_, _, ends_print s before, rfl⟩

theorem silent_expect (result : Except Fault α) : (expect result).Silent := by
  cases result with
  | ok x => exact silent_of_ends fun before => ⟨_, _, ends_expect rfl before, rfl⟩
  | error cause => exact silent_of_stop fun before => ⟨_, _, ends_expect_error rfl before⟩

theorem silent_report (result : Except Fault α) : (report result).Silent := by
  cases result with
  | ok x => exact silent_of_ends fun before => ⟨_, _, ends_report rfl before, rfl⟩
  | error cause => exact silent_of_stop fun before => ⟨_, _, ends_report_error rfl before⟩

theorem answers_pure {Q : β → Prop} (h : Q y) : (pure y : Action β).Answers Q := by
  intro before x after hafter
  cases (hafter.unique (ends_pure y before)).1
  exact h

theorem handsOn_pure (h : count y = n) : (pure y : Action β).HandsOn count n :=
  ⟨silent_of_ends fun before => ⟨_, _, ends_pure y before, rfl⟩, answers_pure h⟩

/-- What is handed on before anything has been told counts nothing. -/
theorem HandsOn.counts {action : Action β} (h : action.HandsOn count 0) : action.Counts count :=
  fun before y after hafter =>
    ⟨[], (h.2 before y after hafter).symm, by simp [h.1 before y after hafter]⟩

theorem counts_warn {lead : String}
    (hlead : ∀ t, printed (lead ++ t) = printed lead ++ printed t) (warnings : List String) :
    (warn lead warnings).Counts id := by
  intro before count after h
  obtain ⟨heq, rfl⟩ := h.unique (ends_warn lead warnings before)
  cases heq
  refine ⟨warnings.map fun warning => printed lead ++ printed (warning ++ "\n"),
    List.length_map .., ?_⟩
  simp [stderr_warned hlead, List.flatMap_map]

end

end Action

/-! ### Commands -/

section

variable {common : Common} {config : Section} {warned : Nat} {discriminator : String}
  {form : OutputForm} {directory : Path} {models : List DeclaredModel} {before after : Session}

theorem silent_outputForm (settings : Section) : (outputForm settings).Silent := by
  cases hform : formOf? settings with
  | some form => exact silent_of_ends fun before => ⟨_, _, ends_outputForm hform before, rfl⟩
  | none =>
    rw [outputForm_eq_fail hform]
    exact (silent_expect _).bind fun _ => silent_of_stop fun before => ⟨_, _, ends_fail _ before⟩

theorem silent_emit (target : Option Path) (s : String) : (emit target s).Silent := by
  cases htarget : fileOf? target with
  | none =>
    rw [emit_eq_print htarget]
    exact silent_print _
  | some p =>
    rw [emit_eq_writeFile htarget]
    exact silent_of_ends fun before => ⟨_, _, ends_writeFile p s before, rfl⟩

/-- **One model** tells the warnings that it answers. -/
theorem counts_buildModel (discriminator : String) (form : OutputForm) (directory : Path)
    (m : DeclaredModel) : (buildModel discriminator form directory m).Counts id := by
  refine (silent_report _).bind_counts fun plan => ?_
  refine (counts_warn (printed_lead m.name) _).bind fun warned => ?_
  refine (silent_expect _).bind_handsOn fun output => (silent_emit _ _).bind_handsOn fun _ => ?_
  exact (silent_print _).bind_handsOn fun _ => handsOn_pure rfl

/-- **All models** tell the warnings that they answer, by induction on the models. -/
theorem counts_buildModels (discriminator : String) (form : OutputForm) (directory : Path)
    (models : List DeclaredModel) :
    (buildModels discriminator form directory models).Counts id := by
  induction models with
  | nil => exact HandsOn.counts (handsOn_pure rfl)
  | cons m rest ih =>
    intro before warned after h
    obtain ⟨first, between, hfirst, h⟩ := h.bind_ok
    obtain ⟨others, last, hothers, h⟩ := h.bind_ok
    obtain ⟨heq, rfl⟩ := h.unique (ends_pure _ last)
    cases heq
    exact Session.Warned.trans (counts_buildModel _ _ _ _ _ _ _ hfirst) (ih _ _ _ hothers)

theorem silent_configuration (common : Common) : (configuration common).Silent :=
  silent_files.bind fun _ => silent_expect _

/-- **The work for one sample** tells the warnings that it answers. -/
theorem counts_synth (request : SynthRequest) (config : Section) :
    (request.work config).Counts id := by
  refine (silent_outputForm _).bind_counts fun form => silent_files.bind_counts fun fs => ?_
  refine (silent_report _).bind_counts fun plan => ?_
  refine (counts_warn (fun _ => rfl) _).bind fun warned => ?_
  exact (silent_expect _).bind_handsOn fun output => (silent_emit _ _).bind_handsOn fun _ =>
    handsOn_pure rfl

/-- **The work for declared models** tells the warnings that it answers. -/
theorem counts_build (common : Common) (request : BuildRequest) (config : Section) :
    (request.work common config).Counts id := by
  refine (silent_outputForm _).bind_counts fun form => ?_
  refine (silent_expect _).bind_counts fun directory => silent_files.bind_counts fun fs => ?_
  refine (silent_report _).bind_counts fun models => ?_
  split
  · exact HandsOn.counts ((silent_print _).bind_handsOn fun _ => handsOn_pure rfl)
  · exact counts_buildModels _ _ _ _

theorem counts_underConfiguration {work : Section → Action Nat}
    (h : ∀ config, (work config).Counts id) :
    (underConfiguration common work).Counts Prod.snd :=
  (silent_configuration common).bind_counts fun config =>
    (h config).bind fun _ => handsOn_pure rfl

theorem load_of_ends (h : (configuration common).Ends before (.ok config) after) :
    Configuration.load before.files common.root common.config = .ok config := by
  cases hload : Configuration.load before.files common.root common.config with
  | error cause =>
    obtain ⟨stop, last, hstop, -⟩ := refuses_configuration hload
    cases (h.unique hstop).1
  | ok loaded =>
    cases (h.unique (ends_configuration hload)).1
    rfl

/-- The configuration that is answered is the one in the files. -/
theorem load_underConfiguration {work : Section → Action Nat} {done : Section × Nat}
    (h : (underConfiguration common work).Ends before (.ok done) after) :
    Configuration.load before.files common.root common.config = .ok done.1 := by
  obtain ⟨config, between, hconfig, h⟩ := h.bind_ok
  have hanswer : (work config >>= fun warned => pure (config, warned)).Answers
      fun done => done.1 = config := answers_bind fun warned => answers_pure rfl
  rw [load_of_ends hconfig, hanswer between done after h]

/-- The work answers with the configuration that decides about its warnings. -/
theorem fatal_work {request : Request} {done : Section × Nat}
    (h : request.work.Ends before (.ok done) after) :
    request.fatal done.1 = request.fatalIn before.files := by
  cases request with
  | synth common request =>
    rw [Request.fatalIn, Request.common, load_underConfiguration h]
    rfl
  | build common request =>
    rw [Request.fatalIn, Request.common, load_underConfiguration h]
    rfl
  | scaffold common request => rfl

end

/-! ## Two runs -/

/-- A line of the text is a warning. -/
def HasWarning (s : String) : Prop :=
  ∃ front rest, s.toList = front ++ ("warning: ".toList ++ rest) ∧
    (front = [] ∨ front.getLast? = some '\n')

section

variable {fs : FileSystem} {request strict lax : Request} {done : Section × Nat}
  {before after : Session} {count : Nat}

/-- Warnings are there if some have been counted. -/
theorem hasWarning_iff (h : before.Warned count after) (hbefore : before.stderr = []) :
    HasWarning (String.ofList after.stderr) ↔ count ≠ 0 := by
  obtain ⟨lines, rfl, hlines⟩ := h
  rw [hbefore, List.nil_append] at hlines
  rw [HasWarning, String.toList_ofList, hlines]
  cases lines with
  | nil => simp
  | cons line rest => exact ⟨fun _ => by simp, fun _ => ⟨[], _, List.append_assoc .., Or.inl rfl⟩⟩

/-- A command whose work stops ends as its work does, whatever the setting is. -/
theorem ends_of_work_stop {stop : Stop} (h : request.work.Ends before (.error stop) after) :
    request.action.Ends before (.error stop) after := by
  rw [action_eq]
  exact h.bind_stop.2 ⟨rfl, rfl⟩

/-- A command that has done its work ends as the setting says. -/
theorem ends_of_work (h : request.work.Ends before (.ok done) after) :
    request.action.Ends before
      (if done.2 ≠ 0 ∧ request.fatalIn before.files then .error (.exit warningsCode) else .ok ())
      after := by
  rw [action_eq, ← fatal_work h]
  exact h.bind.2 (ends_settle _ _ _)

/-- Work that stops with an exit code has failed. -/
theorem code_of_work_stop {code : Nat}
    (h : request.work.Ends before (.error (.exit code)) after) : code ≠ 0 := by
  rcases exits_action request before code after (ends_of_work_stop h) with rfl | ⟨rfl, -⟩
  · decide
  · decide

/-- The work of a command with a setting counts the warnings that it tells. -/
theorem counts_work (hfatal : request.fatalIn fs = true) : request.work.Counts Prod.snd := by
  cases request with
  | synth common request => exact counts_underConfiguration (counts_synth request)
  | build common request => exact counts_underConfiguration (counts_build common request)
  | scaffold common request => cases hfatal

/-- **The setting decides the exit code, and nothing else.** -/
theorem fatal_warnings_change_only_the_ending {strictWords laxWords : List String}
    (hstrict : Request.ofWords strictWords = .ok strict) (hlax : Request.ofWords laxWords = .ok lax)
    (hsame : strict.withSwitch none = lax.withSwitch none) (hon : strict.fatalIn fs = true)
    (hoff : lax.fatalIn fs = false) :
    (run fs strictWords).stdout = (run fs laxWords).stdout ∧
      (run fs strictWords).stderr = (run fs laxWords).stderr ∧
      (run fs strictWords).files = (run fs laxWords).files ∧
      ((run fs laxWords).ending = .exit 0 →
        (HasWarning (run fs laxWords).stderr → (run fs strictWords).ending = .exit 1) ∧
        (¬ HasWarning (run fs laxWords).stderr → (run fs strictWords).ending = .exit 0)) ∧
      ((run fs laxWords).ending ≠ .exit 0 →
        (run fs strictWords).ending = (run fs laxWords).ending) ∧
      ((run fs strictWords).ending = .exit 2 ↔ (run fs laxWords).ending = .exit 2) := by
  have hwork : strict.work = lax.work := by
    rw [← work_withSwitch none strict, hsame, work_withSwitch]
  rw [run_of_request hstrict, run_of_request hlax]
  obtain ⟨ended, after, hends⟩ := exists_ends strict.work { files := fs }
  cases ended with
  | error stop =>
    -- The work has stopped, so both runs are the same.
    have hrun : strict.action.run fs = lax.action.run fs := by
      rw [Action.run, Action.run, ends_of_work_stop hends, ends_of_work_stop (hwork ▸ hends)]
    have hending : (lax.action.run fs).ending ≠ .exit 0 := by
      rw [← hrun, Action.run, ends_of_work_stop hends]
      cases stop with
      | exit code => exact fun h => code_of_work_stop hends (Ending.exit.inj h)
      | fault cause => exact Ending.noConfusion
    rw [hrun]
    exact ⟨rfl, rfl, rfl, fun h => absurd h hending, fun _ => rfl, Iff.rfl⟩
  | ok done =>
    have hon' := ends_of_work hends
    have hoff' := ends_of_work (hwork ▸ hends)
    rw [hon] at hon'
    rw [hoff] at hoff'
    simp only [Bool.false_eq_true, and_false, if_false, and_true] at hon' hoff'
    have hwarned := hasWarning_iff (counts_work hon _ _ _ hends) rfl
    rw [Action.run, Action.run, hon', hoff']
    by_cases hcount : done.2 = 0
    · simp [hcount, hwarned]
    · simp [hcount, hwarned, warningsCode]

end

/-- A project that makes warnings fatal, and declares a model that is warned of. -/
def guarded : FileSystem :=
  { root := [("ldsynth.toml", .file
      ("[synthesis]\nfail_on_warnings = \" Yes \"\n" ++
        "[[models]]\nname = \"Person\"\njson = '\x7b\"a\":null\x7d'\n").toUTF8)] }

/-- The switch on the command line takes back what the project configures. -/
theorem fatal_warnings_change_only_the_ending_guarded :
    Request.ofWords outlineWords = .ok (.build {} outlineRequest) ∧
      Request.ofWords (outlineWords ++ ["--no-fail-on-warnings"]) =
        .ok (.build {} { outlineRequest with failOnWarnings := some false }) ∧
      (run guarded (outlineWords ++ ["--no-fail-on-warnings"])).ending = .exit 0 ∧
      (run guarded outlineWords).ending = .exit 1 ∧
      (run guarded outlineWords).files =
        (run guarded (outlineWords ++ ["--no-fail-on-warnings"])).files := by
  have hlax : Request.ofWords (outlineWords ++ ["--no-fail-on-warnings"]) =
      .ok (.build {} { outlineRequest with failOnWarnings := some false }) := by decide +kernel
  have hended : (run guarded (outlineWords ++ ["--no-fail-on-warnings"])).ending = .exit 0 :=
    Ending.code?_eq_some.1 (by decide +kernel)
  have hwarned : HasWarning (run guarded (outlineWords ++ ["--no-fail-on-warnings"])).stderr := by
    refine ⟨[], "Person: $.a: skipped 'a': unsupported value null\n".toList, ?_, Or.inl rfl⟩
    decide +kernel
  have hon : (Request.build {} outlineRequest).fatalIn guarded = true := by decide +kernel
  have hoff : (Request.build {} { outlineRequest with failOnWarnings := some false }).fatalIn
      guarded = false := by decide +kernel
  obtain ⟨-, -, hfiles, hending, -⟩ :=
    fatal_warnings_change_only_the_ending ofWords_outlineWords hlax rfl hon hoff
  exact ⟨ofWords_outlineWords, hlax, hended, (hending hended).1 hwarned, hfiles⟩

end SampleTypes.Command
