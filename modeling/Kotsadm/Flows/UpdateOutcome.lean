import Kotsadm.Flows.Update

/-!
# UpdateOutcome — what a background update reports

`DownloadUpdate`, `RewriteImages` and `UpdateAppFromAirgap` run in goroutines, so the task status is
all a user sees of their result.
-/

namespace Kotsadm.Flows

open Version Body

/-- On return the task is `failed` if and only if an error was returned, and it is cleared if none
was. -/
def FailureReported (id : String) (result : Except Abort Unit) (s : Server) : Prop :=
  -- a panic is no return
  result ≠ .error .panic →
    ((taskStatus s.db id).map (·.1) = some "failed" ↔ ∃ e, result = .error (.error e)) ∧
      (result = .ok () → taskStatus s.db id = none)

theorem failureReported_ok {id : String} {s : Server} :
    FailureReported id (.ok ()) s ↔ taskStatus s.db id = none := by
  unfold FailureReported
  constructor
  · intro h
    exact (h (by simp)).2 rfl
  · intro h _
    rw [h]
    simp

theorem failureReported_error {id : String} {e : GoError} {s : Server} :
    FailureReported id (.error (.error e)) s ↔
      (taskStatus s.db id).map (·.1) = some "failed" := by
  unfold FailureReported
  constructor
  · intro h
    exact (h (by simp)).1.mpr ⟨e, rfl⟩
  · intro h _
    rw [h]
    simp

/-! ## After the deferred function -/

section Handler

variable {id : String} {now : Timestamp} {write : Except GoError Unit} {s : Server}
  {lines : List ReportLine}

theorem taskStatus_updateHandler (hwrite : write = .ok ()) (finalError : Option GoError) :
    taskStatus (updateHandler write id now finalError s).db id =
      finalError.map fun e => ("failed", e.text) := by
  unfold updateHandler
  rw [hwrite]
  cases finalError with
  | none => exact taskStatus_deleteTaskStatus s.db id
  | some e => exact taskStatus_upsertTaskStatus s.db id e.text "failed" now

theorem updateHandler_error {e : GoError} (hwrite : write = .error e)
    (finalError : Option GoError) : updateHandler write id now finalError s = s := by
  unfold updateHandler
  rw [hwrite]
  cases finalError <;> rfl

theorem reported_ok :
    FailureReported id (.ok ()) (reportLines id now lines s) ↔
      (∀ line ∈ lines, line.written = false) ∧ taskStatus s.db id = none := by
  rw [failureReported_ok]
  by_cases hlate : ∀ line ∈ lines, line.written = false
  · rw [taskStatus_noneLate hlate, and_iff_right hlate]
  · have hrunning : ∃ text, taskStatus (reportLines id now lines s).db id = some ("running", text) :=
      taskStatus_lateLines hlate
    obtain ⟨text, hrunning⟩ := hrunning
    simp [hrunning, hlate]

theorem reported_error {e : GoError} :
    FailureReported id (.error (.error e)) (reportLines id now lines s) ↔
      (∀ line ∈ lines, line.written = false) ∧
        (taskStatus s.db id).map (·.1) = some "failed" := by
  rw [failureReported_error]
  by_cases hlate : ∀ line ∈ lines, line.written = false
  · rw [taskStatus_noneLate hlate, and_iff_right hlate]
  · have hrunning : ∃ text, taskStatus (reportLines id now lines s).db id = some ("running", text) :=
      taskStatus_lateLines hlate
    obtain ⟨text, hrunning⟩ := hrunning
    simp [hrunning, hlate]

/-- The normal end is reported unless a line is shown late. -/
theorem reported_cleared (hwrite : write = .ok ()) :
    FailureReported id (.ok ()) (reportLines id now lines (updateHandler write id now none s)) ↔
      ∀ line ∈ lines, line.written = false := by
  rw [reported_ok, taskStatus_updateHandler hwrite]
  simp

theorem reported_recorded (hwrite : write = .ok ()) {e e₀ : GoError} :
    FailureReported id (.error (.error e))
        (reportLines id now lines (updateHandler write id now (some e₀) s)) ↔
      ∀ line ∈ lines, line.written = false := by
  rw [reported_error, taskStatus_updateHandler hwrite]
  simp

theorem not_reported_unrecorded (hwrite : write = .ok ()) (e : GoError) :
    ¬ FailureReported id (.error (.error e))
      (reportLines id now lines (updateHandler write id now none s)) := by
  rw [reported_error, taskStatus_updateHandler hwrite]
  simp

end Handler

/-! ## A new version -/

/-- The statements that create a version leave the task alone. -/
abbrev KeepsTask {α : Type} (id : String) (shown : Option (String × String))
    (m : Body TaskRun α) : Prop :=
  Keeps (fun s => taskStatus s.db id = shown) m

section NewVersion

theorem keepsTask_createNewVersion (id : String) (shown : Option (String × String)) (env : NewVersionEnv) (contexts : NewVersionContexts)
    (appId : AppId) (filesInDir source : String) (currentSequence : Int) :
    KeepsTask id shown
      (createNewVersion env contexts appId filesInDir source currentSequence) := by
  apply keeps_bind
  · apply keeps_call
    intro s hs
    rcases createVersion_cases env.version appId filesInDir source (some currentSequence) s with
      ⟨e, he⟩ | ⟨sequence, tx, htx, -, hcreated⟩
    · rw [he]
      exact hs
    · rw [htx]
      unfold taskStatus at hs ⊢
      dsimp only
      rw [hcreated.apiTaskStatus]
      exact hs
  intro newSequence
  apply keeps_bind
  · apply keeps_call
    intro s hs
    unfold createAppVersionArchive
    split <;> exact hs
  intro _
  apply keeps_call
  intro s hs
  obtain ⟨versions, hversions⟩ := runPreflight_frame env.preflight appId newSequence s
  rw [hversions]
  exact hs

theorem reports_createNewVersion (env : NewVersionEnv) (contexts : NewVersionContexts)
    (appId : AppId) (filesInDir source : String) (currentSequence : Int) :
    (createNewVersion env contexts appId filesInDir source currentSequence).Reports := by
  apply reports_bind (reports_orFinal _ _)
  intro newSequence
  apply reports_bind (reports_orFinal _ _)
  intro _
  exact reports_orFinal _ _

/-- The three steps succeed one after the other. -/
def NewVersionEnv.Succeeds (env : NewVersionEnv) (appId : AppId) (filesInDir source : String)
    (currentSequence : Int) (s : Server) : Prop :=
  ∃ sequence s₁ s₂ s₃,
    createVersion env.version appId filesInDir source (some currentSequence) s =
      (.ok sequence, s₁) ∧
    createAppVersionArchive env.archive appId sequence s₁ = (.ok (), s₂) ∧
    runPreflight env.preflight appId sequence s₂ = (.ok (), s₃)

theorem wp_createNewVersion_ok {env : NewVersionEnv} {contexts : NewVersionContexts}
    {appId : AppId} {filesInDir source : String} {currentSequence : Int} {f : Frame TaskRun} :
    (createNewVersion env contexts appId filesInDir source currentSequence).wp
        (fun result _ => result = .ok ()) f ↔
      env.Succeeds appId filesInDir source currentSequence f.state.server := by
  unfold createNewVersion NewVersionEnv.Succeeds TaskRun.call
  rw [wp_orFinal_bind]
  obtain ⟨e | sequence, s₁⟩ :=
    createVersion env.version appId filesInDir source (some currentSequence) f.state.server
  · simp
  dsimp only
  rw [wp_orFinal_bind]
  dsimp only
  cases harchive : createAppVersionArchive env.archive appId sequence s₁ with
  | mk archived s₂ =>
    cases archived with
    | error e =>
      simp [harchive]
    | ok _ =>
      dsimp only
      rw [wp_orFinal]
      dsimp only
      cases hpreflight : runPreflight env.preflight appId sequence s₂ with
      | mk started s₃ => cases started <;> simp [harchive, hpreflight]

end NewVersion

/-- After a body that reports all its errors, only a line shown late is not reported. -/
theorem wp_failureReported_iff {id : String} {now : Timestamp} {write : Except GoError Unit}
    {m : Body TaskRun Unit} {f : Frame TaskRun} {I : Server → Prop} (hreports : m.Reports)
    (hkeeps : Keeps I m) (hI : I f.state.server) (hwrite : write = .ok ())
    (hf : f.finalError = none) :
    m.wp (fun result f => FailureReported id result
        (reportLines id now f.state.lateLines
          (updateHandler write id now f.finalError f.state.server))) f ↔
      ∀ line ∈ f.state.lateLines, line.written = false := by
  have hend : m.wp (fun result f' => FailureReported id result
      (reportLines id now f'.state.lateLines
        (updateHandler write id now f'.finalError f'.state.server)) ↔
      ∀ line ∈ f.state.lateLines, line.written = false) f := by
    apply wp_of_reports hreports (hkeeps f.state.lateLines) ⟨hI, rfl⟩
    · intro _ f' hf' hfinal
      rw [hfinal, hf, hf'.2]
      exact reported_cleared hwrite
    · intro e e₀ f' hf' hfinal _
      rw [hfinal, hf'.2]
      exact reported_recorded hwrite
  exact hend

theorem failureReported_early {e e₀ : GoError} (id : String) (now : Timestamp) (s : Server) :
    FailureReported id (.error (.error e))
      (reportLines id now [] (updateHandler (.ok ()) id now (some e₀) s)) :=
  (reported_recorded rfl).mpr fun _ hline => by cases hline

/-- The task shows that it is running. -/
def Running (id : String) (r : TaskRun) : Prop :=
  (taskStatus r.server.db id).map (·.1) = some "running"

/-- The status that a task starts with. -/
theorem running_started (s : Server) (id message : String) (now : Timestamp) :
    Running id
      { server := { s with db := upsertTaskStatus s.db id message "running" now } } := by
  unfold Running
  rw [taskStatus_upsertTaskStatus]
  rfl

theorem running_reporting {α : Type} {id : String} {x : Except GoError α} {now : Timestamp}
    {report : Report} {r : TaskRun} (hr : Running id r) :
    Running id (r.reporting x id now report).2 := by
  unfold Running TaskRun.reporting at *
  dsimp only
  rw [taskStatus_reportLines]
  split
  next => rfl
  next => exact hr

theorem running_setTaskStatus {id : String} {write : Except GoError Unit} {message : String} {now : Timestamp}
    {r : TaskRun} (hr : Running id r) :
    Running id (r.call (setTaskStatus write id message "running" now)).2 := by
  unfold Running TaskRun.call setTaskStatus at *
  cases write with
  | error e => exact hr
  | ok _ =>
    dsimp only
    rw [taskStatus_upsertTaskStatus]
    rfl

theorem running_of_keepsTask {id : String} {m : Body TaskRun Unit}
    (h : ∀ shown, KeepsTask id shown m) : m.Preserves (Running id) := by
  intro f hf
  have hend := preserves_state (h (taskStatus f.state.server.db id) f.state.lateLines) f ⟨rfl, rfl⟩
  have hrunning : Running id (m.run f).2.state := by
    unfold Running at hf ⊢
    rw [hend.1]
    exact hf
  generalize m.run f = ending at hrunning ⊢
  obtain ⟨e | a, f'⟩ := ending <;> exact hrunning

/-- When the deferred write fails, a task that shows `running` is not reported. -/
theorem wp_writeFails (id : String) (now : Timestamp) {write : Except GoError Unit} {e : GoError}
    {m : Body TaskRun Unit} {f : Frame TaskRun} (hwrite : write = .error e)
    (hrunning : m.Preserves (Running id)) (hf : Running id f.state) :
    m.wp (fun result f => FailureReported id result
        (reportLines id now f.state.lateLines
          (updateHandler write id now f.finalError f.state.server))) f ↔
      m.wp (fun result _ => result = .error .panic) f := by
  have hend := preserves_state hrunning f hf
  unfold Running at hend
  unfold wp
  dsimp only
  rw [updateHandler_error hwrite]
  generalize m.run f = ending at hend ⊢
  obtain ⟨⟨e₁ | _⟩ | _, f'⟩ := ending
  · rw [reported_error]
    dsimp only at hend ⊢
    rw [hend]
    simp
  · simp [FailureReported]
  · rw [reported_ok]
    dsimp only at hend ⊢
    refine iff_of_false ?_ (by simp)
    rintro ⟨-, hnone⟩
    rw [hnone] at hend
    cases hend

/-- When the deferred write fails, a task that the body leaves alone is reported by chance. -/
theorem wp_writeFails_kept (id : String) (now : Timestamp) {e : GoError} {m : Body TaskRun Unit}
    {f : Frame TaskRun} {shown : Option (String × String)} (hkeeps : KeepsTask id shown m)
    (hshown : taskStatus f.state.server.db id = shown) (hpanic : m.NoPanic) :
    m.wp (fun result f => FailureReported id result
        (reportLines id now f.state.lateLines
          (updateHandler (.error e) id now f.finalError f.state.server))) f ↔
      (∀ line ∈ f.state.lateLines, line.written = false) ∧
        (m.wp (fun result _ => result = .ok ()) f → shown = none) ∧
        (¬ m.wp (fun result _ => result = .ok ()) f → shown.map (·.1) = some "failed") := by
  have hend := preserves_state (hkeeps f.state.lateLines) f ⟨hshown, rfl⟩
  have hnever := hpanic f
  unfold wp
  dsimp only
  rw [updateHandler_error rfl]
  generalize m.run f = ending at hend hnever ⊢
  obtain ⟨⟨e₁ | _⟩ | _, f'⟩ := ending
  · rw [reported_error, hend.1, hend.2]
    simp
  · exact absurd rfl (hnever f')
  · rw [reported_ok, hend.1, hend.2]
    simp

/-! ## RewriteImages -/

/-- Everything before the two unrecorded steps succeeds. -/
def RewriteEnv.Loads (env : RewriteEnv) (appId : AppId) (sequence : Int)
    (configValues : Option String) (s : Server) : Prop :=
  getAppVersionArchive env.downloadArchive s.archives appId sequence = .ok () ∧
    env.loadInstallation = .ok () ∧ (∃ license, env.loadLicense = .ok license) ∧
    ∃ values, previousConfigValues env configValues = .ok values

/-- The first status write fails and the task is `failed` from an earlier run; or the status writes
succeed, and so do the two unrecorded steps, and no line is shown late. -/
def RewriteEnv.Reporting (env : RewriteEnv) (appId : AppId) (sequence : Int)
    (configValues : Option String) (s : Server) : Prop :=
  match env.updatingStatus with
  | .error _ => (taskStatus s.db "image-rewrite").map (·.1) = some "failed"
  | .ok _ =>
    env.writeStatus = .ok () ∧
      (env.Loads appId sequence configValues s →
        env.listDownstreams = .ok () ∧ (∃ a, App.get env.getApp s.db appId = .ok a) ∧
          env.report.NoneLate)

theorem running_rewriteImages (env : RewriteEnv) (appId : AppId) (sequence : Int)
    (options : RewriteImageOptions) (configValues : Option String) :
    (rewriteImagesBody env appId sequence options configValues).Preserves
      (Running "image-rewrite") := by
  refine preserves_bind (preserves_orFinal fun _ hr => hr) fun _ => ?_
  refine preserves_bind (preserves_orFinal fun _ hr => hr) fun _ => ?_
  refine preserves_bind (preserves_orFinal fun _ hr => hr) fun license => ?_
  refine preserves_bind (preserves_orFinal fun _ hr => hr) fun configValues => ?_
  refine preserves_bind (preserves_orReturn fun _ hr => hr) fun downstreams => ?_
  refine preserves_bind (preserves_orReturn fun _ hr => hr) fun a => ?_
  refine preserves_bind (preserves_orFinal fun _ hr => running_reporting hr) fun _ => ?_
  exact running_of_keepsTask fun shown => keepsTask_createNewVersion _ shown _ _ _ _ _ _

theorem noPanic_rewriteImages (env : RewriteEnv) (appId : AppId) (sequence : Int)
    (options : RewriteImageOptions) (configValues : Option String) :
    (rewriteImagesBody env appId sequence options configValues).NoPanic := by
  refine noPanic_bind (noPanic_of_reports (reports_orFinal _ _)) fun _ => ?_
  refine noPanic_bind (noPanic_of_reports (reports_orFinal _ _)) fun _ => ?_
  refine noPanic_bind (noPanic_of_reports (reports_orFinal _ _)) fun license => ?_
  refine noPanic_bind (noPanic_of_reports (reports_orFinal _ _)) fun configValues => ?_
  refine noPanic_bind (noPanic_orReturn _ _) fun downstreams => ?_
  refine noPanic_bind (noPanic_orReturn _ _) fun a => ?_
  refine noPanic_bind (noPanic_of_reports (reports_orFinal _ _)) fun _ => ?_
  exact noPanic_of_reports (reports_createNewVersion _ _ _ _ _ _)

theorem rewriteImages_reported_iff (env : RewriteEnv) (appId : AppId) (sequence : Int)
    (options : RewriteImageOptions) (configValues : Option String) (s : Server) :
    FailureReported "image-rewrite" (rewriteImages env appId sequence options configValues s).1
        (rewriteImages env appId sequence options configValues s).2 ↔
      env.Reporting appId sequence configValues s := by
  unfold rewriteImages setTaskStatus RewriteEnv.Reporting
  obtain e | _ := env.updatingStatus
  · exact failureReported_error
  let s₁ : Server :=
    { s with
      db := upsertTaskStatus s.db "image-rewrite" "Updating registry settings" "running" env.now }
  have hrunning : Running "image-rewrite" { server := s₁ } := running_started s _ _ _
  dsimp only
  refine (runTask_iff_wp _ _ _ _ _ (FailureReported _)).trans ?_
  cases hwrite : env.writeStatus with
  | error e =>
    have hnever := wp_writeFails "image-rewrite" env.now (e := e)
      (f := ⟨{ server := s₁ }, none⟩) rfl
      (running_rewriteImages env appId sequence options configValues) hrunning
    refine hnever.trans (iff_of_false ?_ (by simp))
    exact fun h => noPanic_rewriteImages env appId sequence options configValues _ _
      (Prod.ext h rfl)
  | ok _ =>
    unfold rewriteImagesBody RewriteEnv.Loads
    rw [wp_orFinal_bind]
    unfold TaskRun.query
    dsimp only
    obtain e | _ := getAppVersionArchive env.downloadArchive s.archives appId sequence
    · exact iff_of_true (failureReported_early _ _ _) (by simp)
    dsimp only
    rw [wp_orFinal_bind]
    obtain e | _ := env.loadInstallation
    · exact iff_of_true (failureReported_early _ _ _) (by simp)
    dsimp only [outcome]
    rw [wp_orFinal_bind]
    obtain e | license := env.loadLicense
    · exact iff_of_true (failureReported_early _ _ _) (by simp)
    dsimp only [outcome]
    rw [wp_orFinal_bind]
    obtain e | values := previousConfigValues env configValues
    · exact iff_of_true (failureReported_early _ _ _) (by simp)
    dsimp only [outcome]
    rw [wp_orReturn_bind]
    dsimp only
    unfold listDownstreamsForApp
    obtain e | _ := env.listDownstreams
    · exact iff_of_false (not_reported_unrecorded rfl _) (by simp)
    dsimp only
    rw [wp_orReturn_bind]
    dsimp only
    -- the status write before the body changes no app
    show _ ↔ _ ∧ (_ → _ ∧ (∃ a, App.get env.getApp s₁.db appId = .ok a) ∧ _)
    obtain e | a := App.get env.getApp s₁.db appId
    · exact iff_of_false (not_reported_unrecorded rfl _) (by simp)
    dsimp only
    rw [wp_orFinal_bind]
    unfold TaskRun.reporting
    dsimp only
    obtain e | _ := env.rewrite _ _ _ _ _
    · refine (reported_recorded rfl).trans ?_
      simp [Report.NoneLate]
    · refine (wp_failureReported_iff (reports_createNewVersion _ _ _ _ _ _)
        (keepsTask_createNewVersion "image-rewrite" _ _ _ _ _ _ _) rfl rfl rfl).trans ?_
      simp [Report.NoneLate]

/-! ## UpdateAppFromAirgap -/

/-- The registry settings are missing where they are used. -/
def AirgapUpdateEnv.Panics (env : AirgapUpdateEnv) (a : App) (s : Server) : Prop :=
  getRegistrySettingsForApp env.getRegistrySettings s.db a.id = .ok none ∧ env.cipher = .ok ()

/-- The steps between the first use of the settings and the pull succeed. -/
def AirgapUpdateEnv.Prepares (env : AirgapUpdateEnv) (a : App) (settings : RegistrySettings)
    (s : Server) : Prop :=
  (∃ decoded, env.decode settings.passwordEnc = .ok decoded ∧
    ∃ password, env.decrypt decoded = .ok password) ∧
  getAppVersionArchive env.downloadArchive s.archives a.id a.currentSequence = .ok () ∧
  (∃ before, env.loadBefore = .ok before ∧ before.license ≠ none) ∧
  env.tmpFile = .ok () ∧ env.copyBundle = .ok () ∧ env.extractArchive = .ok () ∧
  env.packageStatus = .ok ()

def AirgapUpdateEnv.ReachesPull (env : AirgapUpdateEnv) (a : App) (s : Server) : Prop :=
  env.cipher = .ok () ∧
    ∃ settings, getRegistrySettingsForApp env.getRegistrySettings s.db a.id =
      .ok (some settings) ∧ env.Prepares a settings s

/-- The first status write fails and the task is `failed` from an earlier run; or the function
panics; or the deferred status write succeeds and no line is shown late. -/
def AirgapUpdateEnv.Reporting (env : AirgapUpdateEnv) (a : App) (s : Server) : Prop :=
  match env.processingStatus with
  | .error _ => (taskStatus s.db "update-download").map (·.1) = some "failed"
  | .ok _ =>
    env.Panics a s ∨ (env.writeStatus = .ok () ∧ (env.ReachesPull a s → env.report.NoneLate))

theorem reports_requireNewer (env : AirgapUpdateEnv) (before after : KotsKinds) (bc ac : String) :
    (requireNewer env before after bc ac).Reports := by
  unfold requireNewer
  split
  next => exact reports_fail _
  next =>
    split
    next => exact reports_fail _
    next => exact reports_pure ()

theorem reports_createFromAirgap (env : AirgapUpdateEnv) (a : App) (before : KotsKinds) :
    (createFromAirgap env a before).Reports := by
  refine reports_bind (reports_orFinal _ _) fun after => ?_
  refine reports_bind (reports_orFinal _ _) fun bc => ?_
  refine reports_bind (reports_orFinal _ _) fun ac => ?_
  refine reports_bind (reports_requireNewer env before after bc ac) fun _ => ?_
  exact reports_createNewVersion _ _ _ _ _ _

theorem reports_requireLicense (kinds : KotsKinds) : (requireLicense kinds).Reports := by
  unfold requireLicense
  split
  next => exact reports_pure _
  next => exact reports_fail _

theorem reports_pullFromAirgap (env : AirgapUpdateEnv) (a : App) (settings : RegistrySettings) :
    (pullFromAirgap env a settings).Reports := by
  refine reports_bind (reports_orFinal _ _) fun decodedPassword => ?_
  refine reports_bind (reports_orFinal _ _) fun password => ?_
  refine reports_bind (reports_orFinal _ _) fun _ => ?_
  refine reports_bind (reports_orFinal _ _) fun before => ?_
  refine reports_bind (reports_requireLicense before) fun license => ?_
  refine reports_bind (reports_orFinal _ _) fun _ => ?_
  refine reports_bind (reports_orFinal _ _) fun _ => ?_
  refine reports_bind (reports_orFinal _ _) fun _ => ?_
  refine reports_bind (reports_orFinal _ _) fun _ => ?_
  refine reports_bind (reports_orFinal _ _) fun _ => ?_
  exact reports_createFromAirgap env a before

theorem keepsTask_createFromAirgap (id : String) (shown : Option (String × String)) (env : AirgapUpdateEnv)
    (a : App) (before : KotsKinds) : KeepsTask id shown (createFromAirgap env a before) := by
  refine keeps_bind keeps_outcome fun after => ?_
  refine keeps_bind keeps_outcome fun bc => ?_
  refine keeps_bind keeps_outcome fun ac => ?_
  refine keeps_bind ?_ fun _ => keepsTask_createNewVersion _ _ _ _ _ _ _ _
  unfold requireNewer
  split
  next => exact keeps_fail _
  next =>
    split
    next => exact keeps_fail _
    next => exact keeps_pure ()

theorem running_pullFromAirgap (env : AirgapUpdateEnv) (a : App) (settings : RegistrySettings) :
    (pullFromAirgap env a settings).Preserves (Running "update-download") := by
  refine preserves_bind (preserves_orFinal fun _ hr => hr) fun decodedPassword => ?_
  refine preserves_bind (preserves_orFinal fun _ hr => hr) fun password => ?_
  refine preserves_bind (preserves_orFinal fun _ hr => hr) fun _ => ?_
  refine preserves_bind (preserves_orFinal fun _ hr => hr) fun before => ?_
  have hlicense : (requireLicense before).Preserves (Running "update-download") := by
    unfold requireLicense
    split
    next => exact preserves_pure _
    next => exact preserves_fail _
  refine preserves_bind hlicense fun license => ?_
  refine preserves_bind (preserves_orFinal fun _ hr => hr) fun _ => ?_
  refine preserves_bind (preserves_orFinal fun _ hr => hr) fun _ => ?_
  refine preserves_bind (preserves_orFinal fun _ hr => hr) fun _ => ?_
  refine preserves_bind (preserves_orFinal fun _ hr => running_setTaskStatus hr) fun _ => ?_
  refine preserves_bind (preserves_orFinal fun _ hr => running_reporting hr) fun _ => ?_
  exact running_of_keepsTask fun shown => keepsTask_createFromAirgap _ shown env a before

theorem running_updateFromAirgap (env : AirgapUpdateEnv) (a : App) :
    (updateFromAirgapBody env a).Preserves (Running "update-download") := by
  refine preserves_bind (preserves_orFinal fun _ hr => hr) fun settings => ?_
  refine preserves_bind (preserves_orFinal fun _ hr => hr) fun _ => ?_
  have hderef : (derefSettings settings).Preserves (Running "update-download") := by
    unfold derefSettings
    split
    next => exact preserves_pure _
    next => exact preserves_panic
  exact preserves_bind hderef fun settings => running_pullFromAirgap env a settings

theorem wp_updateFromAirgap_panics {env : AirgapUpdateEnv} {a : App} {f : Frame TaskRun} :
    (updateFromAirgapBody env a).wp (fun result _ => result = .error .panic) f ↔
      env.Panics a f.state.server := by
  unfold updateFromAirgapBody AirgapUpdateEnv.Panics TaskRun.query
  rw [wp_orFinal_bind]
  dsimp only
  obtain e | settings := getRegistrySettingsForApp env.getRegistrySettings f.state.server.db a.id
  · simp
  dsimp only
  rw [wp_orFinal_bind]
  obtain e | _ := env.cipher
  · simp [outcome]
  dsimp only [outcome]
  rw [wp_bind]
  cases settings with
  | none => exact iff_of_true rfl ⟨rfl, rfl⟩
  | some settings =>
    refine iff_of_false ?_ (by simp)
    exact fun h => noPanic_of_reports (reports_pullFromAirgap env a settings) _ _ (Prod.ext h rfl)

theorem wp_pullFromAirgap (env : AirgapUpdateEnv) (a : App) (settings : RegistrySettings)
    (s : Server) :
    (pullFromAirgap env a settings).wp (fun result f => FailureReported "update-download" result
        (reportLines "update-download" env.now f.state.lateLines
          (updateHandler (.ok ()) "update-download" env.now f.finalError f.state.server)))
        ⟨{ server := s }, none⟩ ↔
      (env.Prepares a settings s → env.report.NoneLate) := by
  unfold pullFromAirgap AirgapUpdateEnv.Prepares
  rw [wp_orFinal_bind]
  obtain e | decoded := env.decode settings.passwordEnc
  · exact iff_of_true (failureReported_early _ _ _) (by simp)
  dsimp only [outcome]
  rw [wp_orFinal_bind]
  cases hdecrypt : env.decrypt decoded with
  | error e => exact iff_of_true (failureReported_early _ _ _) (by simp [hdecrypt])
  | ok password =>
    dsimp only [outcome]
    rw [wp_orFinal_bind]
    unfold TaskRun.query
    dsimp only
    obtain e | _ := getAppVersionArchive env.downloadArchive s.archives a.id a.currentSequence
    · exact iff_of_true (failureReported_early _ _ _) (by simp)
    dsimp only
    rw [wp_orFinal_bind]
    obtain e | before := env.loadBefore
    · exact iff_of_true (failureReported_early _ _ _) (by simp)
    dsimp only [outcome]
    rw [wp_bind]
    unfold requireLicense
    cases hlicense : before.license with
    | none => exact iff_of_true (failureReported_early _ _ _) (by simp [hlicense])
    | some license =>
      dsimp only
      rw [wp_pure]
      dsimp only
      rw [wp_orFinal_bind]
      obtain e | _ := env.tmpFile
      · exact iff_of_true (failureReported_early _ _ _) (by simp)
      dsimp only [outcome]
      rw [wp_orFinal_bind]
      obtain e | _ := env.copyBundle
      · exact iff_of_true (failureReported_early _ _ _) (by simp)
      dsimp only [outcome]
      rw [wp_orFinal_bind]
      obtain e | _ := env.extractArchive
      · exact iff_of_true (failureReported_early _ _ _) (by simp)
      dsimp only [outcome]
      rw [wp_orFinal_bind]
      unfold TaskRun.call setTaskStatus
      obtain e | _ := env.packageStatus
      · exact iff_of_true (failureReported_early _ _ _) (by simp)
      dsimp only
      rw [wp_orFinal_bind]
      unfold TaskRun.reporting
      dsimp only
      obtain e | _ := env.pull _ _ _
      · refine (reported_recorded rfl).trans ?_
        simp [Report.NoneLate, hdecrypt, hlicense]
      · refine (wp_failureReported_iff (reports_createFromAirgap env a before)
          (keepsTask_createFromAirgap "update-download" _ env a before) rfl rfl rfl).trans ?_
        simp [Report.NoneLate, hdecrypt, hlicense]

theorem updateAppFromAirgap_reported_iff (env : AirgapUpdateEnv) (a : App) (s : Server) :
    FailureReported "update-download" (updateAppFromAirgap env a s).1
        (updateAppFromAirgap env a s).2 ↔ env.Reporting a s := by
  unfold updateAppFromAirgap setTaskStatus AirgapUpdateEnv.Reporting
  obtain e | _ := env.processingStatus
  · exact failureReported_error
  let s₁ : Server :=
    { s with
      db := upsertTaskStatus s.db "update-download" "Processing package..." "running" env.now }
  have hrunning : Running "update-download" { server := s₁ } := running_started s _ _ _
  dsimp only
  refine (runTask_iff_wp _ _ _ _ _ (FailureReported _)).trans ?_
  cases hwrite : env.writeStatus with
  | error e =>
    have hpanics := wp_writeFails "update-download" env.now (e := e)
      (f := ⟨{ server := s₁ }, none⟩) rfl (running_updateFromAirgap env a) hrunning
    refine hpanics.trans (wp_updateFromAirgap_panics.trans ?_)
    show env.Panics a s ↔ _
    simp
  | ok _ =>
    -- the status write before the body changes no app
    show _ ↔ env.Panics a s₁ ∨ (_ ∧ (env.ReachesPull a s₁ → _))
    unfold updateFromAirgapBody AirgapUpdateEnv.Panics AirgapUpdateEnv.ReachesPull
    rw [wp_orFinal_bind]
    unfold TaskRun.query
    dsimp only
    obtain e | settings := getRegistrySettingsForApp env.getRegistrySettings s₁.db a.id
    · exact iff_of_true (failureReported_early _ _ _) (by simp)
    dsimp only
    rw [wp_orFinal_bind]
    obtain e | _ := env.cipher
    · exact iff_of_true (failureReported_early _ _ _) (by simp)
    dsimp only [outcome]
    rw [wp_bind]
    cases settings with
    | none => exact iff_of_true (fun h => absurd rfl h) (by simp)
    | some settings =>
      refine (wp_pullFromAirgap env a settings s₁).trans ?_
      simp

/-! ## DownloadUpdate -/

section Download

variable (env : DownloadEnv) (appId : AppId) (archiveDir toCursor : String) (s : Server)

/-- The archive has no license where the pull uses it. -/
def DownloadEnv.Panics : Prop :=
  ∃ before, env.loadBefore = .ok before ∧ before.license = none ∧
    ∃ options, rewriteImageOptions env s.db appId = .ok options

def DownloadEnv.ReachesPull : Prop :=
  ∃ before, env.loadBefore = .ok before ∧ before.license ≠ none ∧
    ∃ options, rewriteImageOptions env s.db appId = .ok options

/-- The steps whose errors are not recorded succeed if they are reached. -/
def DownloadEnv.Recorded : Prop :=
  ∀ before, env.loadBefore = .ok before →
    ∃ options, rewriteImageOptions env s.db appId = .ok options ∧
      ∀ license, before.license = some license →
        env.pull s!"replicated://{license.appSlug}" toCursor options = .ok () →
        ∀ after, env.loadAfter = .ok after → after.updateCursor ≠ before.updateCursor →
          ∃ a, App.get env.getApp s.db appId = .ok a

/-- The steps after the pull succeed. -/
def DownloadEnv.Creates (beforeCursor : String) : Prop :=
  ∃ after, env.loadAfter = .ok after ∧
    (after.updateCursor = beforeCursor ∨
      ∃ a, App.get env.getApp s.db appId = .ok a ∧
        env.newVersion.Succeeds appId archiveDir "Upstream Update" a.currentSequence s)

def DownloadEnv.Succeeds : Prop :=
  ∃ before, env.loadBefore = .ok before ∧
    ∃ options, rewriteImageOptions env s.db appId = .ok options ∧
      ∃ license, before.license = some license ∧
        env.pull s!"replicated://{license.appSlug}" toCursor options = .ok () ∧
        env.Creates appId archiveDir s before.updateCursor

/-- The deferred write succeeds, so do the unrecorded steps, and no line is shown late; or the
write fails, nothing else has changed the task, and it happens to show the outcome already. -/
def DownloadEnv.Reporting : Prop :=
  match env.writeStatus with
  | .ok _ => env.Recorded appId toCursor s ∧ (env.ReachesPull appId s → env.report.NoneLate)
  | .error _ =>
    (env.ReachesPull appId s →
      env.report.NoneLate ∧ ∀ line ∈ env.report.lines, line.written = false) ∧
    (env.Succeeds appId archiveDir toCursor s → taskStatus s.db "update-download" = none) ∧
    (¬ env.Succeeds appId archiveDir toCursor s → ¬ env.Panics appId s →
      (taskStatus s.db "update-download").map (·.1) = some "failed")

variable {env appId archiveDir toCursor s}

theorem keepsTask_createDownloaded (id : String) (shown : Option (String × String))
    (beforeCursor : String) :
    KeepsTask id shown (createDownloaded env appId archiveDir beforeCursor) := by
  refine keeps_bind keeps_outcome fun after => ?_
  split
  next => exact keeps_pure ()
  next =>
    refine keeps_bind (fun _ => preserves_orReturn fun _ hr => hr) fun a => ?_
    exact keepsTask_createNewVersion _ _ _ _ _ _ _ _

theorem noPanic_createDownloaded (beforeCursor : String) :
    (createDownloaded env appId archiveDir beforeCursor).NoPanic := by
  refine noPanic_bind (noPanic_of_reports (reports_orFinal _ _)) fun after => ?_
  split
  next => exact noPanic_pure ()
  next =>
    refine noPanic_bind (noPanic_orReturn _ _) fun a => ?_
    exact noPanic_of_reports (reports_createNewVersion _ _ _ _ _ _)

theorem wp_createDownloaded_ok {beforeCursor : String} {lines : List ReportLine} :
    (createDownloaded env appId archiveDir beforeCursor).wp (fun result _ => result = .ok ())
        ⟨⟨s, lines⟩, none⟩ ↔ env.Creates appId archiveDir s beforeCursor := by
  unfold createDownloaded DownloadEnv.Creates
  rw [wp_orFinal_bind]
  obtain e | after := env.loadAfter
  · simp [outcome]
  dsimp only [outcome]
  by_cases hcursor : after.updateCursor = beforeCursor
  · rw [if_pos hcursor, wp_pure]
    simp [hcursor]
  · rw [if_neg hcursor, wp_orReturn_bind]
    unfold TaskRun.query
    dsimp only
    obtain e | a := App.get env.getApp s.db appId
    · simp [hcursor]
    · refine wp_createNewVersion_ok.trans ?_
      simp [hcursor]

/-- With the deferred write, only `app.Get` and a late line can go unreported here. -/
theorem wp_createDownloaded {beforeCursor : String} {lines : List ReportLine} :
    (createDownloaded env appId archiveDir beforeCursor).wp
        (fun result f => FailureReported "update-download" result
          (reportLines "update-download" env.now f.state.lateLines
            (updateHandler (.ok ()) "update-download" env.now f.finalError f.state.server)))
        ⟨⟨s, lines⟩, none⟩ ↔
      (∀ line ∈ lines, line.written = false) ∧
        ∀ after, env.loadAfter = .ok after → after.updateCursor ≠ beforeCursor →
          ∃ a, App.get env.getApp s.db appId = .ok a := by
  unfold createDownloaded
  rw [wp_orFinal_bind]
  obtain e | after := env.loadAfter
  · refine (reported_recorded rfl).trans ?_
    simp
  dsimp only [outcome]
  by_cases hcursor : after.updateCursor = beforeCursor
  · rw [if_pos hcursor, wp_pure]
    refine (reported_cleared rfl).trans ?_
    simp [hcursor]
  · rw [if_neg hcursor, wp_orReturn_bind]
    unfold TaskRun.query
    dsimp only
    obtain e | a := App.get env.getApp s.db appId
    · exact iff_of_false (not_reported_unrecorded rfl _) (by simp [hcursor])
    · refine (wp_failureReported_iff (reports_createNewVersion _ _ _ _ _ _)
        (keepsTask_createNewVersion "update-download" _ _ _ _ _ _ _) rfl rfl rfl).trans ?_
      simp

theorem downloadUpdate_reported_of_write (hwrite : env.writeStatus = .ok ()) :
    FailureReported "update-download" (downloadUpdate env appId archiveDir toCursor s).1
        (downloadUpdate env appId archiveDir toCursor s).2 ↔
      env.Recorded appId toCursor s ∧ (env.ReachesPull appId s → env.report.NoneLate) := by
  unfold downloadUpdate
  rw [hwrite]
  refine (runTask_iff_wp _ _ _ _ _ (FailureReported _)).trans ?_
  unfold downloadUpdateBody DownloadEnv.Recorded DownloadEnv.ReachesPull
  rw [wp_orFinal_bind]
  obtain e | before := env.loadBefore
  · exact iff_of_true (failureReported_early _ _ _) (by simp)
  dsimp only [outcome]
  rw [wp_orReturnErr_bind]
  unfold TaskRun.query
  dsimp only
  obtain e | options := rewriteImageOptions env s.db appId
  · exact iff_of_false (not_reported_unrecorded rfl _) (by simp)
  dsimp only
  rw [wp_bind]
  unfold licenseAppSlug
  cases hlicense : before.license with
  | none => exact iff_of_true (fun h => absurd rfl h) (by simp [hlicense])
  | some license =>
    dsimp only
    rw [wp_pure]
    dsimp only
    rw [wp_orFinal_bind]
    unfold TaskRun.reporting
    dsimp only
    cases hpull : env.pull s!"replicated://{license.appSlug}" toCursor options with
    | error e =>
      refine (reported_recorded rfl).trans ?_
      simp [Report.NoneLate, hlicense, hpull]
    | ok _ =>
      refine wp_createDownloaded.trans ?_
      have happ : (reportLines "update-download" env.now env.report.lines s).db.app = s.db.app := by
        rw [reportLines_frame]
      simp only [App.get, happ]
      simp [Report.NoneLate, hlicense, hpull, and_comm]

theorem downloadUpdate_reported_of_writeFails {e : GoError} (hwrite : env.writeStatus = .error e) :
    FailureReported "update-download" (downloadUpdate env appId archiveDir toCursor s).1
        (downloadUpdate env appId archiveDir toCursor s).2 ↔
      (env.ReachesPull appId s →
        env.report.NoneLate ∧ ∀ line ∈ env.report.lines, line.written = false) ∧
      (env.Succeeds appId archiveDir toCursor s → taskStatus s.db "update-download" = none) ∧
      (¬ env.Succeeds appId archiveDir toCursor s → ¬ env.Panics appId s →
        (taskStatus s.db "update-download").map (·.1) = some "failed") := by
  unfold downloadUpdate
  rw [hwrite]
  refine (runTask_iff_wp _ _ _ _ _ (FailureReported _)).trans ?_
  have hfails : ∀ e₁ e₀, FailureReported "update-download" (.error (.error e₁))
      (reportLines "update-download" env.now []
        (updateHandler (.error e) "update-download" env.now e₀ s)) ↔
      (taskStatus s.db "update-download").map (·.1) = some "failed" := by
    intro e₁ e₀
    rw [reported_error, updateHandler_error rfl]
    simp
  unfold downloadUpdateBody DownloadEnv.Succeeds DownloadEnv.ReachesPull DownloadEnv.Panics
  rw [wp_orFinal_bind]
  obtain e | before := env.loadBefore
  · exact (hfails _ _).trans (by simp)
  dsimp only [outcome]
  rw [wp_orReturnErr_bind]
  unfold TaskRun.query
  dsimp only
  obtain e | options := rewriteImageOptions env s.db appId
  · exact (hfails _ _).trans (by simp)
  dsimp only
  rw [wp_bind]
  unfold licenseAppSlug
  cases hlicense : before.license with
  | none => exact iff_of_true (fun h => absurd rfl h) (by simp [hlicense])
  | some license =>
    dsimp only
    rw [wp_pure]
    dsimp only
    rw [wp_orFinal_bind]
    unfold TaskRun.reporting
    dsimp only
    by_cases hwritten : ∀ line ∈ env.report.lines, line.written = false
    · rw [reportLines_noneWritten hwritten, and_iff_left hwritten]
      cases hpull : env.pull s!"replicated://{license.appSlug}" toCursor options with
      | error e₁ =>
        refine (reported_error.trans (by rw [updateHandler_error rfl])).trans ?_
        simp [Report.NoneLate, hlicense, hpull]
      | ok _ =>
        refine (wp_writeFails_kept "update-download" env.now
          (keepsTask_createDownloaded _ _ before.updateCursor) rfl
          (noPanic_createDownloaded before.updateCursor)).trans ?_
        rw [wp_createDownloaded_ok]
        simp [Report.NoneLate, hlicense, hpull]
    · have hrunning : ∃ text, taskStatus
          (reportLines "update-download" env.now env.report.lines s).db "update-download" =
            some ("running", text) := taskStatus_lateLines hwritten
      obtain ⟨text, hrunning⟩ := hrunning
      have hcondition : ¬ (env.report.NoneLate ∧
          ∀ line ∈ env.report.lines, line.written = false) := fun h => hwritten h.2
      refine iff_of_false ?_ fun h => hcondition (h.1 ⟨before, rfl, by simp [hlicense], options, rfl⟩)
      obtain e₁ | _ := env.pull s!"replicated://{license.appSlug}" toCursor options
      · intro h
        have hfailed := (reported_error.mp h).2
        rw [updateHandler_error rfl, hrunning] at hfailed
        simp at hfailed
      · intro h
        have hkept := (wp_writeFails_kept "update-download" env.now
          (keepsTask_createDownloaded _ _ before.updateCursor) hrunning
          (noPanic_createDownloaded before.updateCursor)).mp h
        by_cases hcreates : Body.wp (createDownloaded env appId archiveDir before.updateCursor)
            (fun result _ => result = .ok ())
            ⟨⟨reportLines "update-download" env.now env.report.lines s, env.report.lateLines⟩, none⟩
        · cases hkept.2.1 hcreates
        · have hfailed := hkept.2.2 hcreates
          simp at hfailed

theorem downloadUpdate_reported_iff (env : DownloadEnv) (appId : AppId)
    (archiveDir toCursor : String) (s : Server) :
    FailureReported "update-download" (downloadUpdate env appId archiveDir toCursor s).1
        (downloadUpdate env appId archiveDir toCursor s).2 ↔
      env.Reporting appId archiveDir toCursor s := by
  unfold DownloadEnv.Reporting
  cases hwrite : env.writeStatus with
  | ok _ => exact downloadUpdate_reported_of_write hwrite
  | error e => exact downloadUpdate_reported_of_writeFails hwrite

end Download

/-- **Background updates.**  When each of the three functions reports its outcome. -/
theorem failureReported_iff (s : Server) :
    (∀ (env : DownloadEnv) appId archiveDir toCursor,
      FailureReported "update-download" (downloadUpdate env appId archiveDir toCursor s).1
          (downloadUpdate env appId archiveDir toCursor s).2 ↔
        env.Reporting appId archiveDir toCursor s) ∧
    (∀ (env : RewriteEnv) appId sequence options configValues,
      FailureReported "image-rewrite"
          (rewriteImages env appId sequence options configValues s).1
          (rewriteImages env appId sequence options configValues s).2 ↔
        env.Reporting appId sequence configValues s) ∧
    (∀ (env : AirgapUpdateEnv) a,
      FailureReported "update-download" (updateAppFromAirgap env a s).1
          (updateAppFromAirgap env a s).2 ↔ env.Reporting a s) :=
  ⟨fun env appId archiveDir toCursor =>
      downloadUpdate_reported_iff env appId archiveDir toCursor s,
    fun env appId sequence options configValues =>
      rewriteImages_reported_iff env appId sequence options configValues s,
    fun env a => updateAppFromAirgap_reported_iff env a s⟩

def settingsFailEnv : DownloadEnv where
  loadBefore := .ok { updateCursor := "1", license := some { appSlug := "app" } }
  getRegistrySettings := .error { cause := "connection refused" }
  loadAfter := .ok { updateCursor := "2" }
  newVersion :=
    { version := { loadKotsKindsFromPath := fun _ => .ok {} }
      preflight := { loadKotsKinds := .ok {} } }

/-- The registry settings cannot be read: an error is returned and the task is cleared. -/
theorem not_failureReported_settingsFail :
    ¬ FailureReported "update-download" (downloadUpdate settingsFailEnv "app" "/tmp" "2" {}).1
      (downloadUpdate settingsFailEnv "app" "/tmp" "2" {}).2 := by
  intro h
  have hfailed := (h (by decide)).1.mpr ⟨_, rfl⟩
  revert hfailed
  decide

end Kotsadm.Flows
