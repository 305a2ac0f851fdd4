import Kotsadm.Flows.Install

/-!
# InstallOutcome — what an installation reports

After `CreateAppFromOnline` and `CreateAppFromAirgap` the install state and the install task are to
say what the function returned.  They do unless an error was returned without being recorded, or
the scanner goroutine shows a line after the deferred function.
-/

namespace Kotsadm.Flows

open Version Body

/-- The install state and the task tell the result; `before` is the database at the call. -/
def InstallReported {α : Type} (id : String) (errorState : InstallState) (appId : AppId)
    (before : Database) (result : Except Abort α) (s : Server) : Prop :=
  match result with
  | .ok _ =>
    installState s.db appId = (installState before appId).map (fun _ => .installed) ∧
      taskStatus s.db id = none
  | .error (.error e) =>
    installState s.db appId = (installState before appId).map (fun _ => errorState) ∧
      ∃ e₀, e.Wraps e₀ ∧ taskStatus s.db id = some ("failed", e₀.text)
  -- a panic returns nothing
  | .error .panic => True

/-! ## After the deferred function -/

/-- The app has a row if it had one at the call. -/
def SameApp (appId : AppId) (before db : Database) : Prop :=
  (db.app.find? appId).isSome = (before.app.find? appId).isSome

section Handler

variable {α : Type} {env : HandlerEnv} {id : String} {now : Timestamp} {appId : AppId}
  {errorState : InstallState} {before : Database} {s : Server} {lines : List ReportLine}

theorem installState_handler (henv : env.installState = .ok ()) (hs : SameApp appId before s.db)
    (finalError : Option GoError) :
    installState (reportLines id now lines
        (installHandler env id now appId errorState finalError s)).db appId =
      (installState before appId).map fun _ =>
        if finalError.isSome then errorState else .installed := by
  have hsame : ∀ status : InstallState, (installState s.db appId).map (fun _ => status) =
      (installState before appId).map fun _ => status := by
    intro status
    unfold SameApp at hs
    unfold installState
    cases hdb : s.db.app.find? appId <;> cases hbefore : before.app.find? appId <;>
      simp [hdb, hbefore] at hs ⊢
  rw [reportLines_frame]
  unfold installHandler
  rw [henv]
  cases finalError with
  | none =>
    show installState (setAppInstallState (.ok ()) appId .installed
      (clearTaskStatus env.taskStatus id s).2).2.db appId = _
    rw [installState_setAppInstallState, ← hsame]
    unfold clearTaskStatus
    cases env.taskStatus <;> rfl
  | some e =>
    show installState (setAppInstallState (.ok ()) appId errorState
      (setTaskStatus env.taskStatus id e.text "failed" now s).2).2.db appId = _
    rw [installState_setAppInstallState, ← hsame]
    unfold setTaskStatus
    cases env.taskStatus <;> rfl

theorem taskStatus_handler (henv : env.taskStatus = .ok ()) (finalError : Option GoError) :
    taskStatus (installHandler env id now appId errorState finalError s).db id =
      finalError.map fun e => ("failed", e.text) := by
  have hframe : ∀ status s, taskStatus (setAppInstallState env.installState appId status s).2.db id =
      taskStatus s.db id := by
    intro status s
    unfold setAppInstallState updateApp
    cases env.installState <;> rfl
  unfold installHandler
  rw [henv]
  cases finalError with
  | none => exact (hframe _ _).trans (taskStatus_deleteTaskStatus s.db id)
  | some e => exact (hframe _ _).trans (taskStatus_upsertTaskStatus s.db id e.text "failed" now)

variable (htask : env.taskStatus = .ok ()) (hstate : env.installState = .ok ())
  (hs : SameApp appId before s.db)

include htask hstate hs

theorem installReported_ok (a : α) :
    InstallReported id errorState appId before (.ok a)
        (reportLines id now lines (installHandler env id now appId errorState none s)) ↔
      ∀ line ∈ lines, line.written = false := by
  have hinstall : installState (reportLines id now lines
      (installHandler env id now appId errorState none s)).db appId =
        (installState before appId).map fun _ => .installed := installState_handler hstate hs none
  unfold InstallReported
  dsimp only
  rw [hinstall, and_iff_right rfl]
  constructor
  · intro hnone
    by_contra hlate
    obtain ⟨text, hrunning⟩ := taskStatus_lateLines hlate
    rw [hrunning] at hnone
    cases hnone
  · intro hlate
    rw [taskStatus_noneLate hlate]
    exact taskStatus_handler htask none

/-- A recorded error is reported unless a line is shown late. -/
theorem installReported_recorded {e e₀ : GoError} (hwraps : e.Wraps e₀) :
    InstallReported (α := α) id errorState appId before (.error (.error e))
        (reportLines id now lines (installHandler env id now appId errorState (some e₀) s)) ↔
      ∀ line ∈ lines, line.written = false := by
  have hinstall : installState (reportLines id now lines
      (installHandler env id now appId errorState (some e₀) s)).db appId =
        (installState before appId).map fun _ => errorState :=
    installState_handler hstate hs (some e₀)
  unfold InstallReported
  dsimp only
  rw [hinstall, and_iff_right rfl]
  constructor
  · rintro ⟨e₁, -, hfailed⟩
    by_contra hlate
    obtain ⟨text, hrunning⟩ := taskStatus_lateLines hlate
    rw [hrunning, Option.some.injEq, Prod.mk.injEq] at hfailed
    have hne : "running" ≠ "failed" := by decide
    exact hne hfailed.1
  · intro hlate
    refine ⟨e₀, hwraps, ?_⟩
    rw [taskStatus_noneLate hlate]
    exact taskStatus_handler htask (some e₀)

theorem installReported_early {e e₀ : GoError} (hwraps : e.Wraps e₀) :
    InstallReported (α := α) id errorState appId before (.error (.error e))
      (reportLines id now [] (installHandler env id now appId errorState (some e₀) s)) :=
  (installReported_recorded htask hstate hs hwraps).mpr fun _ hline => by cases hline

omit hstate hs in
/-- An error that is returned without being recorded is never reported. -/
theorem not_installReported_unrecorded (e : GoError) :
    ¬ InstallReported (α := α) id errorState appId before (.error (.error e))
      (reportLines id now lines (installHandler env id now appId errorState none s)) := by
  rintro ⟨-, e₀, -, hfailed⟩
  by_cases hlate : ∀ line ∈ lines, line.written = false
  · rw [taskStatus_noneLate hlate, taskStatus_handler htask] at hfailed
    cases hfailed
  · obtain ⟨text, hrunning⟩ := taskStatus_lateLines hlate
    rw [hrunning, Option.some.injEq, Prod.mk.injEq] at hfailed
    have hne : "running" ≠ "failed" := by decide
    exact hne hfailed.1

end Handler

/-! ## After the pull -/

section Installed

variable {appId : AppId} {before : Database}

/-- The statements of an installation neither add nor remove an app. -/
abbrev KeepsApp {α : Type} (appId : AppId) (before : Database) (m : Body TaskRun α) : Prop :=
  Keeps (fun s => SameApp appId before s.db) m

theorem sameApp_updateWhere {db : Database} (h : SameApp appId before db) (p : AppRow → Bool)
    (set : AppRow → AppRow) (hset : ∀ r, (set r).id = r.id) :
    SameApp appId before { db with app := db.app.updateWhere p set hset } := by
  unfold SameApp at h ⊢
  rw [Keyed.find?_updateWhere, Option.isSome_map]
  exact h

theorem sameApp_updateApp {s : Server} (h : SameApp appId before s.db)
    (result : Except GoError Unit) (id : AppId) (set : AppRow → AppRow)
    (hset : ∀ r, (set r).id = r.id) :
    SameApp appId before (updateApp result id set hset s).2.db := by
  unfold updateApp
  split
  next => exact h
  next => exact sameApp_updateWhere h _ _ _

theorem sameApp_createVersion {s : Server} (h : SameApp appId before s.db) (env : VersionEnv)
    (id : AppId) (filesInDir source : String) (currentSequence : Option Int) :
    SameApp appId before (createVersion env id filesInDir source currentSequence s).2.db := by
  rcases createVersion_cases env id filesInDir source currentSequence s with
    ⟨e, he⟩ | ⟨sequence, tx, htx, -, hcreated⟩
  · rw [he]
    exact h
  · rw [htx]
    obtain ⟨name, icon, happ⟩ := hcreated.app
    have hupdated := sameApp_updateWhere h (fun r => r.id = id)
      (fun r => { r with currentSequence := some sequence, name, iconUri := icon }) fun _ => rfl
    unfold SameApp at hupdated ⊢
    dsimp only
    rw [happ]
    exact hupdated

theorem keepsApp_createDownstreams (env : DownstreamsEnv) (id : AppId) :
    KeepsApp appId before (createDownstreams env id) := by
  apply keeps_bind keeps_query
  intro clusters
  apply keeps_bind (keeps_forEach fun _ => keeps_outcome)
  intro _
  apply keeps_forEach
  intro cluster
  apply keeps_call
  intro s hs
  unfold insertAppDownstream
  split <;> exact hs

theorem reports_createDownstreams (env : DownstreamsEnv) (id : AppId) :
    (createDownstreams env id).Reports := by
  apply reports_bind (reports_orFinal _ _)
  intro clusters
  apply reports_bind (reports_forEach fun _ _ => reports_orFinal _ _)
  intro _
  exact reports_forEach fun _ _ => reports_orFinal _ _

theorem sameApp_createAppVersionArchive {s : Server} (h : SameApp appId before s.db)
    (packed : Except GoError String) (id : AppId) (sequence : Int) :
    SameApp appId before (createAppVersionArchive packed id sequence s).2.db := by
  unfold createAppVersionArchive
  split <;> exact h

theorem keepsApp_installOnline (env : OnlineEnv) (pendingApp : PendingApp) :
    KeepsApp appId before (installOnline env pendingApp) := by
  apply keeps_bind (keepsApp_createDownstreams env.downstreams pendingApp.id)
  intro _
  apply keeps_bind (keeps_call fun s hs => sameApp_updateApp hs _ _ _ _)
  intro _
  apply keeps_bind (keeps_call fun s hs => sameApp_createVersion hs _ _ _ _ _)
  intro newSequence
  apply keeps_bind (keeps_call fun s hs => sameApp_createAppVersionArchive hs _ _ _)
  intro _
  exact keeps_outcome

theorem reports_installOnline (env : OnlineEnv) (pendingApp : PendingApp) :
    (installOnline env pendingApp).Reports := by
  apply reports_bind (reports_createDownstreams env.downstreams pendingApp.id)
  intro _
  apply reports_bind (reports_orFinal _ _)
  intro _
  apply reports_bind (reports_orFinal _ _)
  intro newSequence
  apply reports_bind (reports_orFinal _ _)
  intro _
  exact reports_orFinal _ _

theorem keepsApp_installAirgap (env : AirgapEnv) (pendingApp : PendingApp)
    (registry : RegistryArgs) : KeepsApp appId before (installAirgap env pendingApp registry) := by
  apply keeps_bind (keepsApp_createDownstreams env.downstreams pendingApp.id)
  intro _
  apply keeps_bind keeps_query
  intro a
  apply keeps_bind
  · apply keeps_call
    intro s hs
    unfold updateRegistry
    split
    next => exact hs
    next => exact sameApp_updateApp hs _ _ _ _
  intro _
  apply keeps_bind (keeps_call fun s hs => sameApp_updateApp hs _ _ _ _)
  intro _
  apply keeps_bind (keeps_call fun s hs => sameApp_createVersion hs _ _ _ _ _)
  intro newSequence
  exact keeps_call fun s hs => sameApp_createAppVersionArchive hs _ _ _

theorem reports_installAirgap (env : AirgapEnv) (pendingApp : PendingApp)
    (registry : RegistryArgs) : (installAirgap env pendingApp registry).Reports := by
  apply reports_bind (reports_createDownstreams env.downstreams pendingApp.id)
  intro _
  apply reports_bind (reports_orFinal _ _)
  intro a
  apply reports_bind (reports_orFinal _ _)
  intro _
  apply reports_bind (reports_orFinal _ _)
  intro _
  apply reports_bind (reports_orFinal _ _)
  intro newSequence
  exact reports_orFinal _ _

end Installed

/-- A body that reports all its errors is reported unless a line is shown late. -/
theorem wp_installReported_iff {α : Type} {env : HandlerEnv} (id : String) (now : Timestamp)
    {appId : AppId} (errorState : InstallState) {before : Database} {m : Body TaskRun α}
    {f : Frame TaskRun} (hreports : m.Reports) (hkeeps : KeepsApp appId before m)
    (htask : env.taskStatus = .ok ()) (hstate : env.installState = .ok ())
    (hf : f.finalError = none) (hs : SameApp appId before f.state.server.db) :
    m.wp (fun result f => InstallReported id errorState appId before result
        (reportLines id now f.state.lateLines
          (installHandler env id now appId errorState f.finalError f.state.server))) f ↔
      ∀ line ∈ f.state.lateLines, line.written = false := by
  have hend : m.wp (fun result f' => InstallReported id errorState appId before result
      (reportLines id now f'.state.lateLines
        (installHandler env id now appId errorState f'.finalError f'.state.server)) ↔
      ∀ line ∈ f.state.lateLines, line.written = false) f := by
    apply wp_of_reports hreports (hkeeps f.state.lateLines) ⟨hs, rfl⟩
    · intro a f' hf' hfinal
      rw [hfinal, hf, hf'.2]
      exact installReported_ok htask hstate hf'.1 a
    · intro e e₀ f' hf' hfinal hwraps
      rw [hfinal, hf'.2]
      exact installReported_recorded htask hstate hf'.1 hwraps
  exact hend

/-! ## The condition -/

/-- Everything before the pull of `CreateAppFromOnline` succeeds, its first step apart. -/
def OnlineEnv.ReachesPull (env : OnlineEnv) : Prop :=
  env.writeLicense = .ok () ∧ env.tmpRoot = .ok () ∧
    ∃ configValues, env.readConfigValues = .ok configValues ∧
      (configValues ≠ "" → env.configFile = .ok () ∧ env.writeConfigValues = .ok ())

/-- The two steps whose errors are not recorded succeed, and no line is shown late. -/
def OnlineEnv.Reporting (env : OnlineEnv) (upstreamURI : String) : Prop :=
  env.licenseFile = .ok () ∧
    (env.ReachesPull → env.pull upstreamURI = .ok () ∧ env.report.NoneLate)

def AirgapEnv.ReachesPull (env : AirgapEnv) (pendingApp : PendingApp) : Prop :=
  env.setIsAirgap = .ok () ∧ env.tmpFile = .ok () ∧ env.copyBundle = .ok () ∧
    env.extractArchive = .ok () ∧ env.packageStatus = .ok () ∧ env.workspace = .ok () ∧
    env.extractAppRelease = .ok () ∧ env.tmpRoot = .ok () ∧
    (∃ license, env.decode pendingApp.licenseData = .ok (some license)) ∧
    env.licenseFile = .ok () ∧ env.writeLicense = .ok ()

def AirgapEnv.Reporting (env : AirgapEnv) (pendingApp : PendingApp) : Prop :=
  env.ReachesPull pendingApp → env.report.NoneLate

def HandlerEnv.Succeeds (env : HandlerEnv) : Prop :=
  env.taskStatus = .ok () ∧ env.installState = .ok ()

/-- The writes of the status before and after the body, which the property assumes to succeed. -/
def OnlineEnv.StatusWritesSucceed (env : OnlineEnv) : Prop :=
  env.uploadingStatus = .ok () ∧ env.handler.Succeeds

def AirgapEnv.StatusWritesSucceed (env : AirgapEnv) : Prop :=
  env.processingStatus = .ok () ∧ env.handler.Succeeds

theorem wp_writeConfigValues {env : OnlineEnv} {configValues : String}
    {Q : Except Abort Unit → Frame TaskRun → Prop} {f : Frame TaskRun}
    (herror : ∀ e context, Q (.error (.error (e.wrap context))) ⟨f.state, some e⟩) :
    (writeConfigValues env configValues).wp Q f ↔
      ((configValues ≠ "" → env.configFile = .ok () ∧ env.writeConfigValues = .ok ()) →
        Q (.ok ()) f) := by
  unfold writeConfigValues
  by_cases hempty : configValues = ""
  · rw [if_pos hempty, wp_pure]
    simp [hempty]
  · rw [if_neg hempty, wp_orFinal_bind]
    cases env.configFile with
    | error e => exact iff_of_true (herror e _) (by simp [hempty])
    | ok _ =>
      dsimp only [outcome]
      rw [wp_orFinal]
      cases env.writeConfigValues with
      | error e => exact iff_of_true (herror e _) (by simp [hempty])
      | ok _ => simp [outcome]

theorem online_reported_iff {env : OnlineEnv} (henv : env.StatusWritesSucceed)
    (pendingApp : PendingApp) (upstreamURI : String) (s : Server) :
    InstallReported "online-install" .installError pendingApp.id s.db
        (createAppFromOnline env pendingApp upstreamURI s).1
        (createAppFromOnline env pendingApp upstreamURI s).2 ↔
      env.Reporting upstreamURI := by
  obtain ⟨huploading, htask, hstate⟩ := henv
  let s₁ : Server :=
    { s with db := upsertTaskStatus s.db "online-install" "Uploading license..." "running" env.now }
  have hs₁ : SameApp pendingApp.id s.db s₁.db := rfl
  have hearly : ∀ e context,
      InstallReported (α := KotsKinds) "online-install" .installError pendingApp.id s.db
        (.error (.error (e.wrap context))) (reportLines "online-install" env.now []
          (installHandler env.handler "online-install" env.now pendingApp.id .installError (some e)
            s₁)) :=
    fun e context => installReported_early htask hstate hs₁ (e.wraps_wrap context)
  unfold createAppFromOnline setTaskStatus
  rw [huploading]
  refine (runTask_iff_wp _ _ _ _ _ (InstallReported _ _ _ s.db)).trans ?_
  unfold pullOnline OnlineEnv.Reporting OnlineEnv.ReachesPull
  rw [wp_bind, wp_orReturn_bind]
  obtain e | _ := env.licenseFile
  · exact iff_of_false (not_installReported_unrecorded htask _) (by simp)
  dsimp only [outcome]
  rw [wp_orFinal_bind]
  obtain e | _ := env.writeLicense
  · exact iff_of_true (hearly e _) (by simp)
  dsimp only [outcome]
  rw [wp_orFinal_bind]
  obtain e | _ := env.tmpRoot
  · exact iff_of_true (hearly e _) (by simp)
  dsimp only [outcome]
  rw [wp_orFinal_bind]
  obtain e | configValues := env.readConfigValues
  · exact iff_of_true (hearly e _) (by simp)
  dsimp only [outcome]
  rw [wp_bind, wp_writeConfigValues fun e context => hearly e context]
  dsimp only
  rw [wp_orReturn]
  unfold TaskRun.reporting
  obtain e | _ := env.pull upstreamURI
  · constructor
    · intro h
      refine ⟨rfl, fun ⟨_, _, values, hvalues, hconfig⟩ => ?_⟩
      cases hvalues
      exact absurd (h hconfig) (not_installReported_unrecorded htask _)
    · rintro ⟨-, h⟩ hconfig
      cases (h ⟨rfl, rfl, configValues, rfl, hconfig⟩).1
  have hs₂ : SameApp pendingApp.id s.db
      (reportLines "online-install" env.now env.report.lines s₁).db := by
    rw [reportLines_frame]
    exact hs₁
  have hrest := wp_installReported_iff "online-install" env.now .installError
    (f := ⟨⟨_, env.report.lateLines⟩, none⟩) (reports_installOnline env pendingApp)
    (keepsApp_installOnline env pendingApp) htask hstate rfl hs₂
  constructor
  · intro h
    refine ⟨rfl, fun ⟨_, _, values, hvalues, hconfig⟩ => ⟨rfl, ?_⟩⟩
    cases hvalues
    exact hrest.mp (h hconfig)
  · rintro ⟨-, h⟩ hconfig
    exact hrest.mpr (h ⟨rfl, rfl, configValues, rfl, hconfig⟩).2

theorem airgap_reported_iff {env : AirgapEnv} (henv : env.StatusWritesSucceed)
    (pendingApp : PendingApp) (registry : RegistryArgs) (s : Server) :
    InstallReported "airgap-install" .airgapUploadError pendingApp.id s.db
        (createAppFromAirgap env pendingApp registry s).1
        (createAppFromAirgap env pendingApp registry s).2 ↔
      env.Reporting pendingApp := by
  obtain ⟨hprocessing, htask, hstate⟩ := henv
  let s₁ : Server :=
    { s with db := upsertTaskStatus s.db "airgap-install" "Processing package..." "running" env.now }
  have hs₁ : SameApp pendingApp.id s.db s₁.db := rfl
  unfold createAppFromAirgap setTaskStatus
  rw [hprocessing]
  refine (runTask_iff_wp _ _ _ _ _ (InstallReported _ _ _ s.db)).trans ?_
  have hearly : ∀ s₂ : Server, SameApp pendingApp.id s.db s₂.db → ∀ e context,
      InstallReported (α := Unit) "airgap-install" .airgapUploadError pendingApp.id s.db
        (.error (.error (e.wrap context))) (reportLines "airgap-install" env.now []
          (installHandler env.handler "airgap-install" env.now pendingApp.id .airgapUploadError
            (some e) s₂)) :=
    fun s₂ hs₂ e context => installReported_early htask hstate hs₂ (e.wraps_wrap context)
  let s₂ := (setIsAirgap (.ok ()) pendingApp.id s₁).2
  have hs₂ : SameApp pendingApp.id s.db s₂.db := sameApp_updateApp hs₁ _ _ _ _
  let s₃ := (setTaskStatus (.ok ()) "airgap-install" "Processing app package..." "running" env.now
    s₂).2
  have hs₃ : SameApp pendingApp.id s.db s₃.db := hs₂
  unfold pullAirgap AirgapEnv.Reporting AirgapEnv.ReachesPull
  rw [wp_bind, wp_orFinal_bind]
  obtain e | _ := env.setIsAirgap
  · exact iff_of_true (hearly s₁ hs₁ e _) (by simp)
  show Body.wp _ _ (⟨⟨s₂, []⟩, none⟩ : Frame TaskRun) ↔ _
  rw [wp_orFinal_bind]
  obtain e | _ := env.tmpFile
  · exact iff_of_true (hearly s₂ hs₂ e _) (by simp)
  dsimp only [outcome]
  rw [wp_orFinal_bind]
  obtain e | _ := env.copyBundle
  · exact iff_of_true (hearly s₂ hs₂ e _) (by simp)
  dsimp only [outcome]
  rw [wp_orFinal_bind]
  obtain e | _ := env.extractArchive
  · exact iff_of_true (hearly s₂ hs₂ e _) (by simp)
  dsimp only [outcome]
  rw [wp_orFinal_bind]
  obtain e | _ := env.packageStatus
  · exact iff_of_true (hearly s₂ hs₂ _ _) (by simp)
  show Body.wp _ _ (⟨⟨s₃, []⟩, none⟩ : Frame TaskRun) ↔ _
  rw [wp_orFinal_bind]
  obtain e | _ := env.workspace
  · exact iff_of_true (hearly s₃ hs₃ e _) (by simp)
  dsimp only [outcome]
  rw [wp_orFinal_bind]
  obtain e | _ := env.extractAppRelease
  · exact iff_of_true (hearly s₃ hs₃ e _) (by simp)
  dsimp only [outcome]
  rw [wp_orFinal_bind]
  obtain e | _ := env.tmpRoot
  · exact iff_of_true (hearly s₃ hs₃ e _) (by simp)
  dsimp only [outcome]
  rw [wp_orFinal_bind]
  obtain e | obj := env.decode pendingApp.licenseData
  · exact iff_of_true (hearly s₃ hs₃ e _) (by simp)
  dsimp only [outcome]
  rw [wp_bind]
  obtain _ | license := obj
  · exact iff_of_true trivial (by simp)
  rw [show assertLicense (some license) = pure license from rfl, wp_pure]
  dsimp only
  rw [wp_orFinal_bind]
  obtain e | _ := env.licenseFile
  · exact iff_of_true (hearly s₃ hs₃ e _) (by simp)
  dsimp only [outcome]
  rw [wp_orFinal_bind]
  obtain e | _ := env.writeLicense
  · exact iff_of_true (hearly s₃ hs₃ e _) (by simp)
  dsimp only [outcome]
  rw [wp_orFinal]
  unfold TaskRun.reporting
  have hs₄ : SameApp pendingApp.id s.db
      (reportLines "airgap-install" env.now env.report.lines s₃).db := by
    rw [reportLines_frame]
    exact hs₃
  obtain e | _ := env.pull s!"replicated://{license.appSlug}" registry
  · refine (installReported_recorded htask hstate hs₄ (e.wraps_wrap "failed to pull")).trans ?_
    simp [Report.NoneLate]
  · refine (wp_installReported_iff "airgap-install" env.now .airgapUploadError
      (reports_installAirgap env pendingApp registry) (keepsApp_installAirgap env pendingApp registry)
      htask hstate rfl hs₄).trans ?_
    simp [Report.NoneLate]

/-- **Installations.**  An installation reports its outcome exactly when the two unrecorded steps of
`CreateAppFromOnline` succeed and no line of the pull is shown after the deferred function. -/
theorem installReported_iff (pendingApp : PendingApp) (s : Server) :
    (∀ env : OnlineEnv, env.StatusWritesSucceed → ∀ upstreamURI,
      (InstallReported "online-install" .installError pendingApp.id s.db
          (createAppFromOnline env pendingApp upstreamURI s).1
          (createAppFromOnline env pendingApp upstreamURI s).2 ↔
        env.Reporting upstreamURI)) ∧
    (∀ env : AirgapEnv, env.StatusWritesSucceed → ∀ registry,
      (InstallReported "airgap-install" .airgapUploadError pendingApp.id s.db
          (createAppFromAirgap env pendingApp registry s).1
          (createAppFromAirgap env pendingApp registry s).2 ↔
        env.Reporting pendingApp)) :=
  ⟨fun _ henv upstreamURI => online_reported_iff henv pendingApp upstreamURI s,
    fun _ henv registry => airgap_reported_iff henv pendingApp registry s⟩

def somePendingApp : PendingApp where
  id := "app"
  slug := "app"
  name := "App"
  licenseData := ""

def pendingServer : Server where
  db :=
    { app := ⟨[{ id := "app", name := "App", slug := "app",
                 installState := .onlineUploadPending }], by decide⟩ }

def titledEnv : VersionEnv where
  loadKotsKindsFromPath := fun _ => .ok { title := "App" }

/-- An installation without failures is reported. -/
theorem installReported_titledEnv :
    InstallReported "online-install" .installError "app" pendingServer.db
      (createAppFromOnline { version := titledEnv } somePendingApp "replicated://app"
        pendingServer).1
      (createAppFromOnline { version := titledEnv } somePendingApp "replicated://app"
        pendingServer).2 := by
  apply ((installReported_iff somePendingApp pendingServer).1 { version := titledEnv }
    ⟨rfl, rfl, rfl⟩ "replicated://app").mpr
  refine ⟨rfl, fun _ => ⟨rfl, ?_⟩⟩
  intro line hline
  cases hline

def pullFailsEnv : OnlineEnv where
  pull := fun _ => .error { cause := "no such release" }
  version := titledEnv

/-- The pull fails: an error is returned, the app is `installed` and the task is cleared. -/
theorem not_installReported_pullFails :
    pullFailsEnv.StatusWritesSucceed ∧
      ¬ InstallReported "online-install" .installError "app" pendingServer.db
        (createAppFromOnline pullFailsEnv somePendingApp "replicated://app" pendingServer).1
        (createAppFromOnline pullFailsEnv somePendingApp "replicated://app" pendingServer).2 := by
  refine ⟨⟨rfl, rfl, rfl⟩, ?_⟩
  rintro ⟨hinstall, -⟩
  revert hinstall
  decide

end Kotsadm.Flows
