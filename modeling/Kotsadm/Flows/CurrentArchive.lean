import Kotsadm.Flows.Install
import Kotsadm.Flows.Request
import Kotsadm.Flows.Update
import Kotsadm.Lib.Machine

/-!
# CurrentArchive — the archive of the current version

Every later version needs the archive of the current one.  Eight Go functions advance
`current_sequence` in a transaction and upload the archive after its commit, so the archive of the
current version may be missing between the two.  They leave it missing only when the upload fails
and no older object has the key; the TypeScript `uploadUpdate` uploads first.
-/

namespace Kotsadm.Flows

open Version Body

/-- The archive of the current version of every app is there. -/
def HasArchive (s : Server) : Prop :=
  ∀ r ∈ s.db.app.rows, ∀ n, r.currentSequence = some n → (s.archives r.id n).isSome

/-- What was packed is uploaded, or the next version of the app already has an archive. -/
def Uploads (packed : Except GoError String) (appId : AppId) (currentSequence : Option Int)
    (s : Server) : Prop :=
  packed.isOk ∨ ∀ n, nextSequence s.db appId currentSequence = some n →
    (s.archives appId n).isSome

/-! ## Before and between the two steps -/

/-- What holds before `createVersion`. -/
structure Ready (packed : Except GoError String) (appId : AppId) (currentSequence : Option Int)
    (s : Server) : Prop where
  hasArchive : HasArchive s
  uploads : Uploads packed appId currentSequence s

/-- What holds between `createVersion` and `CreateAppVersionArchive`: only the new archive may be
missing, and only if it is about to be uploaded. -/
structure Pending (packed : Except GoError String) (appId : AppId) (sequence : Int)
    (s : Server) : Prop where
  hasArchive : ∀ r ∈ s.db.app.rows, ∀ n, r.currentSequence = some n →
    (s.archives r.id n).isSome ∨ (r.id = appId ∧ n = sequence)
  uploads : packed.isOk ∨ (s.archives appId sequence).isSome

/-- No version was created and no archive was stored. -/
structure SameVersions (s s' : Server) : Prop where
  archives : s'.archives = s.archives
  appVersion : s'.db.appVersion = s.db.appVersion
  current : ∀ r' ∈ s'.db.app.rows,
    ∃ r ∈ s.db.app.rows, r.id = r'.id ∧ r.currentSequence = r'.currentSequence

section

variable {packed : Except GoError String} {appId : AppId} {currentSequence : Option Int}
  {s s' : Server}

theorem SameVersions.hasArchive (h : SameVersions s s') (hs : HasArchive s) : HasArchive s' := by
  intro r' hr' n hn
  obtain ⟨r, hr, hid, hcurrent⟩ := h.current r' hr'
  rw [h.archives, ← hid]
  exact hs r hr n (hcurrent.trans hn)

theorem SameVersions.ready (h : SameVersions s s') (hs : Ready packed appId currentSequence s) :
    Ready packed appId currentSequence s' := by
  have hnext : nextSequence s'.db appId currentSequence =
      nextSequence s.db appId currentSequence := by
    cases currentSequence with
    | none => rfl
    | some _ =>
      unfold nextSequence maxSequence
      rw [h.appVersion]
  refine ⟨h.hasArchive hs.hasArchive, ?_⟩
  unfold Uploads
  rw [hnext, h.archives]
  exact hs.uploads

/-! ## What the other calls do -/

theorem sameVersions_setTaskStatus (outcome : Except GoError Unit) (id message status : String)
    (now : Timestamp) (s : Server) :
    SameVersions s (setTaskStatus outcome id message status now s).2 := by
  cases outcome <;> exact ⟨rfl, rfl, fun r hr => ⟨r, hr, rfl, rfl⟩⟩

theorem sameVersions_clearTaskStatus (outcome : Except GoError Unit) (id : String) (s : Server) :
    SameVersions s (clearTaskStatus outcome id s).2 := by
  cases outcome <;> exact ⟨rfl, rfl, fun r hr => ⟨r, hr, rfl, rfl⟩⟩

theorem sameVersions_reportLines (id : String) (now : Timestamp) (lines : List ReportLine)
    (s : Server) : SameVersions s (reportLines id now lines s) := by
  rw [reportLines_frame]
  exact ⟨rfl, rfl, fun r hr => ⟨r, hr, rfl, rfl⟩⟩

theorem sameVersions_insertAppDownstream (outcome : Except GoError Unit) (appId : AppId)
    (cluster : ClusterRow) (s : Server) :
    SameVersions s (insertAppDownstream outcome appId cluster s).2 := by
  unfold insertAppDownstream
  split <;> exact ⟨rfl, rfl, fun r hr => ⟨r, hr, rfl, rfl⟩⟩

theorem sameVersions_runPreflight (env : PreflightEnv) (appId : AppId) (sequence : Int)
    (s : Server) : SameVersions s (runPreflight env appId sequence s).2 := by
  obtain ⟨versions, hversions⟩ := runPreflight_frame env appId sequence s
  rw [hversions]
  exact ⟨rfl, rfl, fun r hr => ⟨r, hr, rfl, rfl⟩⟩

/-- An update of an app that leaves its current sequence alone. -/
theorem sameVersions_updateApp (outcome : Except GoError Unit) (appId : AppId)
    {set : AppRow → AppRow} {hset : ∀ r, (set r).id = r.id}
    (hcurrent : ∀ r, (set r).currentSequence = r.currentSequence) (s : Server) :
    SameVersions s (updateApp outcome appId set hset s).2 := by
  cases outcome with
  | error e => exact ⟨rfl, rfl, fun r hr => ⟨r, hr, rfl, rfl⟩⟩
  | ok _ =>
    refine ⟨rfl, rfl, ?_⟩
    intro r' hr'
    change r' ∈ (s.db.app.updateWhere (fun r => r.id = appId) set hset).rows at hr'
    obtain ⟨r, hr, heq⟩ := Keyed.mem_updateWhere.mp hr'
    refine ⟨r, hr, ?_⟩
    split at heq
    next =>
      rw [← heq]
      exact ⟨(hset r).symm, (hcurrent r).symm⟩
    next =>
      rw [heq]
      exact ⟨rfl, rfl⟩

theorem sameVersions_setAppInstallState (outcome : Except GoError Unit) (appId : AppId)
    (status : InstallState) (s : Server) :
    SameVersions s (setAppInstallState outcome appId status s).2 := by
  apply sameVersions_updateApp
  intro r
  rfl

theorem sameVersions_updateRegistry (cipher outcome : Except GoError Unit) (appId : AppId)
    (settings : RegistrySettings) (s : Server) :
    SameVersions s (updateRegistry cipher outcome appId settings s).2 := by
  cases cipher with
  | error e => exact ⟨rfl, rfl, fun r hr => ⟨r, hr, rfl, rfl⟩⟩
  | ok _ =>
    show SameVersions s (updateApp outcome appId _ _ s).2
    apply sameVersions_updateApp
    intro r
    rfl

/-- The deferred function of an installation. -/
theorem sameVersions_installHandler (env : HandlerEnv) (id : String) (now : Timestamp)
    (appId : AppId) (errorState : InstallState) (finalError : Option GoError) (s : Server) :
    SameVersions s (installHandler env id now appId errorState finalError s) := by
  have htrans : ∀ {s₁ s₂ s₃ : Server}, SameVersions s₁ s₂ → SameVersions s₂ s₃ →
      SameVersions s₁ s₃ := by
    intro s₁ s₂ s₃ h h'
    refine ⟨h'.archives.trans h.archives, h'.appVersion.trans h.appVersion, ?_⟩
    intro r₃ hr₃
    obtain ⟨r₂, hr₂, hid, hcurrent⟩ := h'.current r₃ hr₃
    obtain ⟨r₁, hr₁, hid', hcurrent'⟩ := h.current r₂ hr₂
    exact ⟨r₁, hr₁, hid'.trans hid, hcurrent'.trans hcurrent⟩
  cases finalError with
  | none =>
    exact htrans (sameVersions_clearTaskStatus env.taskStatus id s)
      (sameVersions_setAppInstallState env.installState appId .installed _)
  | some e =>
    exact htrans (sameVersions_setTaskStatus env.taskStatus id e.text "failed" now s)
      (sameVersions_setAppInstallState env.installState appId errorState _)

/-- The deferred function of an update. -/
theorem sameVersions_updateHandler (write : Except GoError Unit) (id : String) (now : Timestamp)
    (finalError : Option GoError) (s : Server) :
    SameVersions s (updateHandler write id now finalError s) := by
  cases finalError with
  | none => exact sameVersions_clearTaskStatus write id s
  | some e => exact sameVersions_setTaskStatus write id e.text "failed" now s

end

/-! ## The two steps -/

/-- The row of the app gets the sequence, the others stay. -/
theorem mem_updateAppVersion {db : Database} {appId : AppId} {sequence : Int} {name icon : String}
    {r : AppRow} (h : r ∈ (KotsAppStore.updateAppVersion db appId sequence name icon).app.rows) :
    (r.id = appId ∧ r.currentSequence = some sequence) ∨ r ∈ db.app.rows := by
  simp only [KotsAppStore.updateAppVersion, Keyed.mem_updateWhere] at h
  obtain ⟨old, hold, heq⟩ := h
  by_cases hid : old.id = appId
  · left
    rw [if_pos (decide_eq_true hid)] at heq
    rw [← heq]
    exact ⟨hid, rfl⟩
  · right
    rw [if_neg (by simpa using hid)] at heq
    rwa [← heq]

/-- A failed transaction changes nothing; a committed one makes the new version the current one. -/
theorem callLeads_createVersion (packed : Except GoError String) (env : VersionEnv) (appId : AppId)
    (filesInDir source : String) (currentSequence : Option Int) :
    CallLeads HasArchive (Ready packed appId currentSequence)
      (createVersion env appId filesInDir source currentSequence) (Pending packed appId) := by
  intro s hs
  rcases createVersion_cases env appId filesInDir source currentSequence s with
    ⟨e, he⟩ | ⟨sequence, tx, htx, hnext, hcreated⟩
  · rw [he]
    exact hs.hasArchive
  · rw [htx]
    dsimp only
    constructor
    · intro r hr n hn
      obtain ⟨name, icon, happ⟩ := hcreated.app
      dsimp only at hr
      rw [happ] at hr
      rcases mem_updateAppVersion hr with ⟨hid, hsequence⟩ | hold
      · right
        rw [hsequence] at hn
        exact ⟨hid, (Option.some.inj hn).symm⟩
      · left
        exact hs.hasArchive r hold n hn
    · exact hs.uploads.imp_right fun harchives => harchives sequence hnext

/-- Storing an archive keeps the others. -/
theorem isSome_update {archives : AppId → Int → Option String} {id appId : AppId}
    {n sequence : Int} (archive : String)
    (h : (archives id n).isSome ∨ (id = appId ∧ n = sequence)) :
    (Function.update archives appId
      (Function.update (archives appId) sequence (some archive)) id n).isSome := by
  by_cases hid : id = appId
  · subst hid
    rw [Function.update_self]
    by_cases hn : n = sequence
    · rw [hn, Function.update_self]
      rfl
    · rw [Function.update_of_ne hn]
      exact h.resolve_right fun hand => hn hand.2
  · rw [Function.update_of_ne hid]
    exact h.resolve_right fun hand => hid hand.1

/-- The upload completes the version; when it fails, an older object is there. -/
theorem callLeads_createAppVersionArchive (packed : Except GoError String) (appId : AppId)
    (sequence : Int) :
    CallLeads HasArchive (Pending packed appId sequence)
      (createAppVersionArchive packed appId sequence) fun _ => HasArchive := by
  intro s hs
  cases packed with
  | error e =>
    intro r hr n hn
    have hold : (s.archives appId sequence).isSome := hs.uploads.resolve_left fun h => by cases h
    rcases hs.hasArchive r hr n hn with harchive | ⟨hid, hsequence⟩
    · exact harchive
    · rw [hid, hsequence]
      exact hold
  | ok archive =>
    intro r hr n hn
    exact isSome_update archive (hs.hasArchive r hr n hn)

/-- The condition is exact: once the version is committed, the archive is there afterwards only if
the upload succeeds or an older object has its key. -/
theorem hasArchive_created_iff {packed : Except GoError String} {env : VersionEnv} {appId : AppId}
    {filesInDir source : String} {currentSequence : Option Int} {s s' : Server} {sequence : Int}
    (hs : HasArchive s) (hrow : (s.db.app.find? appId).isSome)
    (hcreated : createVersion env appId filesInDir source currentSequence s = (.ok sequence, s')) :
    HasArchive (createAppVersionArchive packed appId sequence s').2 ↔
      Uploads packed appId currentSequence s := by
  obtain ⟨row, hfind⟩ := Option.isSome_iff_exists.mp hrow
  obtain ⟨hmem, hid⟩ := Keyed.find?_eq_some.mp hfind
  constructor
  · intro harchive
    cases packed with
    | ok archive => exact .inl rfl
    | error e =>
      right
      intro n hn
      rcases createVersion_cases env appId filesInDir source currentSequence s with
        ⟨e', he'⟩ | ⟨sequence', tx, htx, hnext, htables⟩
      · rw [he'] at hcreated
        cases hcreated
      · rw [htx] at hcreated
        cases hcreated
        have hsequence : sequence = n := Option.some.inj (hnext.symm.trans hn)
        obtain ⟨name, icon, happ⟩ := htables.app
        have hcurrent : { row with currentSequence := some sequence, name, iconUri := icon } ∈
            tx.app.rows := by
          simp only [happ, KotsAppStore.updateAppVersion, Keyed.mem_updateWhere]
          exact ⟨row, hmem, if_pos (decide_eq_true hid)⟩
        have hstored := harchive _ hcurrent sequence rfl
        rw [← hsequence, ← hid]
        exact hstored
  · intro huploads
    have hpending := callLeads_createVersion packed env appId filesInDir source currentSequence s
      ⟨hs, huploads⟩
    rw [hcreated] at hpending
    have hend := callLeads_createAppVersionArchive packed appId sequence s' hpending
    generalize createAppVersionArchive packed appId sequence s' = returned at hend ⊢
    obtain ⟨e | _, s''⟩ := returned <;> exact hend

/-! ## The functions with a task -/

section Task

variable {packed : Except GoError String} {appId : AppId} {currentSequence : Option Int}

theorem ready_hasArchive (r : TaskRun) (hr : Ready packed appId currentSequence r.server) :
    HasArchive r.server := hr.hasArchive

theorem ready_reporting {outcome : Except GoError Unit} {id : String} {now : Timestamp}
    {report : Report} (r : TaskRun) (hr : Ready packed appId currentSequence r.server) :
    Ready packed appId currentSequence (TaskRun.reporting outcome id now report r).2.server :=
  (sameVersions_reportLines id now report.lines r.server).ready hr

theorem ready_setTaskStatus {outcome : Except GoError Unit} {id message status : String}
    {now : Timestamp} (r : TaskRun) (hr : Ready packed appId currentSequence r.server) :
    Ready packed appId currentSequence
      (TaskRun.call (setTaskStatus outcome id message status now) r).2.server :=
  (sameVersions_setTaskStatus outcome id message status now r.server).ready hr

theorem ready_createDownstreams (env : DownstreamsEnv) (id : AppId) :
    (createDownstreams env id).Preserves fun r => Ready packed appId currentSequence r.server := by
  refine preserves_bind (preserves_orFinal fun _ hr => hr) fun clusters => ?_
  refine preserves_bind (preserves_forEach fun _ _ => preserves_orFinal fun _ hr => hr) fun _ => ?_
  apply preserves_forEach
  intro cluster _
  apply preserves_orFinal
  intro r hr
  exact (sameVersions_insertAppDownstream (env.insert cluster) id cluster r.server).ready hr

/-- The creation of a version, from a state that is ready. -/
theorem leads_createVersion (context : String) (env : VersionEnv) (filesInDir source : String) :
    (orFinal context (TaskRun.call
        (createVersion env appId filesInDir source currentSequence))).Leads
      (fun r => HasArchive r.server) (fun r => Ready packed appId currentSequence r.server)
      fun sequence r => Pending packed appId sequence r.server :=
  leads_orFinal (callLeads_call
    (callLeads_createVersion packed env appId filesInDir source currentSequence))

theorem leads_createAppVersionArchive (context : String) (sequence : Int) :
    (orFinal context (TaskRun.call (createAppVersionArchive packed appId sequence))).Leads
      (fun r => HasArchive r.server) (fun r => Pending packed appId sequence r.server)
      fun _ r => HasArchive r.server :=
  leads_orFinal (callLeads_call (callLeads_createAppVersionArchive packed appId sequence))

/-- The end of every update; `n` is arbitrary, a later version is numbered after the newest one. -/
theorem leads_createNewVersion (env : NewVersionEnv) (contexts : NewVersionContexts)
    (appId : AppId) (filesInDir source : String) (currentSequence n : Int) :
    (createNewVersion env contexts appId filesInDir source currentSequence).Leads
      (fun r => HasArchive r.server) (fun r => Ready env.archive appId (some n) r.server)
      fun _ r => HasArchive r.server := by
  have hready : ∀ r : TaskRun, Ready env.archive appId (some n) r.server →
      Ready env.archive appId (some currentSequence) r.server :=
    fun r hr => ⟨hr.hasArchive, hr.uploads⟩
  refine leads_mono hready ?_
  refine leads_bind (leads_createVersion contexts.version env.version filesInDir source) ?_
  intro newSequence
  refine leads_bind (leads_createAppVersionArchive contexts.archive newSequence) ?_
  intro _
  apply preserves_orFinal
  intro r hr
  exact (sameVersions_runPreflight env.preflight appId newSequence r.server).hasArchive hr

/-! ### Installations -/

theorem ready_pullOnline (env : OnlineEnv) (upstreamURI : String) :
    (pullOnline env upstreamURI).Preserves
      fun r => Ready packed appId currentSequence r.server := by
  have hconfig : ∀ configValues, (writeConfigValues env configValues).Preserves
      fun r => Ready packed appId currentSequence r.server := by
    intro configValues
    unfold writeConfigValues
    split
    next => exact preserves_pure ()
    next =>
      exact preserves_bind (preserves_orFinal fun _ hr => hr) fun _ =>
        preserves_orFinal fun _ hr => hr
  refine preserves_bind (preserves_orReturn fun _ hr => hr) fun _ => ?_
  refine preserves_bind (preserves_orFinal fun _ hr => hr) fun _ => ?_
  refine preserves_bind (preserves_orFinal fun _ hr => hr) fun _ => ?_
  refine preserves_bind (preserves_orFinal fun _ hr => hr) fun configValues => ?_
  refine preserves_bind (hconfig configValues) fun _ => ?_
  exact preserves_orReturn ready_reporting

theorem ready_setInstalled {outcome : Except GoError Unit} {id : AppId} {isAirgap : Bool}
    (r : TaskRun) (hr : Ready packed appId currentSequence r.server) :
    Ready packed appId currentSequence
      (TaskRun.call (setInstalled outcome id isAirgap) r).2.server := by
  have hsame : SameVersions r.server (setInstalled outcome id isAirgap r.server).2 := by
    apply sameVersions_updateApp
    intro row
    rfl
  exact hsame.ready hr

theorem leads_installOnline (env : OnlineEnv) (pendingApp : PendingApp) :
    (installOnline env pendingApp).Leads (fun r => HasArchive r.server)
      (fun r => Ready env.archive pendingApp.id none r.server) fun _ r => HasArchive r.server := by
  refine leads_keep ready_hasArchive (ready_createDownstreams _ _) fun _ => ?_
  refine leads_keep ready_hasArchive (preserves_orFinal ready_setInstalled) fun _ => ?_
  refine leads_bind (leads_createVersion _ env.version _ _) fun newSequence => ?_
  refine leads_bind (leads_createAppVersionArchive _ newSequence) fun _ => ?_
  exact preserves_orFinal fun _ hr => hr

theorem ready_pullAirgap (env : AirgapEnv) (pendingApp : PendingApp) (registry : RegistryArgs) :
    (pullAirgap env pendingApp registry).Preserves
      fun r => Ready packed appId currentSequence r.server := by
  have hlicense : ∀ obj, (assertLicense obj).Preserves
      fun r => Ready packed appId currentSequence r.server := by
    intro obj
    cases obj with
    | none => exact preserves_panic
    | some license => exact preserves_pure license
  have hairgap : ∀ r : TaskRun, Ready packed appId currentSequence r.server →
      Ready packed appId currentSequence
        (TaskRun.call (setIsAirgap env.setIsAirgap pendingApp.id) r).2.server := by
    intro r hr
    have hsame : SameVersions r.server
        (setIsAirgap env.setIsAirgap pendingApp.id r.server).2 := by
      apply sameVersions_updateApp
      intro row
      rfl
    exact hsame.ready hr
  refine preserves_bind (preserves_orFinal hairgap) fun _ => ?_
  refine preserves_bind (preserves_orFinal fun _ hr => hr) fun _ => ?_
  refine preserves_bind (preserves_orFinal fun _ hr => hr) fun _ => ?_
  refine preserves_bind (preserves_orFinal fun _ hr => hr) fun _ => ?_
  refine preserves_bind (preserves_orFinal ready_setTaskStatus) fun _ => ?_
  refine preserves_bind (preserves_orFinal fun _ hr => hr) fun _ => ?_
  refine preserves_bind (preserves_orFinal fun _ hr => hr) fun _ => ?_
  refine preserves_bind (preserves_orFinal fun _ hr => hr) fun _ => ?_
  refine preserves_bind (preserves_orFinal fun _ hr => hr) fun obj => ?_
  refine preserves_bind (hlicense obj) fun license => ?_
  refine preserves_bind (preserves_orFinal fun _ hr => hr) fun _ => ?_
  refine preserves_bind (preserves_orFinal fun _ hr => hr) fun _ => ?_
  exact preserves_orFinal ready_reporting

/-- The version is created for the app that was read, the archive for the pending app: they are
the same. -/
theorem leads_installAirgap (env : AirgapEnv) (pendingApp : PendingApp) (registry : RegistryArgs) :
    (installAirgap env pendingApp registry).Leads (fun r => HasArchive r.server)
      (fun r => Ready env.archive pendingApp.id none r.server) fun _ r => HasArchive r.server := by
  have hget : CallLeads (fun r : TaskRun => HasArchive r.server)
      (fun r => Ready env.archive pendingApp.id none r.server)
      (TaskRun.query fun s => App.get env.getApp s.db pendingApp.id)
      fun a r => a.id = pendingApp.id ∧ Ready env.archive pendingApp.id none r.server := by
    intro r hr
    unfold TaskRun.query
    dsimp only
    cases ha : App.get env.getApp r.server.db pendingApp.id with
    | error e => exact hr.hasArchive
    | ok a => exact ⟨id_of_get ha, hr⟩
  refine leads_keep ready_hasArchive (ready_createDownstreams _ _) fun _ => ?_
  refine leads_bind (leads_orFinal hget) fun a => ?_
  by_cases hid : a.id = pendingApp.id
  · have hready : ∀ r : TaskRun, a.id = pendingApp.id ∧
        Ready env.archive pendingApp.id none r.server ↔
          Ready env.archive pendingApp.id none r.server := fun r => and_iff_right hid
    simp only [hready]
    rw [hid]
    have hregistry : ∀ r : TaskRun, Ready env.archive pendingApp.id none r.server →
        Ready env.archive pendingApp.id none
          (TaskRun.call (updateRegistry env.cipher env.updateRegistry pendingApp.id
            { hostname := registry.registryHost, username := registry.username,
              passwordEnc := env.encrypt registry.password,
              registryNamespace := registry.registryNamespace }) r).2.server :=
      fun r hr => (sameVersions_updateRegistry _ _ _ _ r.server).ready hr
    refine leads_keep ready_hasArchive (preserves_orFinal hregistry) fun _ => ?_
    refine leads_keep ready_hasArchive (preserves_orFinal ready_setInstalled) fun _ => ?_
    refine leads_bind (leads_createVersion _ env.version _ _) fun newSequence => ?_
    exact leads_createAppVersionArchive _ newSequence
  · intro f hf
    exact absurd hf.1 hid

/-! ### Updates -/

theorem leads_createDownloaded (env : DownloadEnv) (appId : AppId)
    (archiveDir beforeCursor : String) (n : Int) :
    (createDownloaded env appId archiveDir beforeCursor).Leads (fun r => HasArchive r.server)
      (fun r => Ready env.newVersion.archive appId (some n) r.server)
      fun _ r => HasArchive r.server := by
  refine leads_keep ready_hasArchive (preserves_orFinal fun _ hr => hr) fun after => ?_
  split
  next => exact leads_pure ready_hasArchive
  next =>
    refine leads_keep ready_hasArchive (preserves_orReturn fun _ hr => hr) fun a => ?_
    exact leads_createNewVersion env.newVersion _ appId archiveDir _ a.currentSequence n

theorem leads_downloadUpdateBody (env : DownloadEnv) (appId : AppId)
    (archiveDir toCursor : String) (n : Int) :
    (downloadUpdateBody env appId archiveDir toCursor).Leads (fun r => HasArchive r.server)
      (fun r => Ready env.newVersion.archive appId (some n) r.server)
      fun _ r => HasArchive r.server := by
  have hslug : ∀ kinds, (licenseAppSlug kinds).Preserves
      fun r => Ready env.newVersion.archive appId (some n) r.server := by
    intro kinds
    unfold licenseAppSlug
    split
    next => exact preserves_pure _
    next => exact preserves_panic
  refine leads_keep ready_hasArchive (preserves_orFinal fun _ hr => hr) fun before => ?_
  refine leads_keep ready_hasArchive (preserves_orReturnErr fun _ hr => hr) fun options => ?_
  refine leads_keep ready_hasArchive (hslug before) fun appSlug => ?_
  refine leads_keep ready_hasArchive (preserves_orFinal ready_reporting) fun _ => ?_
  exact leads_createDownloaded env appId archiveDir _ n

theorem leads_rewriteImagesBody (env : RewriteEnv) (appId : AppId) (sequence : Int)
    (options : RewriteImageOptions) (configValues : Option String) (n : Int) :
    (rewriteImagesBody env appId sequence options configValues).Leads
      (fun r => HasArchive r.server)
      (fun r => Ready env.newVersion.archive appId (some n) r.server)
      fun _ r => HasArchive r.server := by
  refine leads_keep ready_hasArchive (preserves_orFinal fun _ hr => hr) fun _ => ?_
  refine leads_keep ready_hasArchive (preserves_orFinal fun _ hr => hr) fun _ => ?_
  refine leads_keep ready_hasArchive (preserves_orFinal fun _ hr => hr) fun license => ?_
  refine leads_keep ready_hasArchive (preserves_orFinal fun _ hr => hr) fun configValues => ?_
  refine leads_keep ready_hasArchive (preserves_orReturn fun _ hr => hr) fun downstreams => ?_
  refine leads_keep ready_hasArchive (preserves_orReturn fun _ hr => hr) fun a => ?_
  refine leads_keep ready_hasArchive (preserves_orFinal ready_reporting) fun _ => ?_
  exact leads_createNewVersion env.newVersion _ appId _ _ a.currentSequence n

theorem leads_createFromAirgap (env : AirgapUpdateEnv) (a : App) (before : KotsKinds) :
    (createFromAirgap env a before).Leads (fun r => HasArchive r.server)
      (fun r => Ready env.newVersion.archive a.id (some a.currentSequence) r.server)
      fun _ r => HasArchive r.server := by
  have hnewer : ∀ after bc ac, (requireNewer env before after bc ac).Preserves
      fun r => Ready env.newVersion.archive a.id (some a.currentSequence) r.server := by
    intro after bc ac
    unfold requireNewer
    split
    next => exact preserves_fail _
    next =>
      split
      next => exact preserves_fail _
      next => exact preserves_pure ()
  refine leads_keep ready_hasArchive (preserves_orFinal fun _ hr => hr) fun after => ?_
  refine leads_keep ready_hasArchive (preserves_orFinal fun _ hr => hr) fun bc => ?_
  refine leads_keep ready_hasArchive (preserves_orFinal fun _ hr => hr) fun ac => ?_
  refine leads_keep ready_hasArchive (hnewer after bc ac) fun _ => ?_
  exact leads_createNewVersion env.newVersion _ a.id _ _ a.currentSequence _

theorem leads_updateFromAirgapBody (env : AirgapUpdateEnv) (a : App) :
    (updateFromAirgapBody env a).Leads (fun r => HasArchive r.server)
      (fun r => Ready env.newVersion.archive a.id (some a.currentSequence) r.server)
      fun _ r => HasArchive r.server := by
  have hderef : ∀ settings, (derefSettings settings).Preserves
      fun r => Ready env.newVersion.archive a.id (some a.currentSequence) r.server := by
    intro settings
    cases settings with
    | none => exact preserves_panic
    | some settings => exact preserves_pure settings
  have hlicense : ∀ kinds, (requireLicense kinds).Preserves
      fun r => Ready env.newVersion.archive a.id (some a.currentSequence) r.server := by
    intro kinds
    unfold requireLicense
    split
    next => exact preserves_pure _
    next => exact preserves_fail _
  refine leads_keep ready_hasArchive (preserves_orFinal fun _ hr => hr) fun settings => ?_
  refine leads_keep ready_hasArchive (preserves_orFinal fun _ hr => hr) fun _ => ?_
  refine leads_keep ready_hasArchive (hderef settings) fun settings => ?_
  refine leads_keep ready_hasArchive (preserves_orFinal fun _ hr => hr) fun decoded => ?_
  refine leads_keep ready_hasArchive (preserves_orFinal fun _ hr => hr) fun password => ?_
  refine leads_keep ready_hasArchive (preserves_orFinal fun _ hr => hr) fun _ => ?_
  refine leads_keep ready_hasArchive (preserves_orFinal fun _ hr => hr) fun before => ?_
  refine leads_keep ready_hasArchive (hlicense before) fun license => ?_
  refine leads_keep ready_hasArchive (preserves_orFinal fun _ hr => hr) fun _ => ?_
  refine leads_keep ready_hasArchive (preserves_orFinal fun _ hr => hr) fun _ => ?_
  refine leads_keep ready_hasArchive (preserves_orFinal fun _ hr => hr) fun _ => ?_
  refine leads_keep ready_hasArchive (preserves_orFinal ready_setTaskStatus) fun _ => ?_
  refine leads_keep ready_hasArchive (preserves_orFinal ready_reporting) fun _ => ?_
  exact leads_createFromAirgap env a before

end Task

/-! ## The requests -/

section Request

theorem hasArchive_createAppVersionArchive {packed : Except GoError String} {appId : AppId}
    {sequence : Int} (s : Server) (hs : HasArchive s) :
    HasArchive (createAppVersionArchive packed appId sequence s).2 := by
  cases packed with
  | error e => exact hs
  | ok archive =>
    intro r hr n hn
    exact isSome_update archive (.inl (hs r hr n hn))

theorem hasArchive_runPreflight {env : PreflightEnv} {appId : AppId} {sequence : Int} (s : Server)
    (hs : HasArchive s) : HasArchive (runPreflight env appId sequence s).2 :=
  (sameVersions_runPreflight env appId sequence s).hasArchive hs

/-! ### License sync -/

theorem leads_createLicensed (env : SyncEnv) (a : App) (license : License) :
    (createLicensed env a license).Leads HasArchive
      (Ready env.archive a.id (some a.currentSequence)) fun _ => HasArchive := by
  have hI : ∀ s, Ready env.archive a.id (some a.currentSequence) s → HasArchive s :=
    fun _ hs => hs.hasArchive
  have hlicense : ∀ encoded s, Ready env.archive a.id (some a.currentSequence) s →
      Ready env.archive a.id (some a.currentSequence)
        (updateAppLicense env.updateAppLicense a encoded s).2 := by
    intro encoded s hs
    have hsame : SameVersions s (updateAppLicense env.updateAppLicense a encoded s).2 := by
      apply sameVersions_updateApp
      intro row
      rfl
    exact hsame.ready hs
  refine leads_keep hI (preserves_orReturn fun _ hs => hs) fun encoded => ?_
  refine leads_keep hI (preserves_orReturn fun _ hs => hs) fun _ => ?_
  refine leads_keep hI (preserves_orReturn (hlicense encoded)) fun _ => ?_
  refine leads_keep hI (preserves_orReturn fun _ hs => hs) fun settings => ?_
  refine leads_keep hI (preserves_orReturn fun _ hs => hs) fun _ => ?_
  refine leads_bind (leads_orReturn (callLeads_createVersion env.archive _ _ _ _ _)) ?_
  intro newSequence
  refine leads_bind (leads_orReturn (callLeads_createAppVersionArchive _ _ _)) ?_
  intro _
  exact preserves_orReturn hasArchive_runPreflight

theorem leads_sync (env : SyncEnv) (a : App) (licenseData : String) :
    (sync env a licenseData).Leads HasArchive
      (Ready env.archive a.id (some a.currentSequence)) fun _ => HasArchive := by
  have hI : ∀ s, Ready env.archive a.id (some a.currentSequence) s → HasArchive s :=
    fun _ hs => hs.hasArchive
  have hcurrent : ∀ kinds, (requireCurrentLicense kinds).Preserves
      (Ready env.archive a.id (some a.currentSequence)) := by
    intro kinds
    unfold requireCurrentLicense
    split
    next => exact preserves_pure _
    next => exact preserves_orReturnErr fun _ hs => hs
  have hlatest : ∀ current, (latestLicense env current licenseData).Preserves
      (Ready env.archive a.id (some a.currentSequence)) := by
    intro current
    unfold latestLicense
    split
    next => exact preserves_orReturn fun _ hs => hs
    next =>
      refine preserves_bind (preserves_orReturn fun _ hs => hs) fun obj => ?_
      cases obj with
      | none => exact preserves_panic
      | some license => exact preserves_orReturn fun _ hs => hs
  refine leads_keep hI (preserves_orReturn fun _ hs => hs) fun _ => ?_
  refine leads_keep hI (preserves_orReturn fun _ hs => hs) fun kinds => ?_
  refine leads_keep hI (hcurrent kinds) fun current => ?_
  refine leads_keep hI (hlatest current) fun latest => ?_
  split
  next => exact leads_pure hI
  next =>
    refine leads_bind (leads_createLicensed env a latest) fun _ => ?_
    exact preserves_pure latest

/-! ### Uploads -/

/-- The condition of `kots upload`: it is about the app that the metadata names. -/
def UploadExistingEnv.Uploads (env : UploadExistingEnv) (s : Server) : Prop :=
  ∀ slug a, env.metadata = .ok slug → App.getFromSlug env.scanId env.getApp s.db slug = .ok a →
    Flows.Uploads env.archive a.id (some a.currentSequence) s

theorem leads_uploadExistingApp (env : UploadExistingEnv) :
    (uploadExistingApp env).Leads HasArchive (fun s => HasArchive s ∧ env.Uploads s)
      fun _ => HasArchive := by
  have hI : ∀ s, HasArchive s ∧ env.Uploads s → HasArchive s := fun _ hs => hs.1
  cases hmetadata : env.metadata with
  | error e =>
    refine leads_keep hI (preserves_orReturnErr fun _ hs => hs) fun _ => ?_
    rw [hmetadata]
    intro f hf
    exact hf.1
  | ok slug =>
    have hget : CallLeads HasArchive (fun s => HasArchive s ∧ env.Uploads s)
        (fun s => (App.getFromSlug env.scanId env.getApp s.db slug, s))
        fun a => Ready env.archive a.id (some a.currentSequence) := by
      intro s hs
      dsimp only
      cases ha : App.getFromSlug env.scanId env.getApp s.db slug with
      | error e => exact hs.1
      | ok a => exact ⟨hs.1, hs.2 slug a hmetadata ha⟩
    unfold uploadExistingApp
    rw [hmetadata]
    refine leads_keep hI (preserves_orReturnErr fun _ hs => hs) fun _ => ?_
    refine leads_bind (Q := fun x s => x = slug ∧ HasArchive s ∧ env.Uploads s)
      (fun f hf => ⟨rfl, hf⟩) fun x => ?_
    by_cases hx : x = slug
    · subst hx
      refine leads_mono (P := fun s => HasArchive s ∧ env.Uploads s) (fun _ hs => hs.2) ?_
      refine leads_keep hI (preserves_orReturnErr fun _ hs => hs) fun _ => ?_
      refine leads_keep hI (preserves_orReturnErr fun _ hs => hs) fun _ => ?_
      refine leads_keep hI (preserves_orReturnErr fun _ hs => hs) fun _ => ?_
      refine leads_keep hI (preserves_orReturnErr fun _ hs => hs) fun _ => ?_
      refine leads_keep hI (preserves_orReturnErr fun _ hs => hs) fun kinds => ?_
      refine leads_keep hI (preserves_orReturnErr fun _ hs => hs) fun kinds => ?_
      refine leads_keep hI (preserves_orReturnErr fun _ hs => hs) fun updated => ?_
      refine leads_keep hI (preserves_orReturnErr fun _ hs => hs) fun _ => ?_
      refine leads_bind (leads_orReturnErr hget) fun a => ?_
      refine leads_bind (leads_orReturnErr (callLeads_createVersion env.archive _ _ _ _ _)) ?_
      intro newSequence
      refine leads_bind (leads_orReturnErr (callLeads_createAppVersionArchive _ _ _)) ?_
      intro _
      refine preserves_bind (preserves_orReturnErr hasArchive_runPreflight) fun _ => ?_
      exact preserves_pure _
    · intro f hf
      exact absurd hf.1 hx

/-! ### Config changes -/

theorem leads_orRespond {α : Type} {I P : Server → Prop} {Q : α → Server → Prop}
    {text : GoError → String} {call : Server → Except GoError α × Server}
    (hcall : CallLeads I P call Q) :
    (orReturnErr (responding text call)).Leads (fun r => I r.server) (fun r => P r.server)
      fun a r => Q a r.server := by
  apply leads_orReturnErr
  intro r hr
  have hend := hcall r.server hr
  unfold responding
  generalize call r.server = returned at hend ⊢
  obtain ⟨e | a, s⟩ := returned <;> exact hend

theorem preserves_orRespond {α : Type} {I : Server → Prop} {text : GoError → String}
    {call : Server → Except GoError α × Server} (hcall : ∀ s, I s → I (call s).2) :
    (orReturnErr (responding text call)).Preserves fun r => I r.server :=
  leads_orRespond (callLeads_of_keeps (fun _ hs => hs) hcall)

theorem preserves_respond {I : Server → Prop} (response : UpdateAppConfigResponse) :
    (respond response).Preserves fun r => I r.server :=
  preserves_orReturnErr fun _ hr => hr

/-- Merging the submitted values stays in memory. -/
theorem preserves_mergeConfigValues {I : Server → Prop} (env : ConfigEnv) (encryptionKey : String)
    (items : List ConfigItem) (values : Option (String → Option ConfigValue)) :
    (mergeConfigValues env encryptionKey items values).Preserves fun r => I r.server := by
  induction items generalizing values with
  | nil => exact preserves_pure values
  | cons item items ih =>
    refine preserves_bind (preserves_orRespond fun _ hs => hs) fun value => ?_
    refine preserves_bind ?_ ih
    cases values with
    | none => exact preserves_panic
    | some values => exact preserves_pure _

/-- What holds before the config is stored: a change in place needs no upload. -/
structure ConfigReady (env : ConfigEnv) (a : App) (createNewVersion : Bool) (s : Server) :
    Prop where
  hasArchive : HasArchive s
  uploads : createNewVersion = true → Uploads env.archive a.id (some a.currentSequence) s

theorem hasArchive_updateConfigValuesInDB {rendered : Except GoError String}
    {outcome : Except GoError Unit} {appId : AppId} {sequence : Int} (s : Server)
    (hs : HasArchive s) :
    HasArchive (updateConfigValuesInDB rendered outcome appId sequence s).2 := by
  unfold updateConfigValuesInDB
  split <;> exact hs

theorem leads_storeConfig (env : ConfigEnv) (a : App) (sequence : Int) (createNewVersion : Bool) :
    (storeConfig env a sequence createNewVersion).Leads (fun r => HasArchive r.server)
      (fun r => ConfigReady env a createNewVersion r.server)
      fun _ r => HasArchive r.server := by
  cases createNewVersion with
  | true =>
    have hready : ∀ r : ConfigRun, ConfigReady env a true r.server →
        Ready env.archive a.id (some a.currentSequence) r.server :=
      fun r hr => ⟨hr.hasArchive, hr.uploads rfl⟩
    refine leads_mono hready ?_
    refine leads_bind (leads_orRespond (callLeads_createVersion env.archive _ _ _ _ _)) ?_
    intro newSequence
    refine leads_bind (leads_orRespond (callLeads_createAppVersionArchive _ _ _)) ?_
    intro _
    exact preserves_pure newSequence
  | false =>
    refine leads_mono (P := fun r => HasArchive r.server) (fun r hr => hr.hasArchive) ?_
    refine preserves_bind (preserves_orRespond hasArchive_updateConfigValuesInDB) fun _ => ?_
    refine preserves_bind (preserves_orRespond hasArchive_createAppVersionArchive) fun _ => ?_
    exact preserves_pure sequence

theorem leads_applyConfig (env : ConfigEnv) (a : App) (sequence : Int)
    (request : UpdateAppConfigRequest) (kinds : KotsKinds) :
    (applyConfig env a sequence request kinds).Leads (fun r => HasArchive r.server)
      (fun r => ConfigReady env a request.createNewVersion r.server)
      fun _ r => HasArchive r.server := by
  have hI : ∀ r : ConfigRun, ConfigReady env a request.createNewVersion r.server →
      HasArchive r.server := fun _ hr => hr.hasArchive
  have hvalues : (specValues kinds).Preserves
      fun r => ConfigReady env a request.createNewVersion r.server := by
    unfold specValues
    split
    next => exact preserves_panic
    next => exact preserves_pure _
  have hpending : ∀ sequence s, HasArchive s → HasArchive
      (setDownstreamVersionPendingPreflight env.setPendingPreflight a.id sequence s).2 := by
    intro sequence s hs
    unfold setDownstreamVersionPendingPreflight
    split <;> exact hs
  refine leads_keep hI hvalues fun values => ?_
  refine leads_keep hI (preserves_mergeConfigValues env _ _ values) fun values => ?_
  refine leads_keep hI (preserves_orRespond fun _ hs => hs) fun configValues => ?_
  refine leads_keep hI (preserves_orRespond fun _ hs => hs) fun _ => ?_
  refine leads_keep hI (preserves_orRespond fun _ hs => hs) fun settings => ?_
  refine leads_keep hI (preserves_orRespond fun _ hs => hs) fun _ => ?_
  refine leads_bind (leads_storeConfig env a sequence _) fun sequence => ?_
  refine preserves_bind (preserves_orRespond (hpending sequence)) fun _ => ?_
  refine preserves_bind (preserves_orRespond hasArchive_runPreflight) fun _ => ?_
  exact preserves_respond _

theorem leads_updateAppConfig (env : ConfigEnv) (a : App) (sequence : Int)
    (request : UpdateAppConfigRequest) (isPrimaryVersion : Bool) :
    (updateAppConfig env a sequence request isPrimaryVersion).Leads (fun r => HasArchive r.server)
      (fun r => ConfigReady env a request.createNewVersion r.server)
      fun _ r => HasArchive r.server := by
  have hI : ∀ r : ConfigRun, ConfigReady env a request.createNewVersion r.server →
      HasArchive r.server := fun _ hr => hr.hasArchive
  refine leads_keep hI (preserves_orRespond fun _ hs => hs) fun _ => ?_
  refine leads_keep hI (preserves_orRespond fun _ hs => hs) fun kinds => ?_
  dsimp only
  split
  next => exact leads_mono hI (preserves_respond _)
  next => exact leads_applyConfig env a sequence request kinds

end Request

/-! ## Whole functions -/

theorem hasArchive_runRequest {σ α : Type} {body : Body σ α} {I P : σ → Prop} {s : σ}
    (hbody : body.Leads I P fun _ => I) (hs : P s) : I (runRequest body s).2 := by
  have hend := hbody ⟨s, none⟩ hs
  show I (body.run ⟨s, none⟩).2.state
  generalize body.run ⟨s, none⟩ = ending at hend ⊢
  obtain ⟨e | a, f⟩ := ending <;> exact hend

theorem hasArchive_reportLines {id : String} {now : Timestamp} (lines : List ReportLine)
    (s : Server) (hs : HasArchive s) : HasArchive (reportLines id now lines s) :=
  (sameVersions_reportLines id now lines s).hasArchive hs

theorem hasArchive_installHandler {env : HandlerEnv} {id : String} {now : Timestamp}
    {appId : AppId} {errorState : InstallState} (e : Option GoError) (s : Server)
    (hs : HasArchive s) : HasArchive (installHandler env id now appId errorState e s) :=
  (sameVersions_installHandler env id now appId errorState e s).hasArchive hs

theorem hasArchive_updateHandler {write : Except GoError Unit} {id : String} {now : Timestamp}
    (e : Option GoError) (s : Server) (hs : HasArchive s) :
    HasArchive (updateHandler write id now e s) :=
  (sameVersions_updateHandler write id now e s).hasArchive hs

theorem hasArchive_createAppFromOnline (env : OnlineEnv) (pendingApp : PendingApp)
    (upstreamURI : String) {s : Server} (hs : Ready env.archive pendingApp.id none s) :
    HasArchive (createAppFromOnline env pendingApp upstreamURI s).2 := by
  have hs' := (sameVersions_setTaskStatus env.uploadingStatus "online-install"
    "Uploading license..." "running" env.now s).ready hs
  unfold createAppFromOnline
  split
  next e s' hstatus =>
    rw [hstatus] at hs'
    exact hs'.hasArchive
  next s' hstatus =>
    rw [hstatus] at hs'
    refine runTask_leads ?_ hasArchive_installHandler hasArchive_reportLines hs'
    refine leads_keep ready_hasArchive (ready_pullOnline env upstreamURI) fun _ => ?_
    exact leads_installOnline env pendingApp

theorem hasArchive_createAppFromAirgap (env : AirgapEnv) (pendingApp : PendingApp)
    (registry : RegistryArgs) {s : Server} (hs : Ready env.archive pendingApp.id none s) :
    HasArchive (createAppFromAirgap env pendingApp registry s).2 := by
  have hs' := (sameVersions_setTaskStatus env.processingStatus "airgap-install"
    "Processing package..." "running" env.now s).ready hs
  unfold createAppFromAirgap
  split
  next e s' hstatus =>
    rw [hstatus] at hs'
    exact hs'.hasArchive
  next s' hstatus =>
    rw [hstatus] at hs'
    refine runTask_leads ?_ hasArchive_installHandler hasArchive_reportLines hs'
    refine leads_keep ready_hasArchive (ready_pullAirgap env pendingApp registry) fun _ => ?_
    exact leads_installAirgap env pendingApp registry

theorem hasArchive_updateAppFromAirgap (env : AirgapUpdateEnv) (a : App) {s : Server}
    (hs : Ready env.newVersion.archive a.id (some a.currentSequence) s) :
    HasArchive (updateAppFromAirgap env a s).2 := by
  have hs' := (sameVersions_setTaskStatus env.processingStatus "update-download"
    "Processing package..." "running" env.now s).ready hs
  unfold updateAppFromAirgap
  split
  next e s' hstatus =>
    rw [hstatus] at hs'
    exact hs'.hasArchive
  next s' hstatus =>
    rw [hstatus] at hs'
    exact runTask_leads (leads_updateFromAirgapBody env a) hasArchive_updateHandler
      hasArchive_reportLines hs'

theorem hasArchive_rewriteImages (env : RewriteEnv) (appId : AppId) (sequence : Int)
    (options : RewriteImageOptions) (configValues : Option String) {n : Int} {s : Server}
    (hs : Ready env.newVersion.archive appId (some n) s) :
    HasArchive (rewriteImages env appId sequence options configValues s).2 := by
  have hs' := (sameVersions_setTaskStatus env.updatingStatus "image-rewrite"
    "Updating registry settings" "running" env.now s).ready hs
  unfold rewriteImages
  split
  next e s' hstatus =>
    rw [hstatus] at hs'
    exact hs'.hasArchive
  next s' hstatus =>
    rw [hstatus] at hs'
    exact runTask_leads (leads_rewriteImagesBody env appId sequence options configValues n)
      hasArchive_updateHandler hasArchive_reportLines hs'

/-! ## The upload of the TypeScript server -/

theorem hasArchive_uploadDownstreamVersions (env : UploadEnv) (appId : AppId) (newSequence : Int)
    (source : String) (columns : AppVersionColumns) (clusterIds : List ClusterId) (s : Server)
    (hs : HasArchive s) :
    HasArchive
      (uploadDownstreamVersions env appId newSequence source columns clusterIds s).1 := by
  unfold uploadDownstreamVersions
  refine forEach_inv (I := HasArchive) clusterIds ?_ s hs
  intro clusterId _ s hs
  split
  next => exact hs
  next db hrun =>
    obtain ⟨commitUrl, -, hdb⟩ := Except.bind_eq_ok.mp hrun
    obtain ⟨diffSummary, -, hdb⟩ := Except.bind_eq_ok.mp hdb
    have happ : db.app = s.db.app := by rw [(storeInsert_rows hdb).2]
    unfold HasArchive
    dsimp only
    rw [happ]
    exact hs

/-- The archive is stored before the version becomes the current one. -/
theorem hasArchive_uploadUpdate (env : UploadEnv) (slug buffer source : String) (s : Server)
    (hs : HasArchive s) : HasArchive (uploadUpdate env slug buffer source s).1 := by
  unfold uploadUpdate
  split
  next => exact hs
  next kotsApp _ =>
    dsimp only
    split
    next => exact hs
    next =>
      have hstored : ∀ r ∈ s.db.app.rows, ∀ n, r.currentSequence = some n →
          (Function.update s.archives kotsApp.id (Function.update (s.archives kotsApp.id)
            (kotsApp.currentSequence.getD 0 + 1) (some buffer)) r.id n).isSome :=
        fun r hr n hn => isSome_update buffer (.inl (hs r hr n hn))
      have hcurrent : ∀ name icon db, db.app = s.db.app →
          ∀ r ∈ (KotsAppStore.updateAppVersion db kotsApp.id
            (kotsApp.currentSequence.getD 0 + 1) name icon).app.rows,
            ∀ n, r.currentSequence = some n →
          (Function.update s.archives kotsApp.id (Function.update (s.archives kotsApp.id)
            (kotsApp.currentSequence.getD 0 + 1) (some buffer)) r.id n).isSome := by
        intro name icon db hdb r hr n hn
        rcases mem_updateAppVersion hr with ⟨hid, hsequence⟩ | hold
        · rw [hsequence] at hn
          exact isSome_update buffer (.inr ⟨hid, (Option.some.inj hn).symm⟩)
        · rw [hdb] at hold
          exact hstored r hold n hn
      split
      next => exact hstored
      next columns _ =>
        have hmidstream : ∀ r ∈ (KotsAppStore.createMidstreamVersion s.db kotsApp.id
            (kotsApp.currentSequence.getD 0 + 1) env.now columns env.appTitle
            env.appIcon).1.app.rows, ∀ n, r.currentSequence = some n →
          (Function.update s.archives kotsApp.id (Function.update (s.archives kotsApp.id)
            (kotsApp.currentSequence.getD 0 + 1) (some buffer)) r.id n).isSome := by
          unfold KotsAppStore.createMidstreamVersion
          dsimp only
          split
          next =>
            split
            next => exact hstored
            next => exact hcurrent _ _ _ rfl
          next => exact hcurrent _ _ _ rfl
        split
        next db e hrun =>
          rw [hrun] at hmidstream
          exact hmidstream
        next db hrun =>
          rw [hrun] at hmidstream
          exact hasArchive_uploadDownstreamVersions _ _ _ _ _ _ _ hmidstream

/-! ## Runs -/

inductive Action where
  | createAppFromOnline (env : OnlineEnv) (pendingApp : PendingApp) (upstreamURI : String)
  | createAppFromAirgap (env : AirgapEnv) (pendingApp : PendingApp) (registry : RegistryArgs)
  | downloadUpdate (env : DownloadEnv) (appId : AppId) (archiveDir toCursor : String)
  | updateAppFromAirgap (env : AirgapUpdateEnv) (a : App)
  | rewriteImages (env : RewriteEnv) (appId : AppId) (sequence : Int)
      (options : RewriteImageOptions) (configValues : Option String)
  | sync (env : SyncEnv) (a : App) (licenseData : String)
  | uploadExistingApp (env : UploadExistingEnv)
  | updateAppConfig (env : ConfigEnv) (a : App) (sequence : Int)
      (request : UpdateAppConfigRequest) (isPrimaryVersion : Bool)
  | uploadUpdate (env : UploadEnv) (slug buffer source : String)

/-- Each function runs to its end, wherever it fails. -/
def machine : Machine Server Action where
  step s
    | .createAppFromOnline env pendingApp upstreamURI =>
      some (createAppFromOnline env pendingApp upstreamURI s).2
    | .createAppFromAirgap env pendingApp registry =>
      some (createAppFromAirgap env pendingApp registry s).2
    | .downloadUpdate env appId archiveDir toCursor =>
      some (downloadUpdate env appId archiveDir toCursor s).2
    | .updateAppFromAirgap env a => some (updateAppFromAirgap env a s).2
    | .rewriteImages env appId sequence options configValues =>
      some (rewriteImages env appId sequence options configValues s).2
    | .sync env a licenseData => some (runRequest (sync env a licenseData) s).2
    | .uploadExistingApp env => some (runRequest (uploadExistingApp env) s).2
    | .updateAppConfig env a sequence request isPrimaryVersion =>
      some (runRequest (updateAppConfig env a sequence request isPrimaryVersion)
        { server := s }).2.server
    | .uploadUpdate env slug buffer source => some (uploadUpdate env slug buffer source s).1

/-- No app has a version yet. -/
def NoVersions (s : Server) : Prop := ∀ r ∈ s.db.app.rows, r.currentSequence = none

/-- The upload after the commit succeeds, or replaces an object. -/
def UploadSucceeds (s : Server) : Action → Prop
  | .createAppFromOnline env pendingApp _ => Uploads env.archive pendingApp.id none s
  | .createAppFromAirgap env pendingApp _ => Uploads env.archive pendingApp.id none s
  | .downloadUpdate env appId _ _ => ∃ n, Uploads env.newVersion.archive appId (some n) s
  | .updateAppFromAirgap env a => Uploads env.newVersion.archive a.id (some a.currentSequence) s
  | .rewriteImages env appId _ _ _ => ∃ n, Uploads env.newVersion.archive appId (some n) s
  | .sync env a _ => Uploads env.archive a.id (some a.currentSequence) s
  | .uploadExistingApp env => env.Uploads s
  | .updateAppConfig env a _ request _ =>
    request.createNewVersion = true → Uploads env.archive a.id (some a.currentSequence) s
  | .uploadUpdate .. => True

/-- Every function that creates versions keeps the archive of the current version if its upload
succeeds. -/
theorem hasArchive_step {s s' : Server} {action : Action} (hs : HasArchive s)
    (hguard : UploadSucceeds s action) (hstep : machine.step s action = some s') :
    HasArchive s' := by
  cases action with
  | createAppFromOnline env pendingApp upstreamURI =>
    cases hstep
    exact hasArchive_createAppFromOnline env pendingApp upstreamURI ⟨hs, hguard⟩
  | createAppFromAirgap env pendingApp registry =>
    cases hstep
    exact hasArchive_createAppFromAirgap env pendingApp registry ⟨hs, hguard⟩
  | downloadUpdate env appId archiveDir toCursor =>
    cases hstep
    obtain ⟨n, hn⟩ := hguard
    exact runTask_leads (leads_downloadUpdateBody env appId archiveDir toCursor n)
      hasArchive_updateHandler hasArchive_reportLines ⟨hs, hn⟩
  | updateAppFromAirgap env a =>
    cases hstep
    exact hasArchive_updateAppFromAirgap env a ⟨hs, hguard⟩
  | rewriteImages env appId sequence options configValues =>
    cases hstep
    obtain ⟨n, hn⟩ := hguard
    exact hasArchive_rewriteImages env appId sequence options configValues ⟨hs, hn⟩
  | sync env a licenseData =>
    cases hstep
    exact hasArchive_runRequest (leads_sync env a licenseData) ⟨hs, hguard⟩
  | uploadExistingApp env =>
    cases hstep
    exact hasArchive_runRequest (leads_uploadExistingApp env) ⟨hs, hguard⟩
  | updateAppConfig env a sequence request isPrimaryVersion =>
    cases hstep
    have hready : ConfigReady env a request.createNewVersion s := ⟨hs, hguard⟩
    have harchive := hasArchive_runRequest (s := { server := s })
      (leads_updateAppConfig env a sequence request isPrimaryVersion) hready
    exact harchive
  | uploadUpdate env slug buffer source =>
    cases hstep
    exact hasArchive_uploadUpdate env slug buffer source s hs

/-- **The current archive.**  As long as no upload after a commit fails, the current version of
every app has its archive after every function. -/
theorem hasArchive_everyState {s : Server} (hs : machine.Reachable NoVersions UploadSucceeds s) :
    HasArchive s := by
  refine Machine.everyState_of_inv ?_ ?_ s hs
  · intro s hs r hr n hn
    rw [hs r hr] at hn
    cases hn
  · exact fun _ _ _ hs hguard hstep => hasArchive_step hs hguard hstep

/-- An app whose license was uploaded and that is to be installed. -/
def uploadedApp : Server where
  db :=
    { app := .single {
        id := "app", name := "App", slug := "app", installState := .onlineUploadPending } }

theorem noVersions_uploadedApp : NoVersions uploadedApp := by
  intro r hr
  rw [List.mem_singleton.mp hr]

def packedEnv : OnlineEnv where
  version := { loadKotsKindsFromPath := fun _ => .ok { title := "App" } }

/-- An install, and an update that is uploaded. -/
theorem hasArchive_uploaded : ∃ s, machine.Reachable NoVersions UploadSucceeds s ∧
    s.db.app.rows.map (·.currentSequence) = [some 1] ∧ HasArchive s := by
  let pendingApp : PendingApp := { id := "app", slug := "app", name := "App", licenseData := "" }
  have huploads : UploadSucceeds uploadedApp
      (.createAppFromOnline packedEnv pendingApp "replicated://app") := .inl rfl
  have hinit := Machine.Reachable.init (M := machine) (G := UploadSucceeds) noVersions_uploadedApp
  have hinstalled := hinit.step huploads rfl
  have huploaded := hinstalled.run
    [.uploadUpdate { appTitle := "App" } "app" "archive" "Kots Upload"]
    (by simp [UploadSucceeds]) rfl
  exact ⟨_, huploaded, rfl, hasArchive_everyState huploaded⟩

def storageFailsEnv : OnlineEnv where
  version := { loadKotsKindsFromPath := fun _ => .ok { title := "App" } }
  archive := .error { cause := "failed to upload to s3" }

/-- The object storage refuses the archive of the first version, which is the current one by then. -/
theorem not_hasArchive_storageFails : ¬ machine.EveryState NoVersions Machine.Free HasArchive := by
  apply Machine.not_everyState noVersions_uploadedApp
    [.createAppFromOnline storageFailsEnv
      { id := "app", slug := "app", name := "App", licenseData := "" } "replicated://app"] rfl
  intro h
  have harchive := h _ List.mem_cons_self 0 rfl
  cases harchive

end Kotsadm.Flows
