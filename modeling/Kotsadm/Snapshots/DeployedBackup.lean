import Kotsadm.Lib.NumberText
import Kotsadm.Snapshots.CreateRestore
import Kotsadm.Sockets.DeployedVersion
import Kotsadm.Sockets.RestoreLoop
import Kotsadm.Version.CreateVersion

/-!
# DeployedBackup — which version of an app a backup is annotated with

Two functions create a velero `Backup`: `CreateBackup` of the Go server, from the row of the app,
and `backup` of the API, from the version that is deployed to the cluster.  The annotation is read
by `CreateRestore` and, when velero has restored the app, by `checkRestoreComplete`.
-/

namespace Kotsadm.DeployedBackup

open KotsAppStore Version CreateRestore

/-! ## CreateBackup -/

structure CreateBackupEnv where
  downloadArchive : Except GoError Unit := .ok ()
  findBackupStoreLocation : Except GoError Unit := .ok ()
  loadKotsKinds : Except GoError KotsKinds := .ok {}
  getRegistrySettings : Except GoError Unit := .ok ()
  renderFile : Option RegistrySettings → String → Except GoError String := fun _ spec => .ok spec
  loadBackup : String → Except GoError Unit := fun _ => .ok ()
  getConfig : Except GoError Unit := .ok ()
  newForConfig : Except GoError Unit := .ok ()
  create : Except GoError Unit := .ok ()
  /-- `time.Now().UTC()` in RFC 3339. -/
  now : String := ""

def manualAnnotations (a : App) (now : String) : List (String × String) :=
  [("kots.io/snapshot-trigger", "manual"),
   ("kots.io/app-id", a.id),
   ("kots.io/app-sequence", toString a.currentSequence),
   ("kots.io/snapshot-requested", now)]

/-- `snapshot.CreateBackup`; the result is the object that velero gets. -/
def createBackup (env : CreateBackupEnv) (s : Server) (a : App) : Except GoError Backup := do
  (getAppVersionArchive env.downloadArchive s.archives a.id a.currentSequence).wrapError
    "failed to get app version archive"
  env.findBackupStoreLocation.wrapError "failed to find backupstoragelocations"
  let kinds ← env.loadKotsKinds.wrapError "failed to load kots kinds from path"
  let settings ← (getRegistrySettingsForApp env.getRegistrySettings s.db a.id).wrapError
    "failed to get registry settings for app"
  let backupSpec ← (kinds.marshal .backup).wrapError "failed to get backup spec from kotskinds"
  let renderedBackup ← (env.renderFile settings backupSpec).wrapError "failed to render backup"
  (env.loadBackup renderedBackup).wrapError "failed to load backup from contents"
  env.getConfig.wrapError "failed to get cluster config"
  env.newForConfig.wrapError "failed to create clientset"
  env.create.wrapError "failed to create velero backup"
  return { annotations := manualAnnotations a env.now }

/-! ## backup -/

structure BackupEnv where
  getAppRegistryDetails : Except String Unit := .ok ()
  kotsRenderFile : String → Except String String := fun tmpl => .ok tmpl
  safeLoad : String → Except String Unit := fun _ => .ok ()
  maybeCreateAppBackend : Except String Unit := .ok ()
  createBackup : Except String Unit := .ok ()

/-- An inner join; the order is left open, as a list of two clusters is refused. -/
def listClustersForKotsApp (db : Database) (appId : AppId) : List ClusterRow :=
  (listClusterIDsForApp db appId).filterMap db.cluster.find?

def getKotsBackupSpec (db : Database) (appId : AppId) (sequence : Int) : Except String String :=
  match db.appVersion.find? (appId, sequence) with
  | none => .error s!"Unable to find Backup Spec with appId {appId} for sequence {sequence}"
  | some row => .ok row.backupSpec

def deployedAnnotations (app : KotsApp) (cluster : ClusterRow) (deployedVersion : KotsVersion)
    (scheduled : Bool) : List (String × String) :=
  [("kots.io/snapshot-trigger", if scheduled then "schedule" else "manual"),
   ("kots.io/app-slug", app.slug),
   ("kots.io/app-id", app.id),
   ("kots.io/app-sequence", toString deployedVersion.sequence),
   ("kots.io/cluster-id", cluster.id)]

/-- `snapshots/backup.ts`; the result is the object that velero gets. -/
def backup (env : BackupEnv) (db : Database) (appId : AppId) (scheduled : Bool) :
    Except String Backup := do
  let app ← getApp db appId
  env.getAppRegistryDetails
  match listClustersForKotsApp db app.id with
  | [cluster] =>
    match ← getCurrentVersion db appId cluster.id with
    | none => throw "App does not have a deployed version"
    | some deployedVersion =>
      let tmpl ← getKotsBackupSpec db appId deployedVersion.sequence
      let rendered ← env.kotsRenderFile tmpl
      env.safeLoad rendered
      env.maybeCreateAppBackend
      env.createBackup
      return { annotations := deployedAnnotations app cluster deployedVersion scheduled }
  | _ => throw "Must have exactly 1 cluster for backup"

/-! ## checkRestoreComplete -/

/-- The sequence that the annotation of a backup names; no annotations are an empty map. -/
def restoredSequence (backup : Backup) : Except String Int :=
  if backup.annotations = [] then .error "Backup is missing required annotations"
  else
    match backup.annotations.lookup "kots.io/app-sequence" with
    | none | some "" => .error "Backup is missing sequence annotation"
    | some sequenceString =>
      match NumberText.parseIntPrefix sequenceString with
      | none => .error s!"Failed to parse sequence from Backup: {sequenceString}"
      | some sequence => .ok sequence

/-! ## The property -/

/-- A backup of the app that one of the two functions creates. -/
inductive Created (s : Server) (appId : AppId) : Backup → Prop
  | createBackup {a : App} {env : CreateBackupEnv} {b : Backup} :
      App.get (.ok ()) s.db appId = .ok a → createBackup env s a = .ok b → Created s appId b
  | backup {env : BackupEnv} {scheduled : Bool} {b : Backup} :
      backup env s.db appId scheduled = .ok b → Created s appId b

/-- The backup is of version `sequence`: a restore of it is accepted while this version is deployed,
and deploys this version again. -/
structure RestoresTo (appId : AppId) (sequence : Int) (b : Backup) : Prop where
  annotated : b.annotation "kots.io/app-sequence" = toString sequence
  -- `CreateRestore` looks at this version, and goes on when it is deployed
  found : ∀ r : Request,
    r.getBackup (.ok b) = { r with phase := .getDownstreamVersionStatus appId sequence }
  accepted : ∀ (r : Request) (db : Database),
    getDownstreamVersionStatus (.ok ()) db appId sequence = .ok "deployed" →
    r.checkStatus appId sequence (getDownstreamVersionStatus (.ok ()) db appId sequence) =
      { r with phase := .getApp appId }
  -- `checkRestoreComplete`
  restored : ∀ (s : RestoreLoop.State) (i : Nat) (t : RestoreLoop.Tick) (now : Timestamp)
    (clusterId : ClusterId), t.phase = .found .completed → t.app.id = appId →
    (s.db.appDownstream.find? (appId, clusterId)).isSome →
    ∃ s', RestoreLoop.deployRestored s i t (restoredSequence b).toOption now = some s' ∧
      deployedSequence s'.db appId clusterId = some sequence

/-- A value of a column of type `integer`. -/
def Integer (n : Int) : Prop := -2 ^ 31 ≤ n ∧ n < 2 ^ 31

theorem parseInt_toString {n : Int} (h : Integer n) : parseInt (toString n) = some n := by
  have hlow : -2 ^ 63 ≤ n := by
    have hlow := h.1
    omega
  have hhigh : n < 2 ^ 63 := by
    have hhigh := h.2
    omega
  unfold parseInt
  rw [NumberText.atoi_toString hlow hhigh]
  exact congrArg some (Int64.toInt_ofInt_of_le hlow hhigh)

section

variable {s : Server} {db : Database} {appId : AppId} {a : App} {b : Backup} {sequence : Int}

/-- Both functions annotate the id of the app. -/
theorem restoresTo_of_annotations (hid : b.annotation "kots.io/app-id" = appId)
    (hsequence : b.annotations.lookup "kots.io/app-sequence" = some (toString sequence))
    (hinteger : Integer sequence) : RestoresTo appId sequence b := by
  have hannotated : b.annotation "kots.io/app-sequence" = toString sequence := by
    unfold Backup.annotation
    rw [hsequence]
    rfl
  have hrestored : restoredSequence b = .ok sequence := by
    have hannotations : b.annotations ≠ [] := by
      intro hnil
      rw [hnil] at hsequence
      cases hsequence
    have hparse := NumberText.parseIntPrefix_toString sequence
    unfold restoredSequence
    rw [if_neg hannotations, hsequence]
    split
    next heq => cases heq
    next heq =>
      -- the empty text is not a number
      rw [Option.some.inj heq] at hparse
      cases hparse
    next heq =>
      rw [← Option.some.inj heq, hparse]
  refine ⟨hannotated, ?_, ?_, ?_⟩
  · intro r
    unfold Request.getBackup
    dsimp only
    rw [hannotated, parseInt_toString hinteger, hid]
  · intro r db hdeployed
    rw [hdeployed]
    rfl
  · intro s i t now clusterId hphase happ hdownstream
    refine ⟨{ s.advance i { t with phase := .deployed } with
      db := deployVersion s.db t.app.id sequence now }, ?_, ?_⟩
    · unfold RestoreLoop.deployRestored
      rw [if_pos hphase, hrestored]
      rfl
    · obtain ⟨downstream, hrow⟩ := Option.isSome_iff_exists.mp hdownstream
      rw [happ]
      show deployedSequence (deployVersion s.db appId sequence now) appId clusterId = _
      rw [deployedSequence_deployVersion, if_pos rfl, hrow]
      rfl

theorem createBackup_ok {env : CreateBackupEnv} (h : createBackup env s a = .ok b) :
    (s.archives a.id a.currentSequence).isSome ∧ b.annotations = manualAnnotations a env.now := by
  obtain ⟨_, harchive, h⟩ := Except.bind_eq_ok.mp h
  obtain ⟨_, -, h⟩ := Except.bind_eq_ok.mp h
  obtain ⟨kinds, -, h⟩ := Except.bind_eq_ok.mp h
  obtain ⟨settings, -, h⟩ := Except.bind_eq_ok.mp h
  obtain ⟨backupSpec, -, h⟩ := Except.bind_eq_ok.mp h
  obtain ⟨renderedBackup, -, h⟩ := Except.bind_eq_ok.mp h
  obtain ⟨_, -, h⟩ := Except.bind_eq_ok.mp h
  obtain ⟨_, -, h⟩ := Except.bind_eq_ok.mp h
  obtain ⟨_, -, h⟩ := Except.bind_eq_ok.mp h
  obtain ⟨_, -, h⟩ := Except.bind_eq_ok.mp h
  refine ⟨?_, by cases h; rfl⟩
  cases hfound : s.archives a.id a.currentSequence with
  | some archive => rfl
  | none =>
    unfold getAppVersionArchive at harchive
    rw [hfound] at harchive
    cases hdownload : env.downloadArchive <;> rw [hdownload] at harchive <;> cases harchive

/-- Nothing but the archive of the newest version is needed for a backup to be possible. -/
theorem exists_createBackup (hget : App.get (.ok ()) s.db appId = .ok a)
    (harchive : (s.archives a.id a.currentSequence).isSome) :
    ∃ b, createBackup {} s a = .ok b := by
  obtain ⟨row, hrow, rfl⟩ := get_eq_ok hget
  obtain ⟨archive, harchive⟩ := Option.isSome_iff_exists.mp harchive
  have hid : (mapApp row).id = appId := (Keyed.find?_eq_some.mp hrow).2
  have hfound : getAppVersionArchive (.ok ()) s.archives (mapApp row).id
      (mapApp row).currentSequence = .ok () := by
    unfold getAppVersionArchive
    rw [harchive]
  have hsettings : getRegistrySettingsForApp (.ok ()) s.db (mapApp row).id =
      .ok (mapRegistrySettings row) := by
    unfold getRegistrySettingsForApp
    rw [hid, hrow]
    rfl
  refine ⟨{ annotations := manualAnnotations (mapApp row) "" }, ?_⟩
  unfold createBackup
  rw [hfound, hsettings]
  rfl

theorem backup_ok {env : BackupEnv} {scheduled : Bool} {cluster : ClusterRow}
    (hcluster : listClustersForKotsApp db appId = [cluster])
    (h : backup env db appId scheduled = .ok b) :
    ∃ app deployedVersion, getApp db appId = .ok app ∧
      getCurrentVersion db appId cluster.id = .ok (some deployedVersion) ∧
      b.annotations = deployedAnnotations app cluster deployedVersion scheduled := by
  obtain ⟨app, happ, h⟩ := Except.bind_eq_ok.mp h
  obtain ⟨_, -, h⟩ := Except.bind_eq_ok.mp h
  rw [getApp_id happ, hcluster] at h
  obtain ⟨deployed, hdeployed, h⟩ := Except.bind_eq_ok.mp h
  cases deployed with
  | none => cases h
  | some deployedVersion =>
    obtain ⟨tmpl, -, h⟩ := Except.bind_eq_ok.mp h
    obtain ⟨rendered, -, h⟩ := Except.bind_eq_ok.mp h
    obtain ⟨_, -, h⟩ := Except.bind_eq_ok.mp h
    obtain ⟨_, -, h⟩ := Except.bind_eq_ok.mp h
    obtain ⟨_, -, h⟩ := Except.bind_eq_ok.mp h
    cases h
    exact ⟨app, deployedVersion, happ, hdeployed, rfl⟩

/-- **A backup restores to the deployed version** exactly when the newest version, of which
`CreateBackup` makes its backups, is the deployed one. -/
theorem restoresTo_iff_newest {cluster : ClusterRow} {d : Int}
    (hcluster : listClustersForKotsApp s.db appId = [cluster])
    (hdeployed : deployedSequence s.db appId cluster.id = some d) (hinteger : Integer d) :
    (∀ b, Created s appId b → RestoresTo appId d b) ↔
      ∀ a, App.get (.ok ()) s.db appId = .ok a →
        (s.archives a.id a.currentSequence).isSome → a.currentSequence = d := by
  constructor
  · intro hrestores a hget harchive
    obtain ⟨b, hb⟩ := exists_createBackup hget harchive
    have hannotated := (hrestores b (.createBackup hget hb)).annotated
    unfold Backup.annotation at hannotated
    rw [(createBackup_ok hb).2] at hannotated
    exact NumberText.toString_inj hannotated
  · intro hnewest b hb
    cases hb with
    | @createBackup a env _ hget hb =>
      obtain ⟨harchive, hannotations⟩ := createBackup_ok hb
      obtain ⟨row, hrow, rfl⟩ := get_eq_ok hget
      apply restoresTo_of_annotations _ _ hinteger
      · unfold Backup.annotation
        rw [hannotations]
        exact (Keyed.find?_eq_some.mp hrow).2
      · rw [hannotations, ← hnewest _ hget harchive]
        rfl
    | @backup env scheduled _ hb =>
      obtain ⟨app, deployedVersion, happ, hcurrent, hannotations⟩ := backup_ok hcluster hb
      obtain ⟨row, hsequence, -, rfl⟩ := getCurrentVersion_eq_some.mp hcurrent
      have hd : row.sequence = d := Option.some.inj (hsequence.symm.trans hdeployed)
      apply restoresTo_of_annotations _ _ hinteger
      · unfold Backup.annotation
        rw [hannotations]
        exact getApp_id happ
      · rw [hannotations, ← hd]
        rfl

end

/-! ## A newer version that is not deployed -/

def downstreamAtZero : AppDownstreamRow where
  appId := "app"
  clusterId := "cluster"
  downstreamName := "this-cluster"
  currentSequence := some 0

/-- An app whose version 0 is deployed; `newest` is the newest one. -/
def deployedServer (newest : Int) : Server where
  db :=
    { app := ⟨[{ id := "app", name := "App", slug := "app", currentSequence := some newest }],
        List.nodup_singleton _⟩
      appDownstream := ⟨[downstreamAtZero], List.nodup_singleton _⟩
      cluster := ⟨[{ id := "cluster", title := "this-cluster", token := "" }],
        List.nodup_singleton _⟩ }
  archives := fun _ _ => some "archive"

theorem restoresTo_deployed : (∃ b, Created (deployedServer 0) "app" b) ∧
    ∀ b, Created (deployedServer 0) "app" b → RestoresTo "app" 0 b := by
  have hcluster : listClustersForKotsApp (deployedServer 0).db "app" =
      [{ id := "cluster", title := "this-cluster", token := "" }] := rfl
  have hget : App.get (.ok ()) (deployedServer 0).db "app" =
      .ok ⟨"app", "app", "App", false, 0, ""⟩ := rfl
  constructor
  · obtain ⟨b, hb⟩ := exists_createBackup (s := deployedServer 0) hget rfl
    exact ⟨b, .createBackup hget hb⟩
  · refine (restoresTo_iff_newest hcluster rfl ⟨by decide, by decide⟩).mpr ?_
    intro a hget _
    cases hget
    rfl

/-- `CreateBackup` annotates version 1, which is not deployed. -/
theorem not_restoresTo_newer : ¬ ∀ (s : Server) (appId : AppId) (cluster : ClusterRow) (d : Int),
    listClustersForKotsApp s.db appId = [cluster] →
    deployedSequence s.db appId cluster.id = some d → Integer d →
    ∀ b, Created s appId b → RestoresTo appId d b := by
  intro h
  have hb : createBackup {} (deployedServer 1) ⟨"app", "app", "App", false, 1, ""⟩ =
      .ok { annotations := manualAnnotations ⟨"app", "app", "App", false, 1, ""⟩ "" } := rfl
  have hrestores := h (deployedServer 1) "app"
    { id := "cluster", title := "this-cluster", token := "" } 0 rfl rfl ⟨by decide, by decide⟩ _
    (.createBackup rfl hb)
  exact absurd hrestores.annotated (by decide)

end Kotsadm.DeployedBackup
