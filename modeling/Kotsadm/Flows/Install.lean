import Kotsadm.Flows.Task
import Kotsadm.Version.CreateVersion

/-!
# Install — `CreateAppFromOnline` and `CreateAppFromAirgap`

The two functions that give a pending app its first version.  Each sets the install state to
`installed` half-way, and again in its deferred function, which decides by `finalError`.
-/

namespace Kotsadm.Flows

open Version Body

structure PendingApp where
  id : AppId
  slug : String
  name : String
  licenseData : String
  deriving DecidableEq, Repr

/-! ## The downstreams of a new app -/

/-- What the creation of the downstreams gets from outside. -/
structure DownstreamsEnv where
  queryClusters : Except GoError Unit := .ok ()
  scan : ClusterRow → Except GoError Unit := fun _ => .ok ()
  insert : ClusterRow → Except GoError Unit := fun _ => .ok ()
  /-- The order in which Go goes through the map of the clusters. -/
  range : List ClusterRow → List ClusterRow := id
  range_perm : ∀ rows, (range rows).Perm rows := by exact fun rows => .refl rows

def insertAppDownstream (outcome : Except GoError Unit) (appId : AppId) (cluster : ClusterRow) :
    Call Unit := fun s =>
  match outcome, s.db.appDownstream.insert?
      { appId, clusterId := cluster.id, downstreamName := cluster.title } with
  | .error e, _ => (.error e, s)
  | .ok _, none => (.error { cause := "duplicate key value violates unique constraint" }, s)
  | .ok _, some appDownstream => (.ok (), { s with db := { s.db with appDownstream } })

/-- Every cluster of the database becomes a downstream of the app. -/
def createDownstreams (env : DownstreamsEnv) (appId : AppId) : Body TaskRun Unit := do
  let clusters ← orFinal "failed to query clusters" (TaskRun.query fun s =>
    env.queryClusters.map fun _ => s.db.cluster.rows)
  forEach clusters fun cluster => orFinal "failed to scan row" (outcome (env.scan cluster))
  forEach (env.range clusters) fun cluster =>
    orFinal "failed to create app downstream"
      (TaskRun.call (insertAppDownstream (env.insert cluster) appId cluster))

/-! ## The install state -/

/-- `update app set install_state = 'installed', is_airgap = …` -/
def setInstalled (outcome : Except GoError Unit) (appId : AppId) (isAirgap : Bool) : Call Unit :=
  updateApp outcome appId (fun r => { r with installState := .installed, isAirgap }) fun _ => rfl

def setIsAirgap (outcome : Except GoError Unit) (appId : AppId) : Call Unit :=
  updateApp outcome appId (fun r => { r with isAirgap := true }) fun _ => rfl

/-- The writes of the deferred function; their errors are logged. -/
structure HandlerEnv where
  taskStatus : Except GoError Unit := .ok ()
  installState : Except GoError Unit := .ok ()

def installHandler (env : HandlerEnv) (id : String) (now : Timestamp) (appId : AppId)
    (errorState : InstallState) (finalError : Option GoError) (s : Server) : Server :=
  match finalError with
  | none =>
    let (_, s) := clearTaskStatus env.taskStatus id s
    (setAppInstallState env.installState appId .installed s).2
  | some e =>
    let (_, s) := setTaskStatus env.taskStatus id e.text "failed" now s
    (setAppInstallState env.installState appId errorState s).2

/-! ## CreateAppFromOnline -/

structure OnlineEnv where
  uploadingStatus : Except GoError Unit := .ok ()
  licenseFile : Except GoError Unit := .ok ()
  writeLicense : Except GoError Unit := .ok ()
  tmpRoot : Except GoError Unit := .ok ()
  readConfigValues : Except GoError String := .ok ""
  configFile : Except GoError Unit := .ok ()
  writeConfigValues : Except GoError Unit := .ok ()
  pull : String → Except GoError Unit := fun _ => .ok ()
  report : Report := {}
  downstreams : DownstreamsEnv := {}
  setInstalled : Except GoError Unit := .ok ()
  version : VersionEnv
  archive : Except GoError String := .ok ""
  loadKotsKinds : Except GoError KotsKinds := .ok {}
  handler : HandlerEnv := {}
  now : Timestamp := 0

def writeConfigValues (env : OnlineEnv) (configValues : String) : Body TaskRun Unit :=
  if configValues = "" then pure () else do
    orFinal "failed to create temp file for config values" (outcome env.configFile)
    orFinal "failed to write config values to temp file" (outcome env.writeConfigValues)

/-- What comes after the pull. -/
def installOnline (env : OnlineEnv) (pendingApp : PendingApp) : Body TaskRun KotsKinds := do
  createDownstreams env.downstreams pendingApp.id
  orFinal "failed to update app to installed"
    (TaskRun.call (setInstalled env.setInstalled pendingApp.id false))
  let newSequence ← orFinal "failed to create new version"
    (TaskRun.call (createFirstVersion env.version pendingApp.id "tmpRoot" "Online Install"))
  orFinal "failed to create app version archive"
    (TaskRun.call (createAppVersionArchive env.archive pendingApp.id newSequence))
  orFinal "failed to load kotskinds from path" (outcome env.loadKotsKinds)

/-- The errors of the first and of the last statement here are returned and not recorded. -/
def pullOnline (env : OnlineEnv) (upstreamURI : String) : Body TaskRun Unit := do
  orReturn "failed to create tmp file for license" (outcome env.licenseFile)
  orFinal "failed to write license tmp file" (outcome env.writeLicense)
  orFinal "failed to create tmp dir for pull" (outcome env.tmpRoot)
  let configValues ← orFinal "failed to read config values from in cluster"
    (outcome env.readConfigValues)
  writeConfigValues env configValues
  orReturn "failed to pull"
    (TaskRun.reporting (env.pull upstreamURI) "online-install" env.now env.report)

def createAppFromOnline (env : OnlineEnv) (pendingApp : PendingApp) (upstreamURI : String)
    (s : Server) : Except Abort KotsKinds × Server :=
  match setTaskStatus env.uploadingStatus "online-install" "Uploading license..." "running" env.now
      s with
  | (.error e, s) => (.error (.error (e.wrap "failed to set task status")), s)
  | (.ok _, s) =>
    runTask "online-install" env.now
      (installHandler env.handler "online-install" env.now pendingApp.id .installError)
      (do
        pullOnline env upstreamURI
        installOnline env pendingApp) s

/-! ## CreateAppFromAirgap -/

/-- The registry of the request, with the password as it was entered. -/
structure RegistryArgs where
  registryHost : String := ""
  registryNamespace : String := ""
  username : String := ""
  password : String := ""
  deriving DecidableEq, Repr

structure AirgapEnv where
  processingStatus : Except GoError Unit := .ok ()
  setIsAirgap : Except GoError Unit := .ok ()
  tmpFile : Except GoError Unit := .ok ()
  copyBundle : Except GoError Unit := .ok ()
  extractArchive : Except GoError Unit := .ok ()
  packageStatus : Except GoError Unit := .ok ()
  workspace : Except GoError Unit := .ok ()
  extractAppRelease : Except GoError Unit := .ok ()
  tmpRoot : Except GoError Unit := .ok ()
  /-- The decoded object; `none` is an object of another kind than `License`. -/
  decode : String → Except GoError (Option License)
  licenseFile : Except GoError Unit := .ok ()
  writeLicense : Except GoError Unit := .ok ()
  pull : String → RegistryArgs → Except GoError Unit := fun _ _ => .ok ()
  report : Report := {}
  downstreams : DownstreamsEnv := {}
  getApp : Except GoError Unit := .ok ()
  cipher : Except GoError Unit := .ok ()
  updateRegistry : Except GoError Unit := .ok ()
  encrypt : String → String := id
  setInstalled : Except GoError Unit := .ok ()
  version : VersionEnv
  archive : Except GoError String := .ok ""
  handler : HandlerEnv := {}
  now : Timestamp := 0

/-- The type assertion `obj.(*kotsv1beta1.License)` -/
def assertLicense : Option License → Body TaskRun License
  | some license => pure license
  | none => panic

/-- What comes after the pull. -/
def installAirgap (env : AirgapEnv) (pendingApp : PendingApp) (registry : RegistryArgs) :
    Body TaskRun Unit := do
  createDownstreams env.downstreams pendingApp.id
  let a ← orFinal "failed to get app from pending app"
    (TaskRun.query fun s => App.get env.getApp s.db pendingApp.id)
  orFinal "failed to update registry" (TaskRun.call (updateRegistry env.cipher env.updateRegistry
    pendingApp.id
    { hostname := registry.registryHost, username := registry.username,
      passwordEnc := env.encrypt registry.password,
      registryNamespace := registry.registryNamespace }))
  orFinal "failed to update app to installed"
    (TaskRun.call (setInstalled env.setInstalled pendingApp.id true))
  let newSequence ← orFinal "failed to create new version"
    (TaskRun.call (createFirstVersion env.version a.id "tmpRoot" "Airgap Upload"))
  orFinal "failed to create app version archive"
    (TaskRun.call (createAppVersionArchive env.archive pendingApp.id newSequence))

/-- Every error here is recorded. -/
def pullAirgap (env : AirgapEnv) (pendingApp : PendingApp) (registry : RegistryArgs) :
    Body TaskRun Unit := do
  orFinal "failed to set app airgap flag"
    (TaskRun.call (setIsAirgap env.setIsAirgap pendingApp.id))
  orFinal "failed to create temp file" (outcome env.tmpFile)
  orFinal "failed to copy temp airgap" (outcome env.copyBundle)
  orFinal "failed to extract archive" (outcome env.extractArchive)
  orFinal "failed to set task status" (TaskRun.call (setTaskStatus env.packageStatus
    "airgap-install" "Processing app package..." "running" env.now))
  orFinal "failed to create workspace" (outcome env.workspace)
  orFinal "failed to extract app dir" (outcome env.extractAppRelease)
  orFinal "failed to create temp root" (outcome env.tmpRoot)
  let obj ← orFinal "failed to read pending license data"
    (outcome (env.decode pendingApp.licenseData))
  let license ← assertLicense obj
  orFinal "failed to create temp file" (outcome env.licenseFile)
  orFinal "failed to write license to temp file" (outcome env.writeLicense)
  orFinal "failed to pull" (TaskRun.reporting
    (env.pull s!"replicated://{license.appSlug}" registry) "airgap-install" env.now env.report)

def createAppFromAirgap (env : AirgapEnv) (pendingApp : PendingApp) (registry : RegistryArgs)
    (s : Server) : Except Abort Unit × Server :=
  match setTaskStatus env.processingStatus "airgap-install" "Processing package..." "running"
      env.now s with
  | (.error e, s) => (.error (.error (e.wrap "failed to set task status")), s)
  | (.ok _, s) =>
    runTask "airgap-install" env.now
      (installHandler env.handler "airgap-install" env.now pendingApp.id .airgapUploadError)
      (do
        pullAirgap env pendingApp registry
        installAirgap env pendingApp registry) s

end Kotsadm.Flows
