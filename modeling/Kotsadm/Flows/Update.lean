import Kotsadm.Flows.Task
import Kotsadm.Version.Preflight

/-!
# Update — `DownloadUpdate`, `RewriteImages` and `UpdateAppFromAirgap`

The three functions that give an app a later version in the background.
-/

namespace Kotsadm.Flows

open Version Body

/-- What the creation of a version, its archive and its preflight checks get from outside. -/
structure NewVersionEnv where
  version : VersionEnv
  archive : Except GoError String := .ok ""
  preflight : PreflightEnv

/-- The contexts of the three errors. -/
structure NewVersionContexts where
  version : String
  archive : String
  preflight : String

/-- The end of each of the functions. -/
def createNewVersion (env : NewVersionEnv) (contexts : NewVersionContexts) (appId : AppId)
    (filesInDir source : String) (currentSequence : Int) : Body TaskRun Unit := do
  let newSequence ← orFinal contexts.version (TaskRun.call
    (createVersion env.version appId filesInDir source (some currentSequence)))
  orFinal contexts.archive (TaskRun.call (createAppVersionArchive env.archive appId newSequence))
  orFinal contexts.preflight (TaskRun.call (runPreflight env.preflight appId newSequence))

/-- The deferred function of an update; the error of its write is logged. -/
def updateHandler (write : Except GoError Unit) (id : String) (now : Timestamp)
    (finalError : Option GoError) (s : Server) : Server :=
  match finalError with
  | none => (clearTaskStatus write id s).2
  | some e => (setTaskStatus write id e.text "failed" now s).2

structure RewriteImageOptions where
  host : String
  registryNamespace : String
  username : String
  password : String
  deriving DecidableEq, Repr

/-! ## DownloadUpdate -/

structure DownloadEnv where
  loadBefore : Except GoError KotsKinds
  getRegistrySettings : Except GoError Unit := .ok ()
  cipher : Except GoError Unit := .ok ()
  decode : String → Except GoError String := fun encoded => .ok encoded
  decrypt : String → Except GoError String := fun decoded => .ok decoded
  pull : String → String → Option RewriteImageOptions → Except GoError Unit := fun _ _ _ => .ok ()
  report : Report := {}
  loadAfter : Except GoError KotsKinds
  getApp : Except GoError Unit := .ok ()
  newVersion : NewVersionEnv
  writeStatus : Except GoError Unit := .ok ()
  now : Timestamp := 0

/-- The registry to rewrite the images for, if the app has one. -/
def rewriteImageOptions (env : DownloadEnv) (db : Database) (appId : AppId) :
    Except GoError (Option RewriteImageOptions) := do
  let settings ← (getRegistrySettingsForApp env.getRegistrySettings db appId).wrapError
    "failed to get registry settings"
  match settings with
  | none => return none
  | some settings =>
    env.cipher.wrapError "failed to create aes cipher"
    let decodedPassword ← (env.decode settings.passwordEnc).wrapError "failed to decode"
    let password ← (env.decrypt decodedPassword).wrapError "failed to decrypt"
    return some {
      host := settings.hostname
      registryNamespace := settings.registryNamespace
      username := settings.username
      password }

/-- `beforeKotsKinds.License.Spec.AppSlug` -/
def licenseAppSlug (kinds : KotsKinds) : Body TaskRun String :=
  match kinds.license with
  | some license => pure license.appSlug
  | none => panic

/-- What comes after the pull; the error of `app.Get` is not recorded. -/
def createDownloaded (env : DownloadEnv) (appId : AppId) (archiveDir beforeCursor : String) :
    Body TaskRun Unit := do
  let after ← orFinal "failed to read kots kinds after update" (outcome env.loadAfter)
  if after.updateCursor = beforeCursor then
    pure ()
  else
    let a ← orReturn "failed to get app" (TaskRun.query fun s => App.get env.getApp s.db appId)
    createNewVersion env.newVersion
      { version := "failed to create version"
        archive := "failed to create app version archive"
        preflight := "failed to run preflights" }
      appId archiveDir "Upstream Update" a.currentSequence

/-- The errors of the registry options are returned and not recorded. -/
def downloadUpdateBody (env : DownloadEnv) (appId : AppId) (archiveDir toCursor : String) :
    Body TaskRun Unit := do
  let before ← orFinal "failed to read kots kinds before update" (outcome env.loadBefore)
  let options ← orReturnErr (TaskRun.query fun s => rewriteImageOptions env s.db appId)
  let appSlug ← licenseAppSlug before
  orFinal "failed to pull" (TaskRun.reporting
    (env.pull s!"replicated://{appSlug}" toCursor options) "update-download" env.now env.report)
  createDownloaded env appId archiveDir before.updateCursor

def downloadUpdate (env : DownloadEnv) (appId : AppId) (archiveDir toCursor : String)
    (s : Server) : Except Abort Unit × Server :=
  runTask "update-download" env.now (updateHandler env.writeStatus "update-download" env.now)
    (downloadUpdateBody env appId archiveDir toCursor) s

/-! ## RewriteImages -/

structure RewriteEnv where
  updatingStatus : Except GoError Unit := .ok ()
  downloadArchive : Except GoError Unit := .ok ()
  loadInstallation : Except GoError Unit := .ok ()
  loadLicense : Except GoError License
  /-- The config values of the archive; `none` when the file does not exist. -/
  loadConfigValues : Except GoError (Option String) := .ok none
  listDownstreams : Except GoError Unit := .ok ()
  getApp : Except GoError Unit := .ok ()
  rewrite : String → List String → Option String → App → RewriteImageOptions →
    Except GoError Unit := fun _ _ _ _ _ => .ok ()
  report : Report := {}
  newVersion : NewVersionEnv
  writeStatus : Except GoError Unit := .ok ()
  now : Timestamp := 0

/-- The config values of the caller, or the previous ones. -/
def previousConfigValues (env : RewriteEnv) : Option String → Except GoError (Option String)
  | some configValues => .ok (some configValues)
  | none => env.loadConfigValues

/-- The errors of `ListDownstreamsForApp` and of `app.Get` are not recorded. -/
def rewriteImagesBody (env : RewriteEnv) (appId : AppId) (sequence : Int)
    (options : RewriteImageOptions) (configValues : Option String) : Body TaskRun Unit := do
  orFinal "failed to get app version archive" (TaskRun.query fun s =>
    getAppVersionArchive env.downloadArchive s.archives appId sequence)
  orFinal "failed to load installation from path" (outcome env.loadInstallation)
  let license ← orFinal "failed to load license from path" (outcome env.loadLicense)
  let configValues ← orFinal "failed to load config values from path"
    (outcome (previousConfigValues env configValues))
  let downstreams ← orReturn "failed to list downstreams" (TaskRun.query fun s =>
    listDownstreamsForApp env.listDownstreams s.db appId)
  let a ← orReturn "failed to get app" (TaskRun.query fun s => App.get env.getApp s.db appId)
  orFinal "failed to rewrite images" (TaskRun.reporting
    (env.rewrite s!"replicated://{license.appSlug}" (downstreams.map (·.downstreamName))
      configValues a options) "image-rewrite" env.now env.report)
  createNewVersion env.newVersion
    { version := "failed to create new version"
      archive := "failed to upload app version"
      preflight := "failed to run preflights" }
    appId "appDir" "Registry Change" a.currentSequence

def rewriteImages (env : RewriteEnv) (appId : AppId) (sequence : Int)
    (options : RewriteImageOptions) (configValues : Option String) (s : Server) :
    Except Abort Unit × Server :=
  match setTaskStatus env.updatingStatus "image-rewrite" "Updating registry settings" "running"
      env.now s with
  | (.error e, s) => (.error (.error (e.wrap "failed to set task status")), s)
  | (.ok _, s) =>
    runTask "image-rewrite" env.now (updateHandler env.writeStatus "image-rewrite" env.now)
      (rewriteImagesBody env appId sequence options configValues) s

/-! ## UpdateAppFromAirgap -/

structure AirgapUpdateEnv where
  processingStatus : Except GoError Unit := .ok ()
  getRegistrySettings : Except GoError Unit := .ok ()
  cipher : Except GoError Unit := .ok ()
  decode : String → Except GoError String := fun encoded => .ok encoded
  decrypt : String → Except GoError String := fun decoded => .ok decoded
  downloadArchive : Except GoError Unit := .ok ()
  loadBefore : Except GoError KotsKinds
  tmpFile : Except GoError Unit := .ok ()
  copyBundle : Except GoError Unit := .ok ()
  extractArchive : Except GoError Unit := .ok ()
  packageStatus : Except GoError Unit := .ok ()
  pull : String → String → RewriteImageOptions → Except GoError Unit := fun _ _ _ => .ok ()
  report : Report := {}
  loadAfter : Except GoError KotsKinds
  /-- A cursor of the package `cursor`, by its text. -/
  newCursor : String → Except GoError String := fun text => .ok text
  cursorComparable : String → String → Bool := fun _ _ => true
  cursorBefore : String → String → Bool
  newVersion : NewVersionEnv
  writeStatus : Except GoError Unit := .ok ()
  now : Timestamp := 0

/-- The settings are used without a check for `nil`. -/
def derefSettings : Option RegistrySettings → Body TaskRun RegistrySettings
  | some settings => pure settings
  | none => panic

def requireLicense (kinds : KotsKinds) : Body TaskRun License :=
  match kinds.license with
  | some license => pure license
  | none => fail { cause := "no license found in application" }

/-- The bundle must be newer than the current version. -/
def requireNewer (env : AirgapUpdateEnv) (before after : KotsKinds) (bc ac : String) :
    Body TaskRun Unit :=
  if !env.cursorComparable bc ac then
    fail { cause := s!"cannot compare {before.updateCursor.quote} and {after.updateCursor.quote}" }
  else if !env.cursorBefore bc ac then
    fail { cause := s!"Version {after.versionLabel} ({after.updateCursor}) cannot be installed " ++
      s!"because version {before.versionLabel} ({before.updateCursor}) is newer" }
  else pure ()

/-- What comes after the pull. -/
def createFromAirgap (env : AirgapUpdateEnv) (a : App) (before : KotsKinds) :
    Body TaskRun Unit := do
  let after ← orFinal "failed to read after kotskinds" (outcome env.loadAfter)
  let bc ← orFinal "failed to create bc" (outcome (env.newCursor before.updateCursor))
  let ac ← orFinal "failed to create ac" (outcome (env.newCursor after.updateCursor))
  requireNewer env before after bc ac
  createNewVersion env.newVersion
    { version := "failed to create new version"
      archive := "failed to upload to s3"
      preflight := "failed to start preflights" }
    a.id "currentArchivePath" "Airgap Upload" a.currentSequence

/-- What comes after the first use of the settings. -/
def pullFromAirgap (env : AirgapUpdateEnv) (a : App) (settings : RegistrySettings) :
    Body TaskRun Unit := do
  let decodedPassword ← orFinal "failed to decode" (outcome (env.decode settings.passwordEnc))
  let password ← orFinal "failed to decrypt" (outcome (env.decrypt decodedPassword))
  orFinal "failed to get current archive" (TaskRun.query fun s =>
    getAppVersionArchive env.downloadArchive s.archives a.id a.currentSequence)
  let before ← orFinal "failed to load current kotskinds" (outcome env.loadBefore)
  let license ← requireLicense before
  orFinal "failed to create temp file" (outcome env.tmpFile)
  orFinal "failed to copy temp airgap" (outcome env.copyBundle)
  orFinal "failed to extract archive" (outcome env.extractArchive)
  orFinal "failed to set task status" (TaskRun.call (setTaskStatus env.packageStatus
    "update-download" "Processing app package..." "running" env.now))
  orFinal "failed to pull" (TaskRun.reporting
    (env.pull s!"replicated://{license.appSlug}" before.updateCursor
      { host := settings.hostname, registryNamespace := settings.registryNamespace,
        username := settings.username, password }) "update-download" env.now env.report)
  createFromAirgap env a before

/-- Every error is recorded. -/
def updateFromAirgapBody (env : AirgapUpdateEnv) (a : App) : Body TaskRun Unit := do
  let settings ← orFinal "failed to get app registry settings" (TaskRun.query fun s =>
    getRegistrySettingsForApp env.getRegistrySettings s.db a.id)
  orFinal "failed to create aes cipher" (outcome env.cipher)
  let settings ← derefSettings settings
  pullFromAirgap env a settings

def updateAppFromAirgap (env : AirgapUpdateEnv) (a : App) (s : Server) :
    Except Abort Unit × Server :=
  match setTaskStatus env.processingStatus "update-download" "Processing package..." "running"
      env.now s with
  | (.error e, s) => (.error (.error (e.wrap "failed to set tasks status")), s)
  | (.ok _, s) =>
    runTask "update-download" env.now (updateHandler env.writeStatus "update-download" env.now)
      (updateFromAirgapBody env a) s

end Kotsadm.Flows
