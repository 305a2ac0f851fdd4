import Kotsadm.Lib.Deferred
import Kotsadm.Version.Preflight

/-!
# Request — requests that create versions

The license sync, the upload of `kots upload` and the config change.  They run in the goroutine of
the request and return their errors to it; none of them has a task.
-/

namespace Kotsadm.Flows

open Version Body

/-- Runs a function without a deferred handler. -/
def runRequest {σ α : Type} (body : Body σ α) (s : σ) : Except Abort α × σ :=
  let (result, f) := body.run ⟨s, none⟩
  (result, f.state)

/-! ## License sync -/

structure SyncEnv where
  downloadArchive : Except GoError Unit := .ok ()
  loadKotsKinds : Except GoError KotsKinds
  /-- The decoded object; `none` is an object of another kind than `License`. -/
  decode : String → Except GoError (Option License) := fun _ => .ok none
  verifySignature : License → Except GoError License := fun license => .ok license
  getLatestLicense : License → Except GoError License := fun license => .ok license
  encode : License → Except GoError String := fun _ => .ok ""
  writeLicense : Except GoError Unit := .ok ()
  updateAppLicense : Except GoError Unit := .ok ()
  getRegistrySettings : Except GoError Unit := .ok ()
  renderDir : Option RegistrySettings → Except GoError Unit := fun _ => .ok ()
  version : VersionEnv
  archive : Except GoError String := .ok ""
  preflight : PreflightEnv

def latestLicense (env : SyncEnv) (current : License) (licenseData : String) :
    Body Server License :=
  if licenseData = "" then
    orReturn "failed to get latest license" (outcome (env.getLatestLicense current))
  else do
    let obj ← orReturn "failed to parse license" (outcome (env.decode licenseData))
    match obj with
    | none => panic
    | some license =>
      orReturn "failed to verify license" (outcome (env.verifySignature license))

def updateAppLicense (outcome : Except GoError Unit) (a : App) (licenseData : String) : Call Unit :=
  fun s =>
    let (result, s) := updateApp outcome a.id (fun r => { r with license := licenseData })
      (fun _ => rfl) s
    (result.wrapError s!"update app {a.id.quote} license", s)

/-- Saves the license and makes a new version. -/
def createLicensed (env : SyncEnv) (a : App) (license : License) : Body Server Unit := do
  let encodedLicense ← orReturn "failed to encode license" (outcome (env.encode license))
  orReturn "failed to write new license" (outcome env.writeLicense)
  orReturn "update app license" (updateAppLicense env.updateAppLicense a encodedLicense)
  let settings ← orReturn "failed to get registry settings for app" (fun s =>
    (getRegistrySettingsForApp env.getRegistrySettings s.db a.id, s))
  orReturn "failed to render new version" (outcome (env.renderDir settings))
  let newSequence ← orReturn "failed to create new version"
    (createVersion env.version a.id "archiveDir" "License Change" (some a.currentSequence))
  orReturn "failed to upload" (createAppVersionArchive env.archive a.id newSequence)
  orReturn "failed to run preflights" (runPreflight env.preflight a.id newSequence)

def requireCurrentLicense (kinds : KotsKinds) : Body Server License :=
  match kinds.license with
  | some license => pure license
  | none => orReturnErr (outcome (.error { cause := "app does not contain a license" }))

/-- `license.Sync` -/
def sync (env : SyncEnv) (a : App) (licenseData : String) : Body Server License := do
  orReturn "failed to get latest app version" (fun s =>
    (getAppVersionArchive env.downloadArchive s.archives a.id a.currentSequence, s))
  let kinds ← orReturn "failed to load kots kinds from archive" (outcome env.loadKotsKinds)
  let current ← requireCurrentLicense kinds
  let latest ← latestLicense env current licenseData
  if latest.licenseSequence = current.licenseSequence then
    return latest
  else
    createLicensed env a latest
    return latest

/-! ## UploadExistingApp -/

structure UploadExistingEnv where
  requireValidKOTSToken : Except GoError Unit := .ok ()
  /-- The slug of the metadata. -/
  metadata : Except GoError String
  formFile : Except GoError Unit := .ok ()
  tmpFile : Except GoError Unit := .ok ()
  copyArchive : Except GoError Unit := .ok ()
  extractArchive : Except GoError Unit := .ok ()
  loadKotsKinds : Except GoError KotsKinds
  encryptConfigValues : KotsKinds → Except GoError KotsKinds := fun kinds => .ok kinds
  writeConfigValues : String → Except GoError Unit := fun _ => .ok ()
  scanId : Except GoError Unit := .ok ()
  getApp : Except GoError Unit := .ok ()
  version : VersionEnv
  archive : Except GoError String := .ok ""
  preflight : PreflightEnv

/-- Every error is logged and answered with a status. -/
def uploadExistingApp (env : UploadExistingEnv) : Body Server String := do
  orReturnErr (outcome env.requireValidKOTSToken)
  let slug ← orReturnErr (outcome env.metadata)
  orReturnErr (outcome env.formFile)
  orReturnErr (outcome env.tmpFile)
  orReturnErr (outcome env.copyArchive)
  orReturnErr (outcome env.extractArchive)
  let kinds ← orReturnErr (outcome env.loadKotsKinds)
  let kinds ← orReturnErr (outcome (env.encryptConfigValues kinds))
  let updated ← orReturnErr (outcome (kinds.marshal .configValues))
  orReturnErr (outcome (env.writeConfigValues updated))
  let a ← orReturnErr (fun s => (App.getFromSlug env.scanId env.getApp s.db slug, s))
  let newSequence ← orReturnErr
    (createVersion env.version a.id "archiveDir" "KOTS Upload" (some a.currentSequence))
  orReturnErr (createAppVersionArchive env.archive a.id newSequence)
  orReturnErr (runPreflight env.preflight a.id newSequence)
  return a.slug

/-! ## Config changes -/

/-- `multitype.BoolOrString` -/
inductive BoolOrString where
  | bool (b : Bool)
  | str (s : String)
  deriving DecidableEq, Repr

def BoolOrString.text : BoolOrString → String
  | .bool b => toString b
  | .str s => s

structure ConfigItem where
  name : String
  title : String := ""
  type : String := ""
  required : Bool := false
  hidden : Bool := false
  when : String := ""
  value : BoolOrString := .str ""
  default : BoolOrString := .str ""
  deriving DecidableEq, Repr

def isRequiredItem (item : ConfigItem) : Bool :=
  item.required && !(item.hidden || item.when = "false")

def isUnsetItem (item : ConfigItem) : Bool :=
  item.value.text = "" && item.default.text = ""

structure UpdateAppConfigRequest where
  sequence : Int
  createNewVersion : Bool
  configGroups : List (List ConfigItem)
  deriving DecidableEq, Repr

structure UpdateAppConfigResponse where
  success : Bool := false
  error : String := ""
  requiredItems : List String := []
  deriving DecidableEq, Repr

structure ConfigEnv where
  downloadArchive : Except GoError Unit := .ok ()
  loadKotsKinds : Except GoError KotsKinds
  cipher : String → Except GoError Unit := fun _ => .ok ()
  decrypt : String → String → Except GoError String := fun _ text => .ok text
  encrypt : String → String → String := fun _ text => text
  marshalConfigValues : ConfigValues → Except GoError String := fun _ => .ok ""
  writeConfigValues : String → Except GoError Unit := fun _ => .ok ()
  getRegistrySettings : Except GoError Unit := .ok ()
  renderDir : Option RegistrySettings → Except GoError Unit := fun _ => .ok ()
  version : VersionEnv
  /-- The config values of the rendered archive. -/
  renderedConfigValues : Except GoError String := .ok ""
  updateConfigValues : Except GoError Unit := .ok ()
  archive : Except GoError String := .ok ""
  setPendingPreflight : Except GoError Unit := .ok ()
  preflight : PreflightEnv

structure ConfigRun where
  server : Server
  response : UpdateAppConfigResponse := {}

/-- A call whose error is returned together with a response that has a text of its own. -/
def responding {α : Type} (text : GoError → String) (call : Server → Except GoError α × Server) :
    ConfigRun → Except GoError α × ConfigRun := fun r =>
  match call r.server with
  | (.ok a, s) => (.ok a, { r with server := s })
  | (.error e, s) => (.error e, { server := s, response := { r.response with error := text e } })

def orRespond {α : Type} (text : String) (call : Server → Except GoError α × Server) :
    Body ConfigRun α :=
  orReturnErr (responding (fun _ => text) call)

def respond (response : UpdateAppConfigResponse) : Body ConfigRun Unit :=
  orReturnErr fun r => (.ok (), { r with response })

/-- The value to store for a submitted item; a password that can be decrypted is encrypted
already. -/
def submittedValue (env : ConfigEnv) (encryptionKey : String) (item : ConfigItem) :
    Except GoError String :=
  match item.value with
  | .bool b => .ok (toString b)
  | .str text =>
    if item.type = "password" then
      (env.cipher encryptionKey).map fun _ =>
        if (env.decrypt encryptionKey text).isOk then text else env.encrypt encryptionKey text
    else .ok text

def setConfigValue (values : String → Option ConfigValue) (name value : String) :
    String → Option ConfigValue :=
  Function.update values name (some { (values name).getD {} with value })

/-- An assignment to a nil map panics. -/
def assignConfigValue (name value : String) :
    Option (String → Option ConfigValue) → Body ConfigRun (Option (String → Option ConfigValue))
  | none => panic
  | some values => pure (some (setConfigValue values name value))

def mergeConfigValues (env : ConfigEnv) (encryptionKey : String) :
    List ConfigItem → Option (String → Option ConfigValue) →
      Body ConfigRun (Option (String → Option ConfigValue))
  | [], values => pure values
  | item :: items, values => do
    let value ← orRespond "failed to get encryption cipher"
      (outcome (submittedValue env encryptionKey item))
    let values ← assignConfigValue item.name value values
    mergeConfigValues env encryptionKey items values

/-- `kotsKinds.ConfigValues.Spec.Values`; the check for a missing `ConfigValues` comes later. -/
def specValues (kinds : KotsKinds) : Body ConfigRun (Option (String → Option ConfigValue)) :=
  match kinds.configValues with
  | none => panic
  | some configValues => pure configValues.values

def updateConfigValuesInDB (rendered : Except GoError String) (outcome : Except GoError Unit)
    (appId : AppId) (sequence : Int) : Call Unit := fun s =>
  match rendered, outcome with
  | .error e, _ => (.error e, s)
  | .ok _, .error e => (.error (e.wrap "failed to update config values in db"), s)
  | .ok configValues, .ok _ =>
    (.ok (), { s with
      db := { s.db with
        appVersion := s.db.appVersion.updateWhere (fun r => r.appId = appId && r.sequence = sequence)
          (fun r => { r with configValues }) fun _ => rfl } })

/-- A new version with the config, or the old one changed in place; the sequence it has. -/
def storeConfig (env : ConfigEnv) (a : App) (sequence : Int) (createNewVersion : Bool) :
    Body ConfigRun Int :=
  if createNewVersion then do
    let newSequence ← orRespond "failed to create an app version"
      (createVersion env.version a.id "archiveDir" "Config Change" (some a.currentSequence))
    orRespond "failed to create an app version archive"
      (createAppVersionArchive env.archive a.id newSequence)
    return newSequence
  else do
    orRespond "failed to update config values in db"
      (updateConfigValuesInDB env.renderedConfigValues env.updateConfigValues a.id sequence)
    orRespond "failed to create app version archive"
      (createAppVersionArchive env.archive a.id sequence)
    return sequence

def setDownstreamVersionPendingPreflight (outcome : Except GoError Unit) (appId : AppId)
    (sequence : Int) : Call Unit := fun s =>
  match outcome with
  | .error e => (.error (e.wrap "failed to set downstream version pending preflight"), s)
  | .ok _ =>
    (.ok (), { s with db := setDownstreamVersionStatus s.db appId sequence "pending_preflight" })

/-- What comes after the check of the required items. -/
def applyConfig (env : ConfigEnv) (a : App) (sequence : Int) (request : UpdateAppConfigRequest)
    (kinds : KotsKinds) : Body ConfigRun Unit := do
  let values ← specValues kinds
  let values ← mergeConfigValues env kinds.encryptionKey request.configGroups.flatten values
  let configValues ← orRespond "failed to marshal config values spec"
    (outcome (env.marshalConfigValues { values }))
  orRespond "failed to write config.yaml to upstream/userdata"
    (outcome (env.writeConfigValues configValues))
  let settings ← orRespond "failed to get registry settings" (fun s =>
    (getRegistrySettingsForApp env.getRegistrySettings s.db a.id, s))
  orRespond "failed to render archive directory" (outcome (env.renderDir settings))
  let sequence ← storeConfig env a sequence request.createNewVersion
  orRespond "failed to set downstream status to 'pending preflight'"
    (setDownstreamVersionPendingPreflight env.setPendingPreflight a.id sequence)
  orReturnErr (responding GoError.cause (runPreflight env.preflight a.id sequence))
  respond { success := true }

def requiredItems (request : UpdateAppConfigRequest) : List ConfigItem :=
  request.configGroups.flatten.filter fun item => isRequiredItem item && isUnsetItem item

/-- `updateAppConfig`; the response is in the state. -/
def updateAppConfig (env : ConfigEnv) (a : App) (sequence : Int)
    (request : UpdateAppConfigRequest) (isPrimaryVersion : Bool) : Body ConfigRun Unit := do
  orRespond "failed to get app version archive" (fun s =>
    (getAppVersionArchive env.downloadArchive s.archives a.id sequence, s))
  let kinds ← orRespond "failed to load kots kinds from path" (outcome env.loadKotsKinds)
  let required := requiredItems request
  if required ≠ [] ∧ isPrimaryVersion then
    let titles := required.map fun item => if item.title ≠ "" then item.title else item.name
    respond {
      requiredItems := required.map (·.name)
      error := "The following fields are required: " ++ ", ".intercalate titles }
  else
    applyConfig env a sequence request kinds

end Kotsadm.Flows
