import Kotsadm.Lib.Deferred
import Kotsadm.Lib.Keyed
import Kotsadm.Lib.Throws
import Kotsadm.Snapshots.AzureConfig

/-!
# GlobalStore — where snapshots are stored

The settings are kept in the velero `BackupStorageLocation` named `default` and in the secret
`cloud-credentials` beside it.  `updateGlobalStore` writes them and `getGlobalStore` reads them
back, guessing from the two which kind of store it was.
-/

namespace Kotsadm.Snapshots

open GoString

/-! ## The settings -/

structure StoreAWS where
  region : GoString := []
  accessKeyID : GoString := []
  secretAccessKey : GoString := []
  useInstanceRole : Bool := false
  deriving DecidableEq, Repr

structure StoreGoogle where
  serviceAccount : GoString := []
  useInstanceRole : Bool := false
  deriving DecidableEq, Repr

structure StoreAzure where
  resourceGroup : GoString := []
  storageAccount : GoString := []
  subscriptionID : GoString := []
  tenantID : GoString := []
  clientID : GoString := []
  clientSecret : GoString := []
  cloudName : GoString := []
  deriving DecidableEq, Repr

structure StoreOther where
  region : GoString := []
  accessKeyID : GoString := []
  secretAccessKey : GoString := []
  endpoint : GoString := []
  deriving DecidableEq, Repr

structure Store where
  provider : GoString
  bucket : GoString
  path : GoString
  aws : Option StoreAWS := none
  azure : Option StoreAzure := none
  google : Option StoreGoogle := none
  other : Option StoreOther := none
  deriving DecidableEq, Repr

/-! ## The cluster -/

/-- A Go map; `none` is the nil map. -/
abbrev GoMap := Option (String → Option GoString)

namespace GoMap

def get (m : GoMap) (key : String) : Option GoString := m.bind fun f => f key

/-- The zero value for a missing key. -/
def value (m : GoMap) (key : String) : GoString := (m.get key).getD []

/-- An assignment to an entry of the nil map panics. -/
def set (m : GoMap) (key : String) (value : GoString) : Except Abort GoMap :=
  match m with
  | none => .error .panic
  | some f => .ok (some (Function.update f key (some value)))

def delete (m : GoMap) (key : String) : GoMap := m.map fun f => Function.update f key none

theorem get_set {m m' : GoMap} {key : String} {value : GoString} (h : m.set key value = .ok m')
    (other : String) : m'.get other = if other = key then some value else m.get other := by
  unfold set at h
  split at h
  next => cases h
  next f =>
    cases h
    simp [get, Function.update_apply]

theorem get_delete (m : GoMap) (key other : String) :
    (m.delete key).get other = if other = key then none else m.get other := by
  cases m with
  | none => simp [get, delete]
  | some f => simp [get, delete, Function.update_apply]

end GoMap

structure ObjectStorageLocation where
  bucket : GoString := []
  objectPrefix : GoString := []

structure BackupStorageLocation where
  name : String
  ns : String
  provider : GoString := []
  objectStorage : Option ObjectStorageLocation := none
  config : GoMap := none

def BackupStorageLocation.key (l : BackupStorageLocation) : String × String := (l.ns, l.name)

structure Secret where
  data : GoMap := none

/-- The storage locations, and the secret `cloud-credentials` of each namespace. -/
structure Cluster where
  backupStorageLocations : Keyed BackupStorageLocation.key
  cloudCredentials : String → Option Secret := fun _ => none

namespace Cluster

/-- The loop over the listed locations. -/
def defaultLocation (c : Cluster) : Option BackupStorageLocation :=
  c.backupStorageLocations.rows.find? fun l => l.name = "default"

/-- The secret beside the default location. -/
def currentSecret (c : Cluster) : Option Secret :=
  c.defaultLocation.bind fun l => c.cloudCredentials l.ns

def setSecret (c : Cluster) (ns : String) (secret : Option Secret) : Cluster :=
  { c with cloudCredentials := Function.update c.cloudCredentials ns secret }

def setLocation (c : Cluster) (l : BackupStorageLocation) : Cluster :=
  { c with
    backupStorageLocations := c.backupStorageLocations.updateWhere (fun other => other.key = l.key)
      (fun other => { l with name := other.name, ns := other.ns }) fun _ => rfl }

end Cluster

/-! ## Calls -/

inductive Call where
  | getConfig
  | newClientset
  | newVeleroClient
  | findGetConfig
  | findNewVeleroClient
  | listBackupStorageLocations
  | getSecret
  | newSection
  | newKey (name : String)
  | writeTo
  | flush
  | createSecret
  | updateSecret
  | deleteSecret
  | updateBackupStorageLocation
  deriving DecidableEq, Repr

/-- The calls that fail; that the secret is not found is no failure. -/
structure Calls where
  failure : Call → Option GoError := fun _ => none

def Calls.call (calls : Calls) (c : Call) (context : String) : Except Abort Unit :=
  match calls.failure c with
  | none => .ok ()
  | some e => .error (.error (e.wrap context))

/-- `errors.Wrap` of what is not a panic. -/
def wrapAbort {α : Type} (context : String) : Except Abort α → Except Abort α
  | .error (.error e) => .error (.error (e.wrap context))
  | r => r

structure IniSection where
  name : GoString
  keys : List (GoString × GoString)

/-- `section.Key(name).Value()` -/
def IniSection.value (s : IniSection) (name : GoString) : GoString := (s.keys.lookup name).getD []

/-- The package `ini`: what it writes for a file with these sections, and what it reads. -/
structure Ini where
  writeTo : List IniSection → GoString
  load : GoString → Except GoError (List IniSection)

/-! ## UpdateGlobalStore -/

def createOrUpdateSecret (calls : Calls) (currentSecret : Option Secret) (cloud : GoString) :
    Except Abort Secret :=
  match currentSecret with
  | none => do
    calls.call .createSecret "failed to create aws secret"
    return { data := some (Function.update (fun _ => none) "cloud" (some cloud)) }
  | some secret => do
    let data := secret.data.getD fun _ => none
    calls.call .updateSecret "failed to update aws secret"
    return { data := some (Function.update data "cloud" (some cloud)) }

def deleteSecret (calls : Calls) (currentSecret : Option Secret) (context : String) :
    Except Abort Unit :=
  match currentSecret with
  | none => .ok ()
  | some _ => calls.call .deleteSecret context

/-- The section that the AWS branch writes. -/
def defaultSection (accessKeyID secretAccessKey : GoString) : IniSection where
  name := ascii "default"
  keys := [(ascii "aws_access_key_id", accessKeyID),
    (ascii "aws_secret_access_key", secretAccessKey)]

def updateAWS (calls : Calls) (ini : Ini) (aws : StoreAWS) (config : GoMap)
    (currentSecret : Option Secret) : Except Abort (GoMap × Option Secret) := do
  let config ← config.set "region" aws.region
  -- s3Url can be set by Other and conflicts with S3
  let config := config.delete "s3Url"
  if aws.useInstanceRole then
    deleteSecret calls currentSecret "failed to delete aws secret"
    return (config, none)
  else
    calls.call .newSection "failed to create default section in aws creds"
    calls.call (.newKey "aws_access_key_id") "failed to create access key"
    calls.call (.newKey "aws_secret_access_key") "failed to create secret access key"
    calls.call .writeTo "failed to write ini"
    calls.call .flush "failed to flush buffer"
    let awsCredentials := ini.writeTo [defaultSection aws.accessKeyID aws.secretAccessKey]
    let secret ← createOrUpdateSecret calls currentSecret awsCredentials
    return (config, some secret)

/-- The secret is left as it is. -/
def updateOther (other : StoreOther) (config : GoMap) (currentSecret : Option Secret) :
    Except Abort (GoMap × Option Secret) := do
  let config ← config.set "region" other.region
  let config ← config.set "s3Url" other.endpoint
  return (config, currentSecret)

def updateGoogle (calls : Calls) (google : StoreGoogle) (config : GoMap)
    (currentSecret : Option Secret) : Except Abort (GoMap × Option Secret) :=
  if google.useInstanceRole then do
    deleteSecret calls currentSecret "failed to delete google secret"
    return (config, none)
  else do
    let secret ← createOrUpdateSecret calls currentSecret google.serviceAccount
    return (config, some secret)

/-- What the Azure branch renders. -/
def StoreAzure.config (azure : StoreAzure) : Azure where
  subscriptionID := azure.subscriptionID
  tenantID := azure.tenantID
  clientID := azure.clientID
  clientSecret := azure.clientSecret
  resourceGroup := azure.resourceGroup
  cloudName := azure.cloudName

def updateAzure (calls : Calls) (azure : StoreAzure) (config : GoMap)
    (currentSecret : Option Secret) : Except Abort (GoMap × Option Secret) := do
  let config ← config.set "resourceGroup" azure.resourceGroup
  let config ← config.set "storageAccount" azure.storageAccount
  let config ← config.set "subscriptionId" azure.subscriptionID
  let secret ← createOrUpdateSecret calls currentSecret (renderAzureConfig azure.config)
  return (config, some secret)

/-- The new `Spec.Config` and the new secret. -/
def updateConfig (calls : Calls) (ini : Ini) (store : Store) (config : GoMap)
    (currentSecret : Option Secret) : Except Abort (GoMap × Option Secret) :=
  match store.aws with
  | some aws => updateAWS calls ini aws config currentSecret
  | none =>
    match store.other with
    | some other => updateOther other config currentSecret
    | none =>
      match store.google with
      | some google => updateGoogle calls google config currentSecret
      | none =>
        match store.azure with
        | some azure => updateAzure calls azure config currentSecret
        | none => .ok (config, currentSecret)

def findBackupStoreLocation (calls : Calls) (c : Cluster) : Except Abort BackupStorageLocation := do
  calls.call .findGetConfig "failed to get cluster config"
  calls.call .findNewVeleroClient "failed to create velero clientset"
  calls.call .listBackupStorageLocations "failed to list backupstoragelocations"
  match c.defaultLocation with
  | some l => return l
  | none => throw (.error { cause := "global config not found" })

/-- Everything before the update of the location.  The secret is written last, so an error here has
changed nothing. -/
def prepareLocation (calls : Calls) (ini : Ini) (store : Store) (c : Cluster) :
    Except Abort (BackupStorageLocation × Option Secret) := do
  calls.call .getConfig "failed to get cluster config"
  calls.call .newClientset "failed to create clientset"
  calls.call .newVeleroClient "failed to create velero clientset"
  let location ← wrapAbort "failed to find backupstoragelocations" (findBackupStoreLocation calls c)
  calls.call .getSecret "failed to read aws secret"
  let (config, secret) ← updateConfig calls ini store location.config
    (c.cloudCredentials location.ns)
  let objectStorage := { bucket := store.bucket, objectPrefix := store.path }
  return ({ location with provider := store.provider, objectStorage := some objectStorage, config },
    secret)

def updateGlobalStore (calls : Calls) (ini : Ini) (store : Store) (c : Cluster) :
    Except Abort BackupStorageLocation × Cluster :=
  match prepareLocation calls ini store c with
  | .error e => (.error e, c)
  | .ok (location, secret) =>
    let c := c.setSecret location.ns secret
    match calls.call .updateBackupStorageLocation "failed to update backup storage location" with
    | .error e => (.error e, c)
    | .ok _ => (.ok location, c.setLocation location)

/-! ## GetGlobalStore -/

/-- The loop over the sections: the keys of the last one named `default`. -/
def accessKeys (sections : List IniSection) : GoString × GoString :=
  sections.foldl (fun keys s =>
    if s.name = ascii "default" then
      (s.value (ascii "aws_access_key_id"), s.value (ascii "aws_secret_access_key"))
    else keys) ([], [])

def getAWS (calls : Calls) (ini : Ini) (store : Store) (config : GoMap) (secret : Option Secret) :
    Except Abort Store := do
  let region := config.value "region"
  calls.call .getSecret "failed to read aws secret"
  match secret with
  | none =>
    match config.get "s3Url" with
    | some endpoint => return { store with other := some { region, endpoint } }
    | none => return { store with aws := some { region, useInstanceRole := true } }
  | some awsSecret =>
    match ini.load (awsSecret.data.value "cloud") with
    | .error e => throw (.error (e.wrap "failed to load aws credentials"))
    | .ok sections =>
      let (accessKeyID, secretAccessKey) := accessKeys sections
      match config.get "s3Url" with
      | some endpoint =>
        return { store with other := some { region, accessKeyID, secretAccessKey, endpoint } }
      | none => return { store with aws := some { region, accessKeyID, secretAccessKey } }

def getAzure (calls : Calls) (store : Store) (config : GoMap) (secret : Option Secret) :
    Except Abort Store := do
  calls.call .getSecret "failed to read azure secret"
  let azureConfig : Azure :=
    match secret with
    | none => {}
    | some azureSecret => parseAzureConfig (azureSecret.data.value "cloud")
  let cloudName :=
    if azureConfig.cloudName = [] then ascii "AzurePublicCloud" else azureConfig.cloudName
  return { store with azure := some {
    resourceGroup := config.value "resourceGroup"
    storageAccount := config.value "storageAccount"
    subscriptionID := config.value "subscriptionId"
    tenantID := azureConfig.tenantID
    clientID := azureConfig.clientID
    clientSecret := azureConfig.clientSecret
    cloudName } }

def getGoogle (calls : Calls) (store : Store) (secret : Option Secret) : Except Abort Store := do
  calls.call .getSecret "failed to read google secret"
  let serviceAccount : GoString :=
    match secret with
    | none => []
    | some currentSecret => currentSecret.data.value "cloud"
  return { store with google := some { serviceAccount, useInstanceRole := serviceAccount = [] } }

/-- `none` is the nil store, of a location without an object storage.  Without a default location
the nil pointer is dereferenced. -/
def getGlobalStore (calls : Calls) (ini : Ini) (location : Option BackupStorageLocation)
    (c : Cluster) : Except Abort (Option Store) := do
  calls.call .getConfig "failed to get cluster config"
  calls.call .newClientset "failed to create clientset"
  let location ←
    match location with
    | some l => pure l
    | none => do
      calls.call .newVeleroClient "failed to create velero clientset"
      calls.call .listBackupStorageLocations "failed to list backupstoragelocations"
      match c.defaultLocation with
      | some l => pure l
      | none => throw .panic
  match location.objectStorage with
  | none => return none
  | some objectStorage =>
    let store : Store := {
      provider := location.provider
      bucket := objectStorage.bucket
      path := objectStorage.objectPrefix }
    let secret := c.cloudCredentials location.ns
    if store.provider = ascii "aws" then some <$> getAWS calls ini store location.config secret
    else if store.provider = ascii "azure" then some <$> getAzure calls store location.config secret
    else if store.provider = ascii "gcp" then some <$> getGoogle calls store secret
    else return some store

end Kotsadm.Snapshots
