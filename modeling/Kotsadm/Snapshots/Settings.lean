import Mathlib.Data.List.Infix
import Kotsadm.Snapshots.GlobalStore

/-!
# Settings — the two handlers for the global snapshot settings

`GetGlobalSnapshotSettings` shows the stored settings, and `UpdateGlobalSnapshotSettings` those that
it has stored.  The secrets in them are first replaced by `Redact`.
-/

namespace Kotsadm.Snapshots

open GoString

/-! ## Redact -/

def redacted : GoString := ascii "--- REDACTED ---"

def redactSecret (secret : GoString) : GoString := if secret ≠ [] then redacted else secret

/-- The settings after `Redact`, which never returns an error. -/
def redact (store : Store) : Store :=
  { store with
    aws := store.aws.map fun aws =>
      { aws with secretAccessKey := redactSecret aws.secretAccessKey }
    google := store.google.map fun google =>
      { google with serviceAccount := redactSecret google.serviceAccount }
    azure := store.azure.map fun azure =>
      { azure with clientSecret := redactSecret azure.clientSecret } }

/-! ## ValidateStore -/

/-- `answer` is what the provider says of the configuration. -/
def validateStore (answer : Except GoError Unit) (store : Store) : Except GoError Unit :=
  if store.aws.isSome then answer.wrapError "failed to validate AWS configuration"
  else if store.azure.isSome then answer.wrapError "failed to validate Azure configuration"
  else if store.google.isSome then .ok ()
  else if store.other.isSome then answer.wrapError "failed to validate S3-compatible configuration"
  else .error { cause := "no valid configuration found" }

/-! ## Requests and responses -/

structure UpdateGlobalSnapshotSettingsRequest where
  provider : GoString := []
  bucket : GoString := []
  path : GoString := []
  aws : Option StoreAWS := none
  google : Option StoreGoogle := none
  azure : Option StoreAzure := none
  other : Option StoreOther := none

structure GlobalSnapshotSettingsResponse where
  veleroVersion : String := ""
  veleroPlugins : List String := []
  isVeleroRunning : Bool := false
  resticVersion : String := ""
  isResticRunning : Bool := false
  store : Option Store := none
  success : Bool := false
  error : String := ""
  deriving DecidableEq, Repr

/-- How a handler ends. -/
inductive Exit where
  -- only a status code
  | header (code : Nat)
  | json (code : Nat) (response : GlobalSnapshotSettingsResponse)
  | panic
  deriving DecidableEq, Repr

structure VeleroStatus where
  version : String
  plugins : List String
  status : String
  resticVersion : String
  resticStatus : String

/-- What a request and its handler get from outside. -/
structure SettingsEnv where
  method : String
  -- the ID of the session; `none` is the nil session
  session : Except GoError (Option String)
  detectVelero : Except GoError (Option VeleroStatus)
  ini : Ini
  -- what the provider says in `ValidateStore`
  provider : Except GoError Unit
  -- the calls of `GetGlobalStore(nil)`, of `UpdateGlobalStore`, and of `GetGlobalStore` after it
  getCalls : Calls
  updateCalls : Calls
  rereadCalls : Calls

abbrev Response := GlobalSnapshotSettingsResponse

def Response.fail (response : Response) (code : Nat) (error : String) : Exit :=
  .json code { response with error }

/-- A handler that has not ended before its last statement ends there. -/
def Exit.of : Except Exit Exit → Exit
  | .ok exit => exit
  | .error exit => exit

/-- The exit for an error, or for a panic. -/
def exitOn {α : Type} (exit : GoError → Exit) : Except Abort α → Except Exit α
  | .ok a => .ok a
  | .error (.error e) => .error (exit e)
  | .error .panic => .error .panic

/-! ## The handlers -/

/-- The start of both handlers; there are no roles, every valid token is a valid session. -/
def authorize (env : SettingsEnv) : Except Exit Unit :=
  if env.method = "OPTIONS" then .error (.header 200)
  else
    match env.session with
    | .error _ => .error (Response.fail {} 401 "failed to parse authorization header")
    | .ok id =>
      if id = none ∨ id = some "" then
        .error (Response.fail {} 401 "failed to parse authorization header")
      else .ok ()

/-- The part of the response on velero and restic. -/
def detected (env : SettingsEnv) : Except Exit Response :=
  match env.detectVelero with
  | .error _ => .error (Response.fail {} 500 "failed to detect velero")
  | .ok none => .error (.json 200 {})
  | .ok (some velero) => .ok {
      veleroVersion := velero.version
      veleroPlugins := velero.plugins
      isVeleroRunning := velero.status = "Ready"
      resticVersion := velero.resticVersion
      isResticRunning := velero.resticStatus = "Ready" }

/-- `GetGlobalStore(nil)` -/
def SettingsEnv.read (env : SettingsEnv) (c : Cluster) : Except Abort (Option Store) :=
  getGlobalStore env.getCalls env.ini none c

/-- `GetGlobalStore` of the location that was updated. -/
def SettingsEnv.reread (env : SettingsEnv) (location : BackupStorageLocation) (c : Cluster) :
    Except Abort (Option Store) :=
  getGlobalStore env.rereadCalls env.ini (some location) c

/-- The end of both handlers. -/
def respondStore (response : Response) (store : Option Store) : Exit :=
  .json 200 { response with store := store.map redact, success := true }

def getGlobalSnapshotSettings (env : SettingsEnv) (c : Cluster) : Exit := Exit.of do
  authorize env
  let response ← detected env
  let store ← exitOn (fun _ => response.fail 500 "failed to get store") (env.read c)
  return respondStore response store

/-! ### The settings of a request -/

/-- `if value != "" { old = value }` -/
def given (value old : GoString) : GoString := if value ≠ [] then value else old

/-- A secret that was redacted is not taken for a new one. -/
def givenSecret (error : String) (value old : GoString) : Except String GoString :=
  if value = [] then .ok old
  else if ascii "REDACTED" <:+: value then .error error
  else .ok value

def mergeAWS (request aws : StoreAWS) : Except String StoreAWS :=
  if request.useInstanceRole then
    .ok { aws with useInstanceRole := true, accessKeyID := [], secretAccessKey := [] }
  else do
    let secretAccessKey ←
      givenSecret "invalid aws secret access key" request.secretAccessKey aws.secretAccessKey
    let accessKeyID := given request.accessKeyID aws.accessKeyID
    let region := given request.region aws.region
    if accessKeyID = [] ∨ secretAccessKey = [] ∨ region = [] then
      throw "missing access key id and/or secret access key and/or region"
    else return { region, accessKeyID, secretAccessKey, useInstanceRole := false }

def mergeGoogle (request google : StoreGoogle) : Except String StoreGoogle :=
  if request.useInstanceRole then .ok { useInstanceRole := true, serviceAccount := [] }
  else do
    let serviceAccount ←
      givenSecret "invalid gcp service account" request.serviceAccount google.serviceAccount
    if serviceAccount = [] then throw "missing service account"
    else return { serviceAccount, useInstanceRole := false }

/-- The only one without a check of the result. -/
def mergeAzure (request azure : StoreAzure) : Except String StoreAzure := do
  let clientSecret ←
    givenSecret "invalid client secret" request.clientSecret azure.clientSecret
  return {
    resourceGroup := given request.resourceGroup azure.resourceGroup
    storageAccount := given request.storageAccount azure.storageAccount
    subscriptionID := given request.subscriptionID azure.subscriptionID
    tenantID := given request.tenantID azure.tenantID
    clientID := given request.clientID azure.clientID
    clientSecret
    cloudName := given request.cloudName azure.cloudName }

def mergeOther (request other : StoreOther) : Except String StoreOther := do
  let secretAccessKey ←
    givenSecret "invalid secret access key" request.secretAccessKey other.secretAccessKey
  let accessKeyID := given request.accessKeyID other.accessKeyID
  let region := given request.region other.region
  let endpoint := given request.endpoint other.endpoint
  if accessKeyID = [] ∨ secretAccessKey = [] ∨ endpoint = [] ∨ region = [] then
    throw "access key, secret key, endpoint and region are required"
  else return { region, accessKeyID, secretAccessKey, endpoint }

/-- The error is the text of the response. -/
def mergeStore (request : UpdateGlobalSnapshotSettingsRequest) (store : Store) :
    Except String Store :=
  let plain : Store :=
    { provider := request.provider, bucket := request.bucket, path := request.path }
  match request.aws with
  | some aws => do
    let aws ← mergeAWS aws (store.aws.getD {})
    return { plain with aws := some aws }
  | none =>
    match request.google with
    | some google => do
      let google ← mergeGoogle google (store.google.getD {})
      return { plain with google := some google }
    | none =>
      match request.azure with
      | some azure => do
        let azure ← mergeAzure azure (store.azure.getD {})
        return { plain with azure := some azure }
      | none =>
        match request.other with
        | some other => do
          let other ← mergeOther other (store.other.getD {})
          return { plain with other := some other }
        | none => .ok { store with
            provider := request.provider, bucket := request.bucket, path := request.path }

/-! ### UpdateGlobalSnapshotSettings -/

/-- The handler up to `ValidateStore`: the response so far, and the settings to store.  Without an
object storage the nil store is written to. -/
def prepareUpdate (env : SettingsEnv) (body : Except GoError UpdateGlobalSnapshotSettingsRequest)
    (c : Cluster) : Except Exit (Response × Store) := do
  authorize env
  let request ← body.mapError fun _ => Response.fail {} 400 "failed to decode request body"
  let response ← detected env
  match ← exitOn (fun _ => response.fail 500 "failed to get store") (env.read c) with
  | none => throw .panic
  | some store =>
    let store ← (mergeStore request store).mapError fun error => response.fail 400 error
    (validateStore env.provider store).mapError fun e => response.fail 400 e.cause
    return (response, store)

/-- The rest of the handler. -/
def storeSettings (env : SettingsEnv) (response : Response) (store : Store) (c : Cluster) :
    Exit × Cluster :=
  let (written, c) := updateGlobalStore env.updateCalls env.ini store c
  let exit := Exit.of do
    -- the text is the one of another error
    let location ← exitOn (fun _ => response.fail 400 "failed to decode request body") written
    let store ← exitOn (fun _ => response.fail 500 "failed to update store")
      (env.reread location c)
    return respondStore response store
  (exit, c)

def updateGlobalSnapshotSettings (env : SettingsEnv)
    (body : Except GoError UpdateGlobalSnapshotSettingsRequest) (c : Cluster) : Exit × Cluster :=
  match prepareUpdate env body c with
  | .error exit => (exit, c)
  | .ok (response, store) => storeSettings env response store c

end Kotsadm.Snapshots
