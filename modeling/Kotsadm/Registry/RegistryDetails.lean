import Kotsadm.Flows.Request
import Kotsadm.Flows.Update

/-!
# RegistryDetails — the registry settings of an app in the two services

The TypeScript store keeps the password in `registry_password` or, once it has an encryption key,
in `registry_password_enc`; the Go code reads and writes `registry_password_enc` only.  The API
shows a mask in place of the password.
-/

namespace Kotsadm.Registry

open Flows Body

/-- The cipher of `kots/pkg/crypto` with the base64 encoding of its texts, as the Go code calls it
and as the TypeScript code calls it through the FFI. -/
structure Cipher where
  fromString : String → Except GoError Unit
  encrypt : String → String → String
  decrypt : String → String → Except GoError String
  decrypt_encrypt : ∀ key text, fromString key = .ok () →
    decrypt key (encrypt key text) = .ok text
  -- a sealed text ends with a tag
  decrypt_empty : ∀ key text, decrypt key "" ≠ .ok text

/-! ## The TypeScript store -/

def kotsEncryptString (cipher : Cipher) (cipherString message : String) : Except String String :=
  match cipher.fromString cipherString with
  | .ok _ => .ok (cipher.encrypt cipherString message)
  | .error _ => .error "Failed to encrypt string via FFI call"

def kotsDecryptString (cipher : Cipher) (cipherString message : String) : Except String String :=
  match cipher.decrypt cipherString message with
  | .ok text => .ok text
  | .error _ => .error "Failed to encrypt string via FFI call"

structure KotsAppRegistryDetails where
  registryHostname : Option String
  registryUsername : Option String
  registryPassword : Option String
  registryPasswordEnc : Option String
  registryNamespace : Option String
  lastSyncedAt : Option Timestamp
  deriving DecidableEq, Repr

def mapAppRegistryDetails (row : AppRow) : KotsAppRegistryDetails where
  registryHostname := row.registryHostname
  registryUsername := row.registryUsername
  registryPassword := row.registryPassword
  registryPasswordEnc := row.registryPasswordEnc
  registryNamespace := row.registryNamespace
  lastSyncedAt := row.lastRegistrySync

/-- `x && x.length > 0` of a column that may be `NULL`. -/
def hasText (column : Option String) : Bool := column.getD "" ≠ ""

def getPasswordMask : String := "***HIDDEN***"

/-- An update of the row of an app. -/
def setApp (db : Database) (appId : AppId) (set : AppRow → AppRow) (hset : ∀ r, (set r).id = r.id) :
    Database :=
  { db with app := db.app.updateWhere (fun r => r.id = appId) set hset }

def migrationEncryptRegistryCredentials (cipher : Cipher) (apiEncryptionKey : String)
    (db : Database) (appId : AppId) (regInfo : KotsAppRegistryDetails) :
    Except String (KotsAppRegistryDetails × Database) :=
  if apiEncryptionKey = "" then .ok (regInfo, db)
  else if !hasText regInfo.registryPassword then .ok (regInfo, db)
  -- both columns are set: nothing is migrated
  else if hasText regInfo.registryPasswordEnc then .ok (regInfo, db)
  else
    match kotsEncryptString cipher apiEncryptionKey (regInfo.registryPassword.getD "") with
    | .error e => .error e
    | .ok enc =>
      .ok ({ regInfo with registryPasswordEnc := some enc }, setApp db appId
        (fun r => { r with registryPassword := none, registryPasswordEnc := some enc })
        fun _ => rfl)

def decryptRegistryCredentials (cipher : Cipher) (apiEncryptionKey : String)
    (regInfo : KotsAppRegistryDetails) : Except String KotsAppRegistryDetails :=
  if apiEncryptionKey = "" then .ok regInfo
  else if hasText regInfo.registryPassword then .ok regInfo
  else if !hasText regInfo.registryPasswordEnc then .ok regInfo
  else
    match kotsDecryptString cipher apiEncryptionKey (regInfo.registryPasswordEnc.getD "") with
    | .error e => .error e
    | .ok text => .ok { regInfo with registryPassword := some text }

/-- The migration stays when the decryption throws. -/
def getAppRegistryDetails (cipher : Cipher) (apiEncryptionKey : String) (db : Database)
    (appId : AppId) (maskPassword : Bool) : Except String KotsAppRegistryDetails × Database :=
  match db.app.find? appId with
  | none => (.error s!"Unable to get registry details for app with the ID of {appId}", db)
  | some row =>
    match migrationEncryptRegistryCredentials cipher apiEncryptionKey db appId
        (mapAppRegistryDetails row) with
    | .error e => (.error e, db)
    | .ok (regInfo, db) =>
      ((decryptRegistryCredentials cipher apiEncryptionKey regInfo).map fun regInfo =>
        if maskPassword then { regInfo with registryPassword := some getPasswordMask }
        else regInfo, db)

/-- What a client submits; the GraphQL mutation and the Go handler take the same four texts. -/
structure UpdateAppRegistryRequest where
  hostname : String
  username : String
  password : String
  registryNamespace : String
  deriving DecidableEq, Repr

def updateRegistryDetails (cipher : Cipher) (apiEncryptionKey : String) (db : Database)
    (appId : AppId) (details : UpdateAppRegistryRequest) (now : Timestamp) :
    Except String Database :=
  -- the client shows the mask, so the password has not changed
  if details.password = getPasswordMask then
    .ok (setApp db appId (fun r => { r with
      registryHostname := some details.hostname
      registryUsername := some details.username
      registryPassword := none
      registryNamespace := some details.registryNamespace
      lastRegistrySync := some now }) fun _ => rfl)
  -- the plain text column is only written without a key
  else if apiEncryptionKey ≠ "" then
    match kotsEncryptString cipher apiEncryptionKey details.password with
    | .error e => .error e
    | .ok passwordEnc =>
      .ok (setApp db appId (fun r => { r with
        registryHostname := some details.hostname
        registryUsername := some details.username
        registryPassword := none
        registryPasswordEnc := some passwordEnc
        registryNamespace := some details.registryNamespace
        lastRegistrySync := some now }) fun _ => rfl)
  else
    .ok (setApp db appId (fun r => { r with
      registryHostname := some details.hostname
      registryUsername := some details.username
      registryPassword := some details.password
      registryNamespace := some details.registryNamespace
      lastRegistrySync := some now }) fun _ => rfl)

/-! ## The Go package and its handler -/

/-- `registry.UpdateRegistry`, with the cipher of `API_ENCRYPTION_KEY`. -/
def updateRegistrySettings (cipher : Cipher) (apiEncryptionKey : String)
    (outcome : Except GoError Unit) (appId : AppId) (request : UpdateAppRegistryRequest) :
    Call Unit :=
  updateRegistry (cipher.fromString apiEncryptionKey) outcome appId
    { hostname := request.hostname
      username := request.username
      passwordEnc := cipher.encrypt apiEncryptionKey request.password
      registryNamespace := request.registryNamespace }

structure UpdateAppRegistryResponse where
  success : Bool := false
  error : String := ""
  hostname : String := ""
  username : String := ""
  registryNamespace : String := ""
  deriving DecidableEq, Repr

structure UpdateRegistryEnv where
  method : String := "PUT"
  decode : Except GoError Unit := .ok ()
  requireValidSession : Except GoError Unit := .ok ()
  getTaskStatus : Except GoError Unit := .ok ()
  clearTaskStatus : Except GoError Unit := .ok ()
  scanId : Except GoError Unit := .ok ()
  getApp : Except GoError Unit := .ok ()
  getRegistrySettings : Except GoError Unit := .ok ()
  updateRegistry : Except GoError Unit := .ok ()
  rewrite : RewriteEnv
  now : Timestamp := 0

/-- A handler at work on its response; `code` is the status that it answers with. -/
structure RegistryRun where
  server : Server
  response : UpdateAppRegistryResponse := {}
  code : Nat := 200

/-- An error is logged and answered. -/
def orAnswer {α : Type} (code : Nat) (call : Call α) : Body RegistryRun α :=
  orReturnErr fun r =>
    match call r.server with
    | (.ok a, s) => (.ok a, { r with server := s })
    | (.error e, s) =>
      (.error e, { server := s, response := { r.response with error := e.text }, code })

def orAnswerQuery {α : Type} (code : Nat) (query : Server → Except GoError α) :
    Body RegistryRun α :=
  orAnswer code fun s => (query s, s)

def answer (set : UpdateAppRegistryResponse → UpdateAppRegistryResponse) : Body RegistryRun Unit :=
  orReturnErr fun r => (.ok (), { r with response := set r.response })

def requireIdle (status : String) : Except GoError Unit :=
  if status = "running" then
    .error { cause := "image-rewrite is already running, not starting a new one" }
  else .ok ()

/-- The images are in place when the hostname and the namespace have not changed. -/
def samePlace (settings : Option RegistrySettings) (request : UpdateAppRegistryRequest) : Bool :=
  settings.any fun settings =>
    settings.hostname = request.hostname && settings.registryNamespace = request.registryNamespace

/-- The handler; it returns the app whose images its goroutine is to push. -/
def updateAppRegistryBody (cipher : Cipher) (apiEncryptionKey : String) (env : UpdateRegistryEnv)
    (appSlug : String) (request : UpdateAppRegistryRequest) : Body RegistryRun (Option App) := do
  orAnswerQuery 500 fun _ => env.decode
  orAnswerQuery 401 fun _ => env.requireValidSession
  let currentStatus ← orAnswerQuery 500 fun s =>
    getTaskStatus env.getTaskStatus s.db "image-rewrite" env.now
  orAnswerQuery 500 fun _ => requireIdle currentStatus
  orAnswer 500 (clearTaskStatus env.clearTaskStatus "image-rewrite")
  let foundApp ← orAnswerQuery 500 fun s => App.getFromSlug env.scanId env.getApp s.db appSlug
  answer fun response => { response with
    hostname := request.hostname
    username := request.username
    registryNamespace := request.registryNamespace }
  let settings ← orAnswerQuery 500 fun s =>
    getRegistrySettingsForApp env.getRegistrySettings s.db foundApp.id
  if samePlace settings request then
    orAnswer 500
      (updateRegistrySettings cipher apiEncryptionKey env.updateRegistry foundApp.id request)
    answer fun response => { response with success := true }
    return none
  else
    -- the client is answered before the images are pushed
    answer fun response => { response with success := true }
    return some foundApp

/-- The goroutine: the settings are saved after the images were pushed. -/
def pushImages (cipher : Cipher) (apiEncryptionKey : String) (env : UpdateRegistryEnv)
    (request : UpdateAppRegistryRequest) (foundApp : App) (s : Server) : Server :=
  match rewriteImages env.rewrite foundApp.id foundApp.currentSequence
      { host := request.hostname, registryNamespace := request.registryNamespace,
        username := request.username, password := request.password } none s with
  | (.error _, s) => s
  | (.ok _, s) =>
    (updateRegistrySettings cipher apiEncryptionKey env.updateRegistry foundApp.id request s).2

/-- `UpdateAppRegistry`: the answer, and the server once the goroutine has ended. -/
def updateAppRegistry (cipher : Cipher) (apiEncryptionKey : String) (env : UpdateRegistryEnv)
    (appSlug : String) (request : UpdateAppRegistryRequest) (s : Server) : RegistryRun × Server :=
  if env.method = "OPTIONS" then ({ server := s }, s)
  else
    match runRequest (updateAppRegistryBody cipher apiEncryptionKey env appSlug request)
        { server := s } with
    | (.ok (some foundApp), r) =>
      (r, pushImages cipher apiEncryptionKey env request foundApp r.server)
    | (_, r) => (r, r.server)

end Kotsadm.Registry
