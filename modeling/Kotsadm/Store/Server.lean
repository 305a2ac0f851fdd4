import Kotsadm.Lib.Deferred
import Kotsadm.Store.KotsAppStore

/-!
# Server — the state of the Go server and the statements of its packages

The database and the object storage.  A call of a package function is a `Call`; what may go wrong
outside (a statement, a file, a download) is an argument of type `Except GoError`.
-/

namespace Kotsadm

structure Server where
  db : Database := {}
  -- the object `<app id>/<sequence>.tar.gz` of the bucket
  archives : AppId → Int → Option String := fun _ _ => none

abbrev Call (α : Type) := Server → Except GoError α × Server

/-! ## Package task -/

/-- The conflict clause leaves `updated_at` as it is. -/
def upsertTaskStatus (db : Database) (id message status : String) (now : Timestamp) : Database :=
  { db with
    apiTaskStatus := db.apiTaskStatus.upsert
      { id, updatedAt := now, currentMessage := message, status }
      (fun r => { r with currentMessage := message, status }) fun _ => rfl }

def deleteTaskStatus (db : Database) (id : String) : Database :=
  { db with apiTaskStatus := db.apiTaskStatus.deleteWhere fun r => r.id = id }

def setTaskStatus (outcome : Except GoError Unit) (id message status : String) (now : Timestamp) :
    Call Unit := fun s =>
  match outcome with
  | .ok _ => (.ok (), { s with db := upsertTaskStatus s.db id message status now })
  | .error e => (.error (e.wrap "failed to set task status"), s)

def clearTaskStatus (outcome : Except GoError Unit) (id : String) : Call Unit := fun s =>
  match outcome with
  | .ok _ => (.ok (), { s with db := deleteTaskStatus s.db id })
  | .error e => (.error (e.wrap "failed to clear task status"), s)

/-- A running task is touched every second. -/
def updateTaskStatusTimestamp (outcome : Except GoError Unit) (id : String) (now : Timestamp) :
    Call Unit := fun s =>
  match outcome with
  | .ok _ =>
    (.ok (), { s with db := { s.db with
      apiTaskStatus := s.db.apiTaskStatus.updateWhere (fun r => r.id = id)
        (fun r => { r with updatedAt := now }) fun _ => rfl } })
  | .error e => (.error (e.wrap "failed to update task status"), s)

/-- A status that was not refreshed for ten seconds is `""`. -/
def getTaskStatus (outcome : Except GoError Unit) (db : Database) (id : String) (now : Timestamp) :
    Except GoError String :=
  match outcome with
  | .error e => .error (e.wrap "failed to scan task status")
  | .ok _ =>
    .ok (((db.apiTaskStatus.find? id).filter fun r => now < r.updatedAt + 10000).elim "" (·.status))

/-- The status and the message that `api_task_status` shows for a task. -/
def taskStatus (db : Database) (id : String) : Option (String × String) :=
  (db.apiTaskStatus.find? id).map fun r => (r.status, r.currentMessage)

theorem taskStatus_upsertTaskStatus (db : Database) (id message status : String) (now : Timestamp) :
    taskStatus (upsertTaskStatus db id message status now) id = some (status, message) := by
  simp only [taskStatus, upsertTaskStatus]
  rw [Keyed.find?_upsert, if_pos rfl]
  cases db.apiTaskStatus.find? id <;> rfl

theorem taskStatus_deleteTaskStatus (db : Database) (id : String) :
    taskStatus (deleteTaskStatus db id) id = none := by
  have hnone : (deleteTaskStatus db id).apiTaskStatus.find? id = none := by
    rw [Keyed.find?_eq_none]
    intro r hr hid
    have hfalse := (Keyed.mem_deleteWhere.mp hr).2
    simp only [decide_eq_false_iff_not] at hfalse
    exact hfalse hid
  simp only [taskStatus, hnone, Option.map_none]

/-- A line of a report, and whether the write that shows it succeeds. -/
structure ReportLine where
  text : String
  written : Bool := true
  deriving DecidableEq, Repr

/-- The scanner goroutine shows each line that it reads; a failed write is logged. -/
def reportLines (id : String) (now : Timestamp) : List ReportLine → Server → Server
  | [], s => s
  | line :: lines, s =>
    reportLines id now lines
      (if line.written then { s with db := upsertTaskStatus s.db id line.text "running" now } else s)

/-- A report changes nothing but the status of its task. -/
theorem reportLines_frame (id : String) (now : Timestamp) (lines : List ReportLine) (s : Server) :
    reportLines id now lines s =
      { s with db := { s.db with apiTaskStatus := (reportLines id now lines s).db.apiTaskStatus } } := by
  induction lines generalizing s with
  | nil => rfl
  | cons line lines ih =>
    unfold reportLines
    rw [ih]
    split <;> rfl

/-- The last line that was written is what the task shows. -/
theorem taskStatus_reportLines (id : String) (now : Timestamp) (lines : List ReportLine)
    (s : Server) :
    taskStatus (reportLines id now lines s).db id =
      match (lines.filter (·.written)).getLast? with
      | some line => some ("running", line.text)
      | none => taskStatus s.db id := by
  induction lines generalizing s with
  | nil => rfl
  | cons line lines ih =>
    unfold reportLines
    rw [ih, List.filter_cons]
    by_cases hwritten : line.written = true
    · rw [if_pos hwritten, if_pos hwritten, List.getLast?_cons]
      cases (lines.filter (·.written)).getLast? with
      | some last => rfl
      | none => exact taskStatus_upsertTaskStatus s.db id line.text "running" now
    · rw [if_neg hwritten, if_neg hwritten]

/-! ## Package app -/

/-- `app.App` -/
structure App where
  id : AppId
  slug : String
  name : String
  isAirgap : Bool
  -- -1 for `NULL`
  currentSequence : Int
  restoreInProgressName : String
  deriving DecidableEq, Repr

def mapApp (row : AppRow) : App where
  id := row.id
  slug := row.slug
  name := row.name
  isAirgap := row.isAirgap
  currentSequence := row.currentSequence.getD (-1)
  restoreInProgressName := row.restoreInProgressName.getD ""

def noRows : GoError := { cause := "sql: no rows in result set" }

/-- `app.Get` -/
def App.get (outcome : Except GoError Unit) (db : Database) (id : AppId) : Except GoError App :=
  Except.wrapError "failed to scan app" <|
    match outcome, db.app.find? id with
    | .error e, _ => .error e
    | .ok _, none => .error noRows
    | .ok _, some row => .ok (mapApp row)

/-- An update of the row of one app. -/
def updateApp (outcome : Except GoError Unit) (appId : AppId) (set : AppRow → AppRow)
    (hset : ∀ r, (set r).id = r.id) : Call Unit := fun s =>
  match outcome with
  | .error e => (.error e, s)
  | .ok _ =>
    (.ok (), { s with
      db := { s.db with app := s.db.app.updateWhere (fun r => r.id = appId) set hset } })

/-- `app.GetFromSlug` -/
def App.getFromSlug (scan outcome : Except GoError Unit) (db : Database) (slug : String) :
    Except GoError App :=
  match scan, db.app.rows.find? fun r => r.slug = slug with
  | .error e, _ => .error (e.wrap "failed to scan id")
  | .ok _, none => .error (noRows.wrap "failed to scan id")
  | .ok _, some row => App.get outcome db row.id

def setAppInstallState (outcome : Except GoError Unit) (appId : AppId) (status : InstallState) :
    Call Unit :=
  updateApp outcome appId (fun r => { r with installState := status }) fun _ => rfl

def installState (db : Database) (appId : AppId) : Option InstallState :=
  (db.app.find? appId).map (·.installState)

theorem installState_setAppInstallState (appId : AppId) (status : InstallState) (s : Server) :
    installState (setAppInstallState (.ok ()) appId status s).2.db appId =
      (installState s.db appId).map fun _ => status := by
  simp only [installState, setAppInstallState, updateApp, Keyed.find?_updateWhere, Option.map_map]
  cases hrow : s.db.app.find? appId with
  | none => rfl
  | some row =>
    have hid : row.id = appId := (Keyed.find?_eq_some.mp hrow).2
    simp [hid]

/-! ## Package registry -/

structure RegistrySettings where
  hostname : String
  username : String
  passwordEnc : String
  registryNamespace : String
  deriving DecidableEq, Repr

/-- Without a hostname there are no settings. -/
def mapRegistrySettings (row : AppRow) : Option RegistrySettings :=
  row.registryHostname.map fun hostname =>
    { hostname
      username := row.registryUsername.getD ""
      passwordEnc := row.registryPasswordEnc.getD ""
      registryNamespace := row.registryNamespace.getD "" }

def getRegistrySettingsForApp (outcome : Except GoError Unit) (db : Database) (appId : AppId) :
    Except GoError (Option RegistrySettings) :=
  Except.wrapError "failed to scan registry" <|
    match outcome, db.app.find? appId with
    | .error e, _ => .error e
    | .ok _, none => .error noRows
    | .ok _, some row => .ok (mapRegistrySettings row)

/-- `UpdateRegistry`; the arguments `cipher` and `outcome` are what the cipher and the statement
return, `passwordEnc` is the encrypted password. -/
def updateRegistry (cipher outcome : Except GoError Unit) (appId : AppId)
    (settings : RegistrySettings) : Call Unit := fun s =>
  match cipher with
  | .error e => (.error (e.wrap "failed to create aes cipher"), s)
  | .ok _ =>
    let (result, s) := updateApp outcome appId (fun r => { r with
      registryHostname := some settings.hostname
      registryUsername := some settings.username
      registryPasswordEnc := some settings.passwordEnc
      registryNamespace := some settings.registryNamespace }) (fun _ => rfl) s
    (result.wrapError "failed to update registry settings", s)

/-! ## Package downstream -/

/-- `ListDownstreamsForApp` -/
def listDownstreamsForApp (outcome : Except GoError Unit) (db : Database) (appId : AppId) :
    Except GoError (List AppDownstreamRow) :=
  match outcome with
  | .error e => .error (e.wrap "failed to get downstreams")
  | .ok _ => .ok (db.appDownstream.rows.filter fun r => r.appId = appId)

/-- `SetDownstreamVersionReady` and `SetDownstreamVersionPendingPreflight` write a status. -/
def setDownstreamVersionStatus (db : Database) (appId : AppId) (sequence : Int) (status : String) :
    Database :=
  { db with
    appDownstreamVersion := db.appDownstreamVersion.updateWhere
      (fun r => r.appId = appId && r.sequence = sequence) (fun r => { r with status }) fun _ => rfl }

/-- `GetDownstreamVersionStatus`: of any cluster. -/
def getDownstreamVersionStatus (outcome : Except GoError Unit) (db : Database) (appId : AppId)
    (sequence : Int) : Except GoError String :=
  Except.wrapError "failed to get downstream version" <|
    match outcome, db.appDownstreamVersion.rows.find? fun r =>
        r.appId = appId && r.sequence = sequence with
    | .error e, _ => .error e
    | .ok _, none => .error noRows
    | .ok _, some row => .ok row.status

end Kotsadm
