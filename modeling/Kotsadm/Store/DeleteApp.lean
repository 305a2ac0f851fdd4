import Kotsadm.Snapshots.Schedule
import Kotsadm.Store.KotsAppStore

/-!
# DeleteApp — what `deleteApp` leaves behind

`deleteApp` deletes the rows of five tables in one transaction.  The other tables with an app id
came later: the outputs of a downstream, the scheduled snapshots, the app status and the support
bundles stay.
-/

namespace Kotsadm.DeleteApp

open KotsAppStore Snapshots

/-! ## The tables with an app id -/

structure UserAppRow where
  userId : String
  appId : AppId
  deriving DecidableEq, Repr

structure AppStatusRow where
  appId : AppId
  resourceStates : String
  updatedAt : Timestamp
  deriving DecidableEq, Repr

structure PendingSupportbundleRow where
  id : String
  appId : AppId
  clusterId : ClusterId
  deriving DecidableEq, Repr

structure SupportbundleRow where
  id : String
  -- the app
  watchId : String
  size : Nat
  status : String
  deriving DecidableEq, Repr

namespace UserAppRow

@[reducible] def key (r : UserAppRow) : String × AppId := (r.userId, r.appId)

end UserAppRow

namespace AppStatusRow

@[reducible] def key (r : AppStatusRow) : AppId := r.appId

end AppStatusRow

/-- The database, with the other tables that have an app id. -/
structure Tables extends Database where
  userApp : Keyed UserAppRow.key := .empty
  appStatus : Keyed AppStatusRow.key := .empty
  scheduledSnapshots : ScheduledSnapshots := .empty
  pendingSupportbundle : Keyed PendingSupportbundleRow.id := .empty
  supportbundle : Keyed SupportbundleRow.id := .empty

/-- Every table that is written with an app id -/
inductive Table
  | userApp
  | appVersion
  | appDownstream
  | appDownstreamVersion
  | app
  | appDownstreamOutput
  | scheduledSnapshots
  | appStatus
  | pendingSupportbundle
  | supportbundle
  deriving DecidableEq, Repr

@[reducible] def Table.Row : Table → Type
  | .userApp => UserAppRow
  | .appVersion => AppVersionRow
  | .appDownstream => AppDownstreamRow
  | .appDownstreamVersion => AppDownstreamVersionRow
  | .app => AppRow
  | .appDownstreamOutput => AppDownstreamOutputRow
  | .scheduledSnapshots => ScheduledSnapshot
  | .appStatus => AppStatusRow
  | .pendingSupportbundle => PendingSupportbundleRow
  | .supportbundle => SupportbundleRow

/-- The app a row refers to -/
def Table.appId : (t : Table) → t.Row → AppId
  | .userApp => UserAppRow.appId
  | .appVersion => AppVersionRow.appId
  | .appDownstream => AppDownstreamRow.appId
  | .appDownstreamVersion => AppDownstreamVersionRow.appId
  | .app => AppRow.id
  | .appDownstreamOutput => AppDownstreamOutputRow.appId
  | .scheduledSnapshots => ScheduledSnapshot.appId
  | .appStatus => AppStatusRow.appId
  | .pendingSupportbundle => PendingSupportbundleRow.appId
  | .supportbundle => SupportbundleRow.watchId

def Tables.rows (db : Tables) : (t : Table) → List t.Row
  | .userApp => db.userApp.rows
  | .appVersion => db.appVersion.rows
  | .appDownstream => db.appDownstream.rows
  | .appDownstreamVersion => db.appDownstreamVersion.rows
  | .app => db.app.rows
  | .appDownstreamOutput => db.appDownstreamOutput.rows
  | .scheduledSnapshots => db.scheduledSnapshots.rows
  | .appStatus => db.appStatus.rows
  | .pendingSupportbundle => db.pendingSupportbundle.rows
  | .supportbundle => db.supportbundle.rows

/-- The tables in which `deleteApp` deletes -/
def Table.deleted : Table → Bool
  | .userApp | .appVersion | .appDownstream | .appDownstreamVersion | .app => true
  | _ => false

/-! ## deleteApp -/

inductive Statement
  | begin
  | deleteFrom (t : Table)
  | commit
  | rollback
  deriving DecidableEq, Repr

/-- How the database answers. -/
structure Answers where
  error : Statement → Option String
  -- the commit takes effect although its answer is an error
  commitsAnyway : Bool := false

def Answers.query (answers : Answers) (statement : Statement) : Except String Unit :=
  match answers.error statement with
  | some e => .error e
  | none => .ok ()

/-- The statements up to the `commit`, and what they make of the database in the transaction. -/
def deleteRows (answers : Answers) (db : Tables) (appId : AppId) : Except String Tables := do
  answers.query .begin
  answers.query (.deleteFrom .userApp)
  let db := { db with userApp := db.userApp.deleteWhere fun r => r.appId = appId }
  answers.query (.deleteFrom .appVersion)
  let db := { db with appVersion := db.appVersion.deleteWhere fun r => r.appId = appId }
  answers.query (.deleteFrom .appDownstream)
  let db := { db with appDownstream := db.appDownstream.deleteWhere fun r => r.appId = appId }
  answers.query (.deleteFrom .appDownstreamVersion)
  let db := { db with
    appDownstreamVersion := db.appDownstreamVersion.deleteWhere fun r => r.appId = appId }
  answers.query (.deleteFrom .app)
  return { db with app := db.app.deleteWhere fun r => r.id = appId }

/-- `deleteApp`: the database that others see afterwards, and the result.  The `rollback` of the
`finally` finds no transaction after the `commit`; its error replaces the result. -/
def deleteApp (answers : Answers) (db : Tables) (appId : AppId) : Tables × Except String Bool :=
  let (db', result) : Tables × Except String Bool :=
    match deleteRows answers db appId with
    | .error e => (db, .error e)
    | .ok tx =>
      match answers.query .commit with
      | .error e => (if answers.commitsAnyway then tx else db, .error e)
      | .ok () => (tx, .ok true)
  match answers.query .rollback with
  | .error e => (db', .error e)
  | .ok () => (db', result)

/-! ## Nothing is left -/

/-- No row refers to the app. -/
def NoRows (db : Tables) (appId : AppId) (t : Table) : Prop := ∀ r ∈ db.rows t, t.appId r ≠ appId

instance (db : Tables) (appId : AppId) (t : Table) : Decidable (NoRows db appId t) :=
  inferInstanceAs (Decidable (∀ r ∈ db.rows t, t.appId r ≠ appId))

/-- The rows of the other apps are the same. -/
def SameOthers (db db' : Tables) (appId : AppId) : Prop :=
  ∀ t, ((db'.rows t).filter fun r => t.appId r ≠ appId) =
    (db.rows t).filter fun r => t.appId r ≠ appId

/-- A successful deletion leaves nothing of the app behind and the others alone, a failed one
deletes nothing. -/
def LeavesNothing (answers : Answers) (db : Tables) (appId : AppId) : Prop :=
  match deleteApp answers db appId with
  | (db', .ok _) => (∀ t, NoRows db' appId t) ∧ SameOthers db db' appId
  | (db', .error _) => db' = db

/-- The statements up to the `commit` are answered. -/
def Answers.Runs (answers : Answers) : Prop :=
  answers.query .begin = .ok () ∧ ∀ t : Table, t.deleted → answers.query (.deleteFrom t) = .ok ()

def Answers.Succeeds (answers : Answers) : Prop :=
  answers.Runs ∧ answers.query .commit = .ok () ∧ answers.query .rollback = .ok ()

/-- The commit takes effect, and an error is thrown. -/
def Answers.FailsLate (answers : Answers) : Prop :=
  answers.Runs ∧ (answers.query .commit = .ok () ∨ answers.commitsAnyway) ∧ ¬ answers.Succeeds

/-- Where the deletion succeeds, nothing refers to the app from the other tables; where it fails
after the commit, there was nothing to delete. -/
def Deletable (answers : Answers) (db : Tables) (appId : AppId) : Prop :=
  (answers.Succeeds → ∀ t : Table, t.deleted = false → NoRows db appId t) ∧
    (answers.FailsLate → ∀ t : Table, t.deleted → NoRows db appId t)

/-! ## What is deleted -/

/-- The database without the rows of the app in the five tables -/
def withoutApp (db : Tables) (appId : AppId) : Tables :=
  { db with
    userApp := db.userApp.deleteWhere fun r => r.appId = appId
    appVersion := db.appVersion.deleteWhere fun r => r.appId = appId
    appDownstream := db.appDownstream.deleteWhere fun r => r.appId = appId
    appDownstreamVersion := db.appDownstreamVersion.deleteWhere fun r => r.appId = appId
    app := db.app.deleteWhere fun r => r.id = appId }

section

variable {answers : Answers} {db tx : Tables} {appId : AppId} {t : Table}

theorem rows_withoutApp (db : Tables) (appId : AppId) (t : Table) :
    (withoutApp db appId).rows t =
      if t.deleted then (db.rows t).filter fun r => t.appId r ≠ appId else db.rows t := by
  have hfilter : ∀ {ρ : Type} (f : ρ → AppId) (rows : List ρ),
      (rows.filter fun r => !decide (f r = appId)) = rows.filter fun r => f r ≠ appId := by
    intro ρ f rows
    simp only [ne_eq, decide_not]
  cases t <;> first | rfl | exact hfilter _ _

theorem deleteRows_eq_ok :
    deleteRows answers db appId = .ok tx ↔ answers.Runs ∧ tx = withoutApp db appId := by
  unfold deleteRows Answers.Runs
  simp only [Except.bind_eq_ok]
  constructor
  · rintro ⟨⟨⟩, hbegin, ⟨⟩, huser, ⟨⟩, hversion, ⟨⟩, hdownstream, ⟨⟩, hdownstreamVersion, ⟨⟩, happ, htx⟩
    refine ⟨⟨hbegin, fun t ht => ?_⟩, (Except.ok.inj htx).symm⟩
    cases t <;> first | assumption | cases ht
  · rintro ⟨⟨hbegin, htables⟩, rfl⟩
    exact ⟨(), hbegin, (), htables .userApp rfl, (), htables .appVersion rfl, (),
      htables .appDownstream rfl, (), htables .appDownstreamVersion rfl, (), htables .app rfl, rfl⟩

/-- The three outcomes -/
theorem deleteApp_cases (answers : Answers) (db : Tables) (appId : AppId) :
    answers.Succeeds ∧ deleteApp answers db appId = (withoutApp db appId, .ok true) ∨
    answers.FailsLate ∧ (∃ e, deleteApp answers db appId = (withoutApp db appId, .error e)) ∨
    (¬ answers.Succeeds ∧ ¬ answers.FailsLate) ∧ ∃ e, deleteApp answers db appId = (db, .error e) := by
  unfold deleteApp Answers.FailsLate Answers.Succeeds
  cases hrows : deleteRows answers db appId with
  | error e =>
    have hruns : ¬ answers.Runs := fun hruns => by
      rw [deleteRows_eq_ok.mpr ⟨hruns, rfl⟩] at hrows
      cases hrows
    refine .inr (.inr ⟨⟨fun h => hruns h.1, fun h => hruns h.1⟩, ?_⟩)
    cases answers.query .rollback <;> exact ⟨_, rfl⟩
  | ok tx =>
    obtain ⟨hruns, rfl⟩ := deleteRows_eq_ok.mp hrows
    cases hcommit : answers.query .commit <;> cases hrollback : answers.query .rollback <;>
      cases hanyway : answers.commitsAnyway <;> simp [hruns]

theorem noRows_withoutApp :
    NoRows (withoutApp db appId) appId t ↔ t.deleted ∨ NoRows db appId t := by
  unfold NoRows
  rw [rows_withoutApp]
  by_cases ht : t.deleted
  · rw [if_pos ht]
    refine iff_of_true (fun r hr => ?_) (.inl ht)
    exact of_decide_eq_true (List.mem_filter.mp hr).2
  · rw [if_neg ht]
    exact (or_iff_right ht).symm

theorem sameOthers_withoutApp (db : Tables) (appId : AppId) :
    SameOthers db (withoutApp db appId) appId := by
  intro t
  rw [rows_withoutApp]
  split
  · rw [List.filter_filter]
    simp
  · rfl

/-- The rows determine the tables. -/
theorem Tables.eq_of_rows {db db' : Tables} (hrows : ∀ t, db.rows t = db'.rows t)
    (hcluster : db.cluster = db'.cluster) (htasks : db.apiTaskStatus = db'.apiTaskStatus) :
    db = db' := by
  obtain ⟨⟨app, version, downstream, downstreamVersion, output, cluster, tasks⟩, user, status,
    snapshots, pending, bundle⟩ := db
  obtain rfl := Keyed.ext (hrows .userApp)
  obtain rfl := Keyed.ext (hrows .appVersion)
  obtain rfl := Keyed.ext (hrows .appDownstream)
  obtain rfl := Keyed.ext (hrows .appDownstreamVersion)
  obtain rfl := Keyed.ext (hrows .app)
  obtain rfl := Keyed.ext (hrows .appDownstreamOutput)
  obtain rfl := Keyed.ext (hrows .scheduledSnapshots)
  obtain rfl := Keyed.ext (hrows .appStatus)
  obtain rfl := Keyed.ext (hrows .pendingSupportbundle)
  obtain rfl := Keyed.ext (hrows .supportbundle)
  obtain rfl : cluster = db'.cluster := hcluster
  obtain rfl : tasks = db'.apiTaskStatus := htasks
  rfl

/-- Without rows to delete the database stays as it is. -/
theorem withoutApp_eq_self :
    withoutApp db appId = db ↔ ∀ t : Table, t.deleted → NoRows db appId t := by
  constructor
  · intro h t ht
    rw [← h]
    exact noRows_withoutApp.mpr (.inl ht)
  · intro h
    refine Tables.eq_of_rows (fun t => ?_) rfl rfl
    rw [rows_withoutApp]
    split
    next ht => exact List.filter_eq_self.mpr fun r hr => decide_eq_true (h t ht r hr)
    next => rfl

end

/-- **One deletion.** -/
theorem leavesNothing_iff (answers : Answers) (db : Tables) (appId : AppId) :
    LeavesNothing answers db appId ↔ Deletable answers db appId := by
  unfold LeavesNothing Deletable
  rcases deleteApp_cases answers db appId with
    ⟨hsucceeds, h⟩ | ⟨hlate, e, h⟩ | ⟨⟨hsucceeds, hlate⟩, e, h⟩ <;> rw [h]
  · have hlate : ¬ answers.FailsLate := fun hlate => hlate.2.2 hsucceeds
    simp only [hsucceeds, hlate, true_implies, false_implies, and_true,
      sameOthers_withoutApp, noRows_withoutApp]
    refine forall_congr' fun t => ?_
    cases t.deleted <;> simp
  · have hsucceeds : ¬ answers.Succeeds := hlate.2.2
    simp only [hsucceeds, hlate, true_implies, false_implies, true_and]
    exact withoutApp_eq_self
  · simp only [hsucceeds, hlate, false_implies, and_true]

/-! ## Runs -/

/-- `setKotsAppStatus` -/
def setKotsAppStatus (db : Tables) (appId : AppId) (resourceStates : String)
    (updatedAt : Timestamp) : Tables :=
  { db with
    appStatus := db.appStatus.upsert { appId, resourceStates, updatedAt }
      (fun r => { r with resourceStates, updatedAt }) fun _ => rfl }

/-- The operations on the tables, each with its arguments. -/
inductive Op
  -- `Create`, which has no user, or `createKotsApp`
  | createApp (row : AppRow) (userId : Option String)
  | createDownstream (appId : AppId) (downstreamName : String) (clusterId : ClusterId)
  | deleteDownstream (appId : AppId) (clusterId : ClusterId)
  | createMidstreamVersion (id : AppId) (sequence : Int) (now : Timestamp)
      (columns : AppVersionColumns) (appTitle appIcon : String)
  | createDownstreamVersion (id : AppId) (parentSequence : Int) (clusterId : ClusterId)
      (now : Timestamp) (args : DownstreamVersionArgs)
  | deployVersion (appId : AppId) (sequence : Int) (now : Timestamp)
  | updateDownstreamsStatus (appId : AppId) (sequence : Int) (status statusInfo : String)
  | updateDownstreamDeployStatus (appId : AppId) (clusterId : ClusterId) (sequence : Int)
      (isError : Bool) (output : DeployOutput)
  | addKotsPreflight (appId : AppId) (clusterId : ClusterId) (sequence : Int)
      (preflightResult : PreflightResult) (now : Timestamp)
  | ignorePreflightPermissionErrors (appId : AppId) (clusterId : ClusterId) (sequence : Int)
  | retryPreflights (appId : AppId) (clusterId : ClusterId) (sequence : Int)
  | initiateRestore (snapshotName : String) (appId : AppId)
  | updateAppRestoreUndeployStatus (appId : AppId) (undeployStatus : UndeployStatus)
  | updateAppRestoreReset (appId : AppId)
  | createScheduledSnapshot (ss : ScheduledSnapshot)
  | deletePendingScheduledSnapshots (appId : AppId)
  | updateScheduledSnapshot (id backupName : String)
  | setKotsAppStatus (appId : AppId) (resourceStates : String) (updatedAt : Timestamp)
  | queueSupportBundleCollection (id : String) (appId : AppId) (clusterId : ClusterId)
  | clearPendingSupportBundle (id : String)
  | createSupportBundle (row : SupportbundleRow)
  | deleteApp (answers : Answers) (appId : AppId)

/-- A statement that fails leaves its table alone. -/
def insertOrKeep {ρ κ : Type} {key : ρ → κ} [DecidableEq κ] (t : Keyed key) (r : ρ) : Keyed key :=
  (t.insert? r).getD t

/-- An operation of the store that does not touch the other tables -/
def Tables.onDatabase (db : Tables) (f : Database → Database) : Tables :=
  { db with toDatabase := f db.toDatabase }

/-- The row of the app and the one of the user are inserted in one transaction. -/
def createApp (db : Tables) (row : AppRow) (userId : Option String) : Tables :=
  match db.app.insert? row, userId with
  | none, _ => db
  | some app, none => { db with app }
  | some app, some userId =>
    match db.userApp.insert? { userId, appId := row.id } with
    | none => db
    | some userApp => { db with app, userApp }

def Op.apply (db : Tables) : Op → Tables
  | createApp row userId => DeleteApp.createApp db row userId
  | createDownstream appId downstreamName clusterId =>
    db.onDatabase fun db => KotsAppStore.createDownstream db appId downstreamName clusterId
  | deleteDownstream appId clusterId =>
    db.onDatabase fun db => (KotsAppStore.deleteDownstream db appId clusterId).toOption.getD db
  | createMidstreamVersion id sequence now columns appTitle appIcon =>
    db.onDatabase fun db =>
      (KotsAppStore.createMidstreamVersion db id sequence now columns appTitle appIcon).1
  | createDownstreamVersion id parentSequence clusterId now args =>
    db.onDatabase fun db =>
      (KotsAppStore.createDownstreamVersion db id parentSequence clusterId now args).toOption.getD
        db
  | deployVersion appId sequence now =>
    db.onDatabase fun db => KotsAppStore.deployVersion db appId sequence now
  | updateDownstreamsStatus appId sequence status statusInfo =>
    db.onDatabase fun db => KotsAppStore.updateDownstreamsStatus db appId sequence status statusInfo
  | updateDownstreamDeployStatus appId clusterId sequence isError output =>
    db.onDatabase fun db =>
      KotsAppStore.updateDownstreamDeployStatus db appId clusterId sequence isError output
  | addKotsPreflight appId clusterId sequence preflightResult now =>
    db.onDatabase fun db =>
      KotsAppStore.addKotsPreflight db appId clusterId sequence preflightResult now
  | ignorePreflightPermissionErrors appId clusterId sequence =>
    db.onDatabase fun db =>
      KotsAppStore.ignorePreflightPermissionErrors db appId clusterId sequence
  | retryPreflights appId clusterId sequence =>
    db.onDatabase fun db => KotsAppStore.retryPreflights db appId clusterId sequence
  | initiateRestore snapshotName appId =>
    db.onDatabase fun db => KotsAppStore.initiateRestore db snapshotName appId
  | updateAppRestoreUndeployStatus appId undeployStatus =>
    db.onDatabase fun db => KotsAppStore.updateAppRestoreUndeployStatus db appId undeployStatus
  | updateAppRestoreReset appId =>
    db.onDatabase fun db => KotsAppStore.updateAppRestoreReset db appId
  | createScheduledSnapshot ss =>
    { db with
      scheduledSnapshots :=
        (Snapshots.createScheduledSnapshot db.scheduledSnapshots ss).toOption.getD
          db.scheduledSnapshots }
  | deletePendingScheduledSnapshots appId =>
    { db with
      scheduledSnapshots :=
        Snapshots.deletePendingScheduledSnapshots db.scheduledSnapshots appId }
  | updateScheduledSnapshot id backupName =>
    { db with
      scheduledSnapshots :=
        Snapshots.updateScheduledSnapshot db.scheduledSnapshots id backupName }
  | setKotsAppStatus appId resourceStates updatedAt =>
    DeleteApp.setKotsAppStatus db appId resourceStates updatedAt
  | queueSupportBundleCollection id appId clusterId =>
    { db with
      pendingSupportbundle := insertOrKeep db.pendingSupportbundle { id, appId, clusterId } }
  | clearPendingSupportBundle id =>
    { db with
      pendingSupportbundle := db.pendingSupportbundle.deleteWhere fun r => decide (r.id = id) }
  | createSupportBundle row => { db with supportbundle := insertOrKeep db.supportbundle row }
  | deleteApp answers appId => (DeleteApp.deleteApp answers db appId).1

/-- The database after some operations, from the empty one on -/
def after (ops : List Op) : Tables := ops.foldl Op.apply {}

/-- `P` holds of every deletion of a run. -/
def EachDeletion (P : Answers → Tables → AppId → Prop) (ops : List Op) : Prop :=
  ∀ before answers appId later, ops = before ++ .deleteApp answers appId :: later →
    P answers (after before) appId

/-- The operation writes a row of the app to a table in which nothing is deleted. -/
def Op.Keeps (appId : AppId) : Op → Prop
  | updateDownstreamDeployStatus id .. => id = appId
  | createScheduledSnapshot ss => ss.appId = appId
  | setKotsAppStatus id .. => id = appId
  | queueSupportBundleCollection _ id _ => id = appId
  | createSupportBundle row => row.watchId = appId
  | _ => False

/-- Nothing refers to the app from the tables in which nothing is deleted. -/
def NothingKept (db : Tables) (appId : AppId) : Prop :=
  ∀ t : Table, t.deleted = false → NoRows db appId t

section

variable {db : Tables} {appId : AppId} {ops : List Op}

theorem nothingKept_iff : NothingKept db appId ↔
    (∀ r ∈ db.appDownstreamOutput.rows, r.appId ≠ appId) ∧
    (∀ r ∈ db.scheduledSnapshots.rows, r.appId ≠ appId) ∧
    (∀ r ∈ db.appStatus.rows, r.appId ≠ appId) ∧
    (∀ r ∈ db.pendingSupportbundle.rows, r.appId ≠ appId) ∧
    ∀ r ∈ db.supportbundle.rows, r.watchId ≠ appId := by
  constructor
  · intro h
    exact ⟨h .appDownstreamOutput rfl, h .scheduledSnapshots rfl, h .appStatus rfl,
      h .pendingSupportbundle rfl, h .supportbundle rfl⟩
  · rintro ⟨houtput, hsnapshots, hstatus, hpending, hbundle⟩ t ht
    cases t with
    | appDownstreamOutput => exact houtput
    | scheduledSnapshots => exact hsnapshots
    | appStatus => exact hstatus
    | pendingSupportbundle => exact hpending
    | supportbundle => exact hbundle
    | _ => cases ht

theorem mem_upsert {ρ κ : Type} {key : ρ → κ} [DecidableEq κ] {t : Keyed key} {r s : ρ}
    {merge : ρ → ρ} {hm : ∀ s, key (merge s) = key s} (h : s ∈ (t.upsert r merge hm).rows) :
    s = r ∨ s ∈ t.rows ∨ ∃ old ∈ t.rows, key old = key r ∧ s = merge old := by
  unfold Keyed.upsert at h
  split at h
  next t' hinsert =>
    rw [(Keyed.insert?_eq_some hinsert).1, List.mem_append, List.mem_singleton] at h
    exact h.elim (fun h => .inr (.inl h)) .inl
  next =>
    obtain ⟨old, hold, rfl⟩ := Keyed.mem_updateWhere.mp h
    split
    next hkey => exact .inr (.inr ⟨old, hold, of_decide_eq_true hkey, rfl⟩)
    next => exact .inr (.inl hold)

theorem mem_insertOrKeep {ρ κ : Type} {key : ρ → κ} [DecidableEq κ] {t : Keyed key} {r s : ρ}
    (h : s ∈ (insertOrKeep t r).rows) : s = r ∨ s ∈ t.rows := by
  unfold insertOrKeep at h
  cases hinsert : t.insert? r with
  | none =>
    rw [hinsert] at h
    exact .inr h
  | some t' =>
    rw [hinsert, Option.getD_some, (Keyed.insert?_eq_some hinsert).1, List.mem_append,
      List.mem_singleton] at h
    exact h.symm

theorem createScheduledSnapshot_getD (t : ScheduledSnapshots) (ss : ScheduledSnapshot) :
    (Snapshots.createScheduledSnapshot t ss).toOption.getD t =
      insertOrKeep t { ss with backupName := none } := by
  unfold Snapshots.createScheduledSnapshot insertOrKeep
  cases t.insert? { ss with backupName := none } <;> rfl

/-- An operation on other tables. -/
theorem NothingKept.onDatabase (h : NothingKept db appId) {f : Database → Database}
    (hf : (f db.toDatabase).appDownstreamOutput = db.appDownstreamOutput) :
    NothingKept (db.onDatabase f) appId := by
  obtain ⟨houtput, hrest⟩ := nothingKept_iff.mp h
  refine nothingKept_iff.mpr ⟨?_, hrest⟩
  intro r hr
  rw [show (db.onDatabase f).appDownstreamOutput = db.appDownstreamOutput from hf] at hr
  exact houtput r hr

theorem appDownstreamOutput_createMidstreamVersion (db : Database) (id : AppId) (sequence : Int)
    (now : Timestamp) (columns : AppVersionColumns) (appTitle appIcon : String) :
    (KotsAppStore.createMidstreamVersion db id sequence now columns appTitle
      appIcon).1.appDownstreamOutput = db.appDownstreamOutput := by
  unfold KotsAppStore.createMidstreamVersion
  dsimp only
  split
  · split <;> rfl
  · rfl

theorem appDownstreamOutput_createDownstreamVersion (db : Database) (id : AppId)
    (parentSequence : Int) (clusterId : ClusterId) (now : Timestamp) (args : DownstreamVersionArgs) :
    ((KotsAppStore.createDownstreamVersion db id parentSequence clusterId now args).toOption.getD
      db).appDownstreamOutput = db.appDownstreamOutput := by
  unfold KotsAppStore.createDownstreamVersion KotsAppStore.insertDownstreamVersion
  dsimp only
  split <;> rfl

/-- **The step.**  Only the operations of the other tables leave something there. -/
theorem NothingKept.apply (h : NothingKept db appId) {op : Op} (hop : ¬ op.Keeps appId) :
    NothingKept (op.apply db) appId := by
  obtain ⟨houtput, hsnapshots, hstatus, hpending, hbundle⟩ := nothingKept_iff.mp h
  cases op with
  | createApp row userId =>
    change NothingKept (DeleteApp.createApp db row userId) appId
    unfold DeleteApp.createApp
    split
    · exact h
    · exact nothingKept_iff.mpr ⟨houtput, hsnapshots, hstatus, hpending, hbundle⟩
    · split
      · exact h
      · exact nothingKept_iff.mpr ⟨houtput, hsnapshots, hstatus, hpending, hbundle⟩
  | createDownstream => exact h.onDatabase rfl
  | deleteDownstream =>
    refine h.onDatabase ?_
    unfold KotsAppStore.deleteDownstream
    split <;> rfl
  | createMidstreamVersion =>
    exact h.onDatabase (appDownstreamOutput_createMidstreamVersion _ _ _ _ _ _ _)
  | createDownstreamVersion =>
    exact h.onDatabase (appDownstreamOutput_createDownstreamVersion _ _ _ _ _ _)
  | deployVersion => exact h.onDatabase rfl
  | updateDownstreamsStatus => exact h.onDatabase rfl
  | updateDownstreamDeployStatus id clusterId sequence isError output =>
    refine nothingKept_iff.mpr ⟨fun r hr => ?_, hsnapshots, hstatus, hpending, hbundle⟩
    change r ∈ (KotsAppStore.updateDownstreamDeployStatus db.toDatabase id clusterId sequence isError
      output).appDownstreamOutput.rows at hr
    unfold KotsAppStore.updateDownstreamDeployStatus at hr
    dsimp only at hr
    split at hr
    · exact houtput r hr
    · rcases mem_upsert hr with rfl | hold | ⟨old, hold, -, rfl⟩
      · exact hop
      · exact houtput r hold
      · exact houtput old hold
  | addKotsPreflight =>
    refine h.onDatabase ?_
    unfold KotsAppStore.addKotsPreflight
    dsimp only
    split <;> rfl
  | ignorePreflightPermissionErrors => exact h.onDatabase rfl
  | retryPreflights => exact h.onDatabase rfl
  | initiateRestore => exact h.onDatabase rfl
  | updateAppRestoreUndeployStatus => exact h.onDatabase rfl
  | updateAppRestoreReset => exact h.onDatabase rfl
  | createScheduledSnapshot ss =>
    refine nothingKept_iff.mpr ⟨houtput, fun r hr => ?_, hstatus, hpending, hbundle⟩
    rw [Op.apply, createScheduledSnapshot_getD] at hr
    rcases mem_insertOrKeep hr with rfl | hold
    · exact hop
    · exact hsnapshots r hold
  | deletePendingScheduledSnapshots =>
    exact nothingKept_iff.mpr ⟨houtput,
      fun r hr => hsnapshots r (Keyed.mem_deleteWhere.mp hr).1, hstatus, hpending, hbundle⟩
  | updateScheduledSnapshot id backupName =>
    refine nothingKept_iff.mpr ⟨houtput, fun r hr => ?_, hstatus, hpending, hbundle⟩
    rw [Op.apply, Snapshots.updateScheduledSnapshot, Keyed.mem_updateWhere] at hr
    obtain ⟨old, hold, rfl⟩ := hr
    split <;> exact hsnapshots old hold
  | setKotsAppStatus id resourceStates updatedAt =>
    refine nothingKept_iff.mpr ⟨houtput, hsnapshots, fun r hr => ?_, hpending, hbundle⟩
    rcases mem_upsert hr with rfl | hold | ⟨old, hold, -, rfl⟩
    · exact hop
    · exact hstatus r hold
    · exact hstatus old hold
  | queueSupportBundleCollection id queuedFor clusterId =>
    refine nothingKept_iff.mpr ⟨houtput, hsnapshots, hstatus, fun r hr => ?_, hbundle⟩
    rcases mem_insertOrKeep hr with rfl | hold
    · exact hop
    · exact hpending r hold
  | clearPendingSupportBundle =>
    exact nothingKept_iff.mpr ⟨houtput, hsnapshots, hstatus,
      fun r hr => hpending r (Keyed.mem_deleteWhere.mp hr).1, hbundle⟩
  | createSupportBundle row =>
    refine nothingKept_iff.mpr ⟨houtput, hsnapshots, hstatus, hpending, fun r hr => ?_⟩
    rcases mem_insertOrKeep hr with rfl | hold
    · exact hop
    · exact hbundle r hold
  | deleteApp answers id =>
    have hkept : NothingKept (withoutApp db id) appId :=
      nothingKept_iff.mpr ⟨houtput, hsnapshots, hstatus, hpending, hbundle⟩
    change NothingKept (DeleteApp.deleteApp answers db id).1 appId
    rcases deleteApp_cases answers db id with ⟨-, hdelete⟩ | ⟨-, e, hdelete⟩ | ⟨-, e, hdelete⟩ <;>
      rw [hdelete]
    · exact hkept
    · exact hkept
    · exact h

/-- An app without outputs, scheduled snapshots, statuses and support bundles in a run -/
theorem nothingKept_after (h : ∀ op ∈ ops, ¬ op.Keeps appId) : NothingKept (after ops) appId := by
  have hrun : ∀ db, NothingKept db appId → NothingKept (ops.foldl Op.apply db) appId := by
    induction ops with
    | nil => exact fun db hdb => hdb
    | cons op ops ih =>
      intro db hdb
      exact ih (fun op hop => h op (List.mem_cons_of_mem _ hop)) _
        (hdb.apply (h op List.mem_cons_self))
  exact hrun {} (nothingKept_iff.mpr ⟨nofun, nofun, nofun, nofun, nofun⟩)

/-- The deletion of such an app -/
theorem leavesNothing_after (h : ∀ op ∈ ops, ¬ op.Keeps appId) {answers : Answers}
    (hanswers : ¬ answers.FailsLate) : LeavesNothing answers (after ops) appId :=
  (leavesNothing_iff answers _ appId).mpr
    ⟨fun _ => nothingKept_after h, fun hlate => absurd hlate hanswers⟩

end

/-- **When deletions leave nothing behind.**  In every run of the operations from the empty
database, all deletions leave nothing behind exactly when each of them finds no row of its app in
the tables in which it does not delete, and does not fail once it has committed a deletion. -/
theorem eachDeletion_iff (ops : List Op) :
    EachDeletion LeavesNothing ops ↔ EachDeletion Deletable ops := by
  constructor
  · intro h before answers appId later hops
    exact (leavesNothing_iff answers _ appId).mp (h before answers appId later hops)
  · intro h before answers appId later hops
    exact (leavesNothing_iff answers _ appId).mpr (h before answers appId later hops)

/-- The database answers everything. -/
def answered : Answers where
  error _ := none

/-- An app with one downstream that was deployed, reported and scheduled, and is deleted. -/
def deployedApp : List Op :=
  [.createApp { id := "a", name := "sentry", slug := "sentry" } none,
   .createDownstream "a" "this-cluster" "c",
   .createDownstreamVersion "a" 0 "c" 0 { status := "pending" },
   .deployVersion "a" 0 1,
   .updateDownstreamDeployStatus "a" "c" 0 false ⟨none, none, none, none⟩,
   .setKotsAppStatus "a" "[]" 2,
   .createScheduledSnapshot { id := "s", appId := "a", scheduledTimestamp := 3 }]

theorem not_eachDeletion : ¬ ∀ ops, EachDeletion LeavesNothing ops := by
  intro h
  have hdelete := h (deployedApp ++ [.deleteApp answered "a"]) deployedApp answered "a" [] rfl
  have hsucceeds : answered.Succeeds := ⟨⟨rfl, fun _ _ => rfl⟩, rfl, rfl⟩
  have houtput := ((leavesNothing_iff _ _ _).mp hdelete).1 hsucceeds .appDownstreamOutput rfl
  exact absurd houtput (by decide)

end Kotsadm.DeleteApp
