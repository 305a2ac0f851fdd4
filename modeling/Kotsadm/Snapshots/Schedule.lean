import Kotsadm.Store.Database
import Kotsadm.Lib.Throws

/-!
# Schedule — the queue of scheduled snapshots and one run of `handleApp`

A row of `scheduled_snapshots` is pending while its `backup_name` is `NULL`.  `handleApp` looks at
the first pending row of an app; when it is due it locks the row, creates the velero `Backup`, and
queues the next row in the same transaction.
-/

namespace Kotsadm.Snapshots

structure ScheduledSnapshot where
  id : String
  appId : AppId
  scheduledTimestamp : Timestamp
  -- the name of the `Backup`, once it is created
  backupName : Option String := none
  deriving DecidableEq, Repr

/-- The table `scheduled_snapshots`. -/
abbrev ScheduledSnapshots := Keyed ScheduledSnapshot.id

/-! ## SnapshotsStore -/

def ScheduledSnapshot.isPending (appId : AppId) (r : ScheduledSnapshot) : Bool :=
  r.appId = appId && r.backupName.isNone

/-- There is no `ORDER BY`: the first row is any row. -/
def listPendingScheduledSnapshots (t : ScheduledSnapshots) (appId : AppId) :
    List ScheduledSnapshot :=
  t.rows.filter (·.isPending appId)

def deletePendingScheduledSnapshots (t : ScheduledSnapshots) (appId : AppId) :
    ScheduledSnapshots :=
  t.deleteWhere (·.isPending appId)

/-- `SELECT … FOR UPDATE SKIP LOCKED`: no row when another transaction has locked it. -/
def lockScheduledSnapshot (t : ScheduledSnapshots) (lockedByOthers : String → Bool) (id : String) :
    Bool :=
  (t.find? id).isSome && !lockedByOthers id

def updateScheduledSnapshot (t : ScheduledSnapshots) (id backupName : String) :
    ScheduledSnapshots :=
  t.updateWhere (fun r => r.id = id) (fun r => { r with backupName := some backupName })
    fun _ => rfl

def createScheduledSnapshot (t : ScheduledSnapshots) (ss : ScheduledSnapshot) :
    Except String ScheduledSnapshots :=
  match t.insert? { ss with backupName := none } with
  | none => .error "duplicate key value violates unique constraint"
  | some t => .ok t

section Store

variable {t t' : ScheduledSnapshots} {appId : AppId} {id backupName : String}
  {r ss : ScheduledSnapshot}

theorem isPending_iff : r.isPending appId = true ↔ r.appId = appId ∧ r.backupName = none := by
  simp [ScheduledSnapshot.isPending]

theorem mem_listPending :
    r ∈ listPendingScheduledSnapshots t appId ↔
      r ∈ t.rows ∧ r.appId = appId ∧ r.backupName = none := by
  rw [listPendingScheduledSnapshots, List.mem_filter, isPending_iff]

theorem listPending_delete :
    listPendingScheduledSnapshots (deletePendingScheduledSnapshots t appId) appId = [] := by
  unfold listPendingScheduledSnapshots deletePendingScheduledSnapshots Keyed.deleteWhere
  rw [List.filter_filter, List.filter_eq_nil_iff]
  intro r _
  simp

/-- The updated row is no longer pending; the others are not touched. -/
theorem listPending_update :
    listPendingScheduledSnapshots (updateScheduledSnapshot t id backupName) appId =
      (listPendingScheduledSnapshots t appId).filter fun r => decide (r.id ≠ id) := by
  unfold listPendingScheduledSnapshots updateScheduledSnapshot Keyed.updateWhere
  dsimp only
  induction t.rows with
  | nil => rfl
  | cons r rows ih =>
    by_cases hid : r.id = id
    · have hhandled : ¬ ScheduledSnapshot.isPending appId
          { r with backupName := some backupName } = true := by
        simp [ScheduledSnapshot.isPending]
      rw [List.map_cons, if_pos (by simpa using hid), List.filter_cons_of_neg hhandled, ih,
        List.filter_filter, List.filter_filter, List.filter_cons_of_neg (by simp [hid])]
    · rw [List.map_cons, if_neg (by simpa using hid)]
      by_cases hpending : r.isPending appId = true
      · rw [List.filter_cons_of_pos hpending, List.filter_cons_of_pos hpending,
          List.filter_cons_of_pos (by simpa using hid), ih]
      · rw [List.filter_cons_of_neg hpending, List.filter_cons_of_neg hpending, ih]

/-- A new row is pending, and the last one. -/
theorem listPending_create (h : createScheduledSnapshot t ss = .ok t') (app : AppId) :
    listPendingScheduledSnapshots t' app =
      listPendingScheduledSnapshots t app ++
        if ss.appId = app then [{ ss with backupName := none }] else [] := by
  unfold createScheduledSnapshot at h
  split at h
  next => cases h
  next table hinsert =>
    cases h
    obtain ⟨hrows, -⟩ := Keyed.insert?_eq_some hinsert
    unfold listPendingScheduledSnapshots
    rw [hrows, List.filter_append]
    congr 1
    by_cases happ : ss.appId = app <;> simp [ScheduledSnapshot.isPending, happ]

end Store

/-! ## VeleroClient -/

inductive Phase where
  | new
  | failedValidation
  | inProgress
  | completed
  | partiallyFailed
  | failed
  deriving DecidableEq, Repr

/-- A velero `Backup`: its annotation `kots.io/app-id` and its phase. -/
structure Backup where
  appId : Option AppId
  -- no status yet, or one without a phase
  phase : Option Phase := none
  deriving DecidableEq, Repr

/-- A `Backup` without a phase counts for every app. -/
def hasUnfinishedBackup (appId : AppId) (backups : List Backup) : Bool :=
  if appId = "" then false
  else backups.any fun b =>
    match b.phase with
    | none => true
    | some phase => b.appId = some appId && (phase = .new || phase = .inProgress)

/-! ## handleApp -/

inductive Statement where
  | listPending
  | connect
  | begin
  | lock
  | update
  | deletePending
  | create
  | commit
  deriving DecidableEq, Repr

/-- What a run of `handleApp` meets outside the table. -/
structure Env where
  now : Timestamp
  /-- `GET backups` -/
  backups : Except String (List Backup) := .ok []
  lockedByOthers : String → Bool := fun _ => false
  /-- The name of the `Backup` that `backup` creates. -/
  backup : Except String String := .ok "scheduled-0"
  /-- `cron.fromString(cronExpression).schedule().next()` -/
  cron : String → Except String Timestamp
  /-- `randomstring.generate` -/
  randomstring : String
  /-- The statements that fail. -/
  failure : Statement → Option String := fun _ => none

def Env.query (env : Env) (statement : Statement) : Except String Unit :=
  match env.failure statement with
  | none => .ok ()
  | some e => .error e

def nextScheduled (env : Env) (appId : AppId) (cronExpression : String) :
    Except String ScheduledSnapshot := do
  let scheduledTimestamp ← env.cron cronExpression
  return { id := env.randomstring, appId, scheduledTimestamp }

/-- `if (pending.length > 1)` -/
def deleteOthers (env : Env) (appId : AppId) (pending : List ScheduledSnapshot)
    (t : ScheduledSnapshots) : Except String ScheduledSnapshots :=
  if pending.length > 1 then do
    env.query .deletePending
    return deletePendingScheduledSnapshots t appId
  else .ok t

/-- The statements after the lock, up to the commit. -/
def takeSnapshot (env : Env) (appId : AppId) (snapshotSchedule : String)
    (pending : List ScheduledSnapshot) (next : ScheduledSnapshot) (t : ScheduledSnapshots) :
    Except String ScheduledSnapshots := do
  let b ← env.backup
  env.query .update
  let t ← deleteOthers env appId pending (updateScheduledSnapshot t next.id b)
  let queued ← nextScheduled env appId snapshotSchedule
  env.query .create
  let t ← createScheduledSnapshot t queued
  env.query .commit
  return t

/-- The table that a run leaves.  One that throws leaves the table as it was: the transaction is
rolled back, and outside it there is a single statement. -/
def handleApp (env : Env) (appId : AppId) (snapshotSchedule : Option String)
    (t : ScheduledSnapshots) : Except String ScheduledSnapshots :=
  match snapshotSchedule with
  | none | some "" => .ok t
  | some snapshotSchedule => do
    env.query .listPending
    let pending := listPendingScheduledSnapshots t appId
    match pending with
    | [] =>
      let queued ← nextScheduled env appId snapshotSchedule
      env.query .create
      createScheduledSnapshot t queued
    | next :: _ =>
      if next.scheduledTimestamp > env.now then return t
      let backups ← env.backups
      if hasUnfinishedBackup appId backups then return t
      env.query .connect
      env.query .begin
      env.query .lock
      let acquiredLock := lockScheduledSnapshot t env.lockedByOthers next.id
      if !acquiredLock then return t
      takeSnapshot env appId snapshotSchedule pending next t

/-! ## The ways out of handleApp -/

/-- The run goes past the checks and gets the lock on `next`. -/
def Env.Takes (env : Env) (appId : AppId) (next : ScheduledSnapshot) : Prop :=
  next.scheduledTimestamp ≤ env.now ∧
    (∃ backups, env.backups = .ok backups ∧ hasUnfinishedBackup appId backups = false) ∧
    env.lockedByOthers next.id = false

section HandleApp

variable {env : Env} {appId : AppId} {snapshotSchedule : String} {t t' : ScheduledSnapshots}

theorem lockScheduledSnapshot_of_listed {next : ScheduledSnapshot}
    (hnext : next ∈ listPendingScheduledSnapshots t appId) (lockedByOthers : String → Bool) :
    lockScheduledSnapshot t lockedByOthers next.id = !lockedByOthers next.id := by
  have hfound := Keyed.find?_isSome_of_mem (mem_listPending.mp hnext).1
  unfold lockScheduledSnapshot
  rw [hfound, Option.isSome_some, Bool.true_and]

theorem nextScheduled_appId {queued : ScheduledSnapshot}
    (h : nextScheduled env appId snapshotSchedule = .ok queued) : queued.appId = appId := by
  unfold nextScheduled at h
  obtain ⟨_, -, h⟩ := Except.bind_eq_ok.mp h
  cases h
  rfl

theorem handleApp_cases (hschedule : snapshotSchedule ≠ "")
    (h : handleApp env appId (some snapshotSchedule) t = .ok t') :
    (listPendingScheduledSnapshots t appId = [] ∧
      ∃ queued, nextScheduled env appId snapshotSchedule = .ok queued ∧
        createScheduledSnapshot t queued = .ok t') ∨
    ∃ next rest, listPendingScheduledSnapshots t appId = next :: rest ∧
      ((¬ env.Takes appId next ∧ t' = t) ∨
        (env.Takes appId next ∧
          takeSnapshot env appId snapshotSchedule (next :: rest) next t = .ok t')) := by
  unfold handleApp at h
  split at h
  next heq => cases heq
  next heq => exact absurd (Option.some.inj heq) hschedule
  next schedule _ heq =>
    cases heq
    obtain ⟨_, -, h⟩ := Except.bind_eq_ok.mp h
    dsimp only at h
    split at h
    next hnone =>
      left
      obtain ⟨queued, hqueued, h⟩ := Except.bind_eq_ok.mp h
      obtain ⟨_, -, h⟩ := Except.bind_eq_ok.mp h
      exact ⟨hnone, queued, hqueued, h⟩
    next next rest hsome =>
      right
      refine ⟨next, rest, hsome, ?_⟩
      have hlisted : next ∈ listPendingScheduledSnapshots t appId := by
        rw [hsome]
        exact List.mem_cons_self
      split at h
      next hfuture =>
        cases h
        exact .inl ⟨fun htakes => absurd htakes.1 (Nat.not_le.mpr hfuture), rfl⟩
      next hdue =>
        obtain ⟨backups, hbackups, h⟩ := Except.bind_eq_ok.mp h
        split at h
        next hunfinished =>
          cases h
          refine .inl ⟨?_, rfl⟩
          rintro ⟨-, ⟨backups', hbackups', hidle⟩, -⟩
          rw [hbackups] at hbackups'
          cases hbackups'
          rw [hidle] at hunfinished
          cases hunfinished
        next hidle =>
          obtain ⟨_, -, h⟩ := Except.bind_eq_ok.mp h
          obtain ⟨_, -, h⟩ := Except.bind_eq_ok.mp h
          obtain ⟨_, -, h⟩ := Except.bind_eq_ok.mp h
          rw [lockScheduledSnapshot_of_listed hlisted, Bool.not_not] at h
          split at h
          next hlocked =>
            cases h
            refine .inl ⟨?_, rfl⟩
            rintro ⟨-, -, hfree⟩
            rw [hfree] at hlocked
            cases hlocked
          next hfree =>
            rw [hsome] at h
            exact .inr ⟨⟨Nat.not_lt.mp hdue, ⟨backups, hbackups, by simpa using hidle⟩,
              by simpa using hfree⟩, h⟩

/-- What the transaction writes when it commits. -/
theorem takeSnapshot_spec {pending : List ScheduledSnapshot} {next : ScheduledSnapshot}
    (h : takeSnapshot env appId snapshotSchedule pending next t = .ok t') :
    ∃ b cleared queued, env.backup = .ok b ∧
      cleared = (if pending.length > 1 then
          deletePendingScheduledSnapshots (updateScheduledSnapshot t next.id b) appId
        else updateScheduledSnapshot t next.id b) ∧
      nextScheduled env appId snapshotSchedule = .ok queued ∧
      createScheduledSnapshot cleared queued = .ok t' := by
  unfold takeSnapshot at h
  obtain ⟨b, hbackup, h⟩ := Except.bind_eq_ok.mp h
  obtain ⟨_, -, h⟩ := Except.bind_eq_ok.mp h
  obtain ⟨cleared, hcleared, h⟩ := Except.bind_eq_ok.mp h
  obtain ⟨queued, hqueued, h⟩ := Except.bind_eq_ok.mp h
  obtain ⟨_, -, h⟩ := Except.bind_eq_ok.mp h
  obtain ⟨created, hcreated, h⟩ := Except.bind_eq_ok.mp h
  obtain ⟨_, -, h⟩ := Except.bind_eq_ok.mp h
  cases h
  refine ⟨b, cleared, queued, hbackup, ?_, hqueued, hcreated⟩
  unfold deleteOthers at hcleared
  split at hcleared
  next hothers =>
    obtain ⟨_, -, hcleared⟩ := Except.bind_eq_ok.mp hcleared
    cases hcleared
    rw [if_pos hothers]
  next hsingle =>
    cases hcleared
    rw [if_neg hsingle]

/-- The transaction leaves one pending row, whatever else was pending. -/
theorem length_takeSnapshot {next : ScheduledSnapshot} {rest : List ScheduledSnapshot}
    (hpending : listPendingScheduledSnapshots t appId = next :: rest)
    (h : takeSnapshot env appId snapshotSchedule (next :: rest) next t = .ok t') :
    (listPendingScheduledSnapshots t' appId).length = 1 := by
  obtain ⟨b, cleared, queued, -, hcleared, hqueued, hcreated⟩ := takeSnapshot_spec h
  have hnone : listPendingScheduledSnapshots cleared appId = [] := by
    rw [hcleared]
    split
    next => exact listPending_delete
    next hsingle =>
      -- nothing else was pending
      have hrest : rest = [] := by
        rw [List.length_cons] at hsingle
        exact List.length_eq_zero_iff.mp (by omega)
      rw [listPending_update, hpending, hrest]
      simp
  rw [listPending_create hcreated, hnone, if_pos (nextScheduled_appId hqueued)]
  rfl

/-- **A run leaves exactly one pending row, unless it found more than one and did not take the
first.** -/
theorem length_handleApp_iff (hschedule : snapshotSchedule ≠ "")
    (h : handleApp env appId (some snapshotSchedule) t = .ok t') :
    (listPendingScheduledSnapshots t' appId).length = 1 ↔
      (listPendingScheduledSnapshots t appId).length ≤ 1 ∨
        ∃ next, (listPendingScheduledSnapshots t appId).head? = some next ∧
          env.Takes appId next := by
  rcases handleApp_cases hschedule h with
    ⟨hnone, queued, hqueued, hcreated⟩ | ⟨next, rest, hsome, ⟨hstays, rfl⟩ | ⟨htakes, htaken⟩⟩
  · rw [listPending_create hcreated, hnone, if_pos (nextScheduled_appId hqueued)]
    simp
  · rw [hsome, List.head?_cons, List.length_cons]
    constructor
    · intro hone
      exact .inl (by omega)
    · rintro (hle | ⟨first, hfirst, htakes⟩)
      · omega
      · cases hfirst
        exact absurd htakes hstays
  · have hone := length_takeSnapshot hsome htaken
    rw [hsome, List.head?_cons]
    constructor
    · intro _
      exact .inr ⟨next, rfl, htakes⟩
    · intro _
      exact hone

end HandleApp

/-- At noon, with a daily schedule. -/
def noon : Env where
  now := 43200
  cron := fun _ => .ok 86400
  randomstring := "r3"

/-- A row for yesterday and one for tomorrow, in this order or the other. -/
def twoPending (dueFirst : Bool) : ScheduledSnapshots where
  rows :=
    if dueFirst then
      [{ id := "r1", appId := "app", scheduledTimestamp := 0 },
       { id := "r2", appId := "app", scheduledTimestamp := 86400 }]
    else
      [{ id := "r2", appId := "app", scheduledTimestamp := 86400 },
       { id := "r1", appId := "app", scheduledTimestamp := 0 }]
  nodup := by cases dueFirst <;> decide

/-- What the run at noon leaves. -/
def afterNoon (dueFirst : Bool) : ScheduledSnapshots where
  rows :=
    if dueFirst then
      [{ id := "r1", appId := "app", scheduledTimestamp := 0, backupName := some "scheduled-0" },
       { id := "r3", appId := "app", scheduledTimestamp := 86400 }]
    else (twoPending false).rows
  nodup := by cases dueFirst <;> decide

theorem handleApp_noon (dueFirst : Bool) :
    handleApp noon "app" (some "0 0 * * *") (twoPending dueFirst) = .ok (afterNoon dueFirst) := by
  cases dueFirst <;> rfl

theorem length_handleApp_noon :
    (listPendingScheduledSnapshots (afterNoon true) "app").length = 1 :=
  (length_handleApp_iff (by decide) (handleApp_noon true)).mpr
    (.inr ⟨{ id := "r1", appId := "app", scheduledTimestamp := 0 }, rfl, by decide, ⟨[], rfl, rfl⟩,
      rfl⟩)

/-- The row for tomorrow comes first: the run returns, and both rows stay. -/
theorem not_length_handleApp :
    ¬ ∀ (env : Env) (appId : AppId) (snapshotSchedule : String) (t t' : ScheduledSnapshots),
      snapshotSchedule ≠ "" →
      (∀ backups, env.backups = .ok backups → hasUnfinishedBackup appId backups = false) →
      handleApp env appId (some snapshotSchedule) t = .ok t' →
      (listPendingScheduledSnapshots t' appId).length = 1 := by
  intro h
  have hidle : ∀ backups, noon.backups = .ok backups →
      hasUnfinishedBackup "app" backups = false := by
    intro backups hbackups
    cases hbackups
    rfl
  have hone := h noon "app" "0 0 * * *" _ _ (by decide) hidle (handleApp_noon false)
  revert hone
  decide

end Kotsadm.Snapshots
