import Kotsadm.Lib.Machine
import Kotsadm.Lib.Processes
import Kotsadm.Snapshots.Schedule

/-!
# Replicas — `handleApp` and `saveSnapshotConfig` side by side, statement by statement

Every replica of the API runs `handleApp` for every app once a minute, also when the run before has
not ended, and `saveSnapshotConfig` may come at any time.  The statements see what is committed.  A
transaction of `handleApp` is modelled by what it has still to write; its commit writes all of it,
and until then it holds the locks on the rows it writes.  A `DELETE` takes its rows one by one and
waits for each; a row that is no longer pending when its turn comes is left alone.

What may throw outside the statements is the action `fail`, which may come at any time.
-/

namespace Kotsadm.Replicas

open Snapshots

/-- What a run does next. -/
inductive Phase where
  -- handleApp
  | listing
  | checking (next : ScheduledSnapshot) (pending : Nat)
  | locking (next : ScheduledSnapshot) (pending : Nat)
  | backingUp (next : ScheduledSnapshot) (pending : Nat)
  | updating (next : ScheduledSnapshot) (pending : Nat) (backupName : String)
  | deletingOthers (next : ScheduledSnapshot) (backupName : String) (todo deleted : List String)
  | creating (next : ScheduledSnapshot) (backupName : String) (deleted : List String)
  | committing (next : ScheduledSnapshot) (backupName : String) (deleted : List String)
      (queued : ScheduledSnapshot)
  -- saveSnapshotConfig
  | reading (autoEnabled : Bool) (scheduleExpression : String)
  | disabling
  | clearing (scheduleExpression : Option String)
  | deleting (scheduleExpression : Option String) (todo deleted : List String)
  | setting (scheduleExpression : String)
  -- both: `createScheduledSnapshot` without a transaction
  | queueing (queued : ScheduledSnapshot)
  | done
  deriving DecidableEq, Repr

/-- A run for an app; the schedule is the one of the app that `handleApp` is called with. -/
structure Run where
  appId : AppId
  snapshotSchedule : String := ""
  phase : Phase
  deriving DecidableEq, Repr

/-- What the runs share. -/
structure World where
  table : ScheduledSnapshots
  -- the column `snapshot_schedule` of the apps
  snapshotSchedule : AppId → Option String := fun _ => none
  -- history: the rows for which a `Backup` was created, the last one first
  backups : List String := []

structure State where
  world : World
  runs : List Run := []

/-- The rows whose locks a run holds. -/
def Run.holds (r : Run) : List String :=
  match r.phase with
  | .backingUp next _ | .updating next _ _ => [next.id]
  | .deletingOthers next _ _ deleted | .creating next _ deleted | .committing next _ deleted _ =>
    next.id :: deleted
  | .deleting _ _ deleted => deleted
  | _ => []

/-- The transaction of a `handleApp` is open. -/
def Run.inTransaction (r : Run) : Bool :=
  match r.phase with
  | .backingUp .. | .updating .. | .deletingOthers .. | .creating .. | .committing .. => true
  | _ => false

namespace State

def locked (s : State) (id : String) : Bool := s.runs.any fun r => id ∈ r.holds

def put (s : State) (i : Nat) (r : Run) (phase : Phase) : State :=
  { s with runs := s.runs.set i { r with phase } }

def setTable (s : State) (table : ScheduledSnapshots) : State :=
  { s with world := { s.world with table } }

def setSchedule (s : State) (appId : AppId) (snapshotSchedule : Option String) : State :=
  { s with world := { s.world with
      snapshotSchedule := Function.update s.world.snapshotSchedule appId snapshotSchedule } }

def addBackup (s : State) (id : String) : State :=
  { s with world := { s.world with backups := id :: s.world.backups } }

end State

/-- The pending rows of an app, by id. -/
def pendingIds (t : ScheduledSnapshots) (appId : AppId) : List String :=
  (listPendingScheduledSnapshots t appId).map (·.id)

/-- The rows that a `DELETE` has got hold of. -/
def deleteRows (t : ScheduledSnapshots) (deleted : List String) : ScheduledSnapshots :=
  t.deleteWhere fun r => r.id ∈ deleted

/-- The row that is next for a `DELETE`: locked, unless it is no longer pending. -/
def takeRow (t : ScheduledSnapshots) (appId : AppId) (id : String) (deleted : List String) :
    List String :=
  if id ∈ pendingIds t appId then deleted ++ [id] else deleted

/-- What the transaction of `handleApp` writes. -/
def commit (t : ScheduledSnapshots) (next : ScheduledSnapshot) (backupName : String)
    (deleted : List String) (queued : ScheduledSnapshot) : Except String ScheduledSnapshots :=
  createScheduledSnapshot (deleteRows (updateScheduledSnapshot t next.id backupName) deleted) queued

/-- The next statement of run `i`; `none` while it waits for a lock.  There is no `ORDER BY`, so any
of the pending rows may be listed `first`. -/
def next (s : State) (i : Nat) (r : Run) (env : Env) (first : Nat) : Option State :=
  let t := s.world.table
  match r.phase with
  | .listing =>
    if r.snapshotSchedule = "" then some (s.put i r .done) else
    match listPendingScheduledSnapshots t r.appId with
    | [] =>
      match nextScheduled env r.appId r.snapshotSchedule with
      | .error _ => some (s.put i r .done)
      | .ok queued => some (s.put i r (.queueing queued))
    | pending =>
      match pending[first]? with
      | none => none
      | some next =>
        if next.scheduledTimestamp > env.now then some (s.put i r .done)
        else some (s.put i r (.checking next pending.length))
  | .checking next pending =>
    match env.backups with
    | .error _ => some (s.put i r .done)
    | .ok backups =>
      if hasUnfinishedBackup r.appId backups then some (s.put i r .done)
      else some (s.put i r (.locking next pending))
  | .locking next pending =>
    if lockScheduledSnapshot t s.locked next.id then some (s.put i r (.backingUp next pending))
    else some (s.put i r .done)
  | .backingUp next pending =>
    match env.backup with
    | .error _ => some (s.put i r .done)
    | .ok b => some ((s.addBackup next.id).put i r (.updating next pending b))
  | .updating next pending b =>
    if pending > 1 then
      -- the updated row is no longer pending for its own transaction
      let others := (pendingIds t r.appId).filter (· ≠ next.id)
      some (s.put i r (.deletingOthers next b others []))
    else some (s.put i r (.creating next b []))
  | .deletingOthers next b (id :: todo) deleted =>
    if s.locked id then none
    else some (s.put i r (.deletingOthers next b todo (takeRow t r.appId id deleted)))
  | .deletingOthers next b [] deleted => some (s.put i r (.creating next b deleted))
  | .creating next b deleted =>
    match nextScheduled env r.appId r.snapshotSchedule with
    | .error _ => some (s.put i r .done)
    | .ok queued => some (s.put i r (.committing next b deleted queued))
  | .committing next b deleted queued =>
    match commit t next b deleted queued with
    | .error _ => some (s.put i r .done)
    | .ok t => some ((s.setTable t).put i r .done)
  | .reading autoEnabled scheduleExpression =>
    if !autoEnabled then some (s.put i r .disabling)
    else if some scheduleExpression ≠ s.world.snapshotSchedule r.appId then
      some (s.put i r (.clearing (some scheduleExpression)))
    else some (s.put i r .done)
  | .disabling => some ((s.setSchedule r.appId none).put i r (.clearing none))
  | .clearing scheduleExpression =>
    some (s.put i r (.deleting scheduleExpression (pendingIds t r.appId) []))
  | .deleting scheduleExpression (id :: todo) deleted =>
    if s.locked id then none
    else some (s.put i r (.deleting scheduleExpression todo (takeRow t r.appId id deleted)))
  | .deleting scheduleExpression [] deleted =>
    let s := s.setTable (deleteRows t deleted)
    match scheduleExpression with
    | none => some (s.put i r .done)
    | some scheduleExpression => some (s.put i r (.setting scheduleExpression))
  | .setting scheduleExpression =>
    let s := s.setSchedule r.appId (some scheduleExpression)
    match nextScheduled env r.appId scheduleExpression with
    | .error _ => some (s.put i r .done)
    | .ok queued => some (s.put i r (.queueing queued))
  | .queueing queued =>
    match createScheduledSnapshot t queued with
    | .error _ => some (s.put i r .done)
    | .ok t => some ((s.setTable t).put i r .done)
  | .done => none

inductive Action where
  /-- `scheduleLoop` calls `handleApp` with an app as it was listed before. -/
  | handleApp (appId : AppId) (snapshotSchedule : String)
  | saveSnapshotConfig (appId : AppId) (autoEnabled : Bool) (scheduleExpression : String)
  /-- The next statement of a run. -/
  | next (i : Nat) (env : Env) (first : Nat)
  /-- A run gives up; its transaction is rolled back. -/
  | fail (i : Nat)

def machine : Machine State Action where
  step s
    | .handleApp appId snapshotSchedule =>
      some { s with runs := s.runs ++ [{ appId, snapshotSchedule, phase := .listing }] }
    | .saveSnapshotConfig appId autoEnabled scheduleExpression =>
      some { s with
        runs := s.runs ++ [{ appId, phase := .reading autoEnabled scheduleExpression }] }
    | .next i env first =>
      match s.runs[i]? with
      | none => none
      | some r => next s i r env first
    | .fail i =>
      match s.runs[i]? with
      | none => none
      | some r => some (s.put i r .done)

/-! ## What is to hold -/

structure RunsOnce (s : State) : Prop where
  once : ∀ id, s.world.backups.count id ≤ 1
  single : (∀ r ∈ s.runs, r.inTransaction = false) →
    ∀ appId, (listPendingScheduledSnapshots s.world.table appId).length ≤ 1

/-- At most one row is pending for an app, and nothing is going on. -/
def Init (s : State) : Prop :=
  s.runs = [] ∧ s.world.backups = [] ∧
    ∀ appId, (listPendingScheduledSnapshots s.world.table appId).length ≤ 1

/-- A row is locked only while it is pending and has no `Backup` yet, and queued without a
transaction only while no row is pending. -/
def Guard (s : State) : Action → Prop
  | .next i _ _ =>
    ∀ r, s.runs[i]? = some r →
      match r.phase with
      | .locking next _ =>
        lockScheduledSnapshot s.world.table s.locked next.id = true →
          next.id ∈ pendingIds s.world.table r.appId ∧ next.id ∉ s.world.backups
      | .queueing _ => pendingIds s.world.table r.appId = []
      | _ => True
  | _ => True

end Kotsadm.Replicas
