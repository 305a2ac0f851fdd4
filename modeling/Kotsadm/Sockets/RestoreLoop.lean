import Kotsadm.Sockets.DeployResults

/-!
# RestoreLoop — restoring an app from a backup

The Go handler `CreateRestore` names the restore in the `app` row; `restoreLoop` then undeploys the
app, waits for the operator's result to be written to `restore_undeploy_status`, and creates the
velero `Restore`.  Every `await` of `handleRestoreInProgress`, the two halves of the handler and
the delayed write of `putUndeployResult` are steps of their own, so ticks, requests and timers
interleave freely.  What velero answers is part of the action.
-/

namespace Kotsadm.RestoreLoop

open KotsAppStore

/-- The phase of a velero `Restore`. -/
inductive Phase where
  | new
  | failedValidation
  | inProgress
  | completed
  | partiallyFailed
  | failed
  deriving DecidableEq, Repr

/-- The `count`-th restore set for an app. -/
structure RestoreId where
  count : Nat
  name : String
  deriving DecidableEq, Repr

/-- An undeploy sent to the operator: the restore it was sent for, and how many restores had been
set for the app by then. -/
structure Undeploy where
  appId : AppId
  restore : RestoreId
  setBefore : Nat
  args : ApplicationManifests
  deriving DecidableEq, Repr

inductive TickPhase where
  | loaded
  | undeployed
  | notFound
  | found (phase : Phase)
  | deployed
  deriving DecidableEq, Repr

/-- An iteration of `restoreLoop`, with the app as it was read.  `restore` is the restore it was
read for, and `origin` the undeploy whose result had written the status it read. -/
structure Tick where
  app : KotsApp
  cluster : ClusterRow
  restore : RestoreId
  origin : Option Undeploy
  phase : TickPhase
  deriving DecidableEq, Repr

/-- The delayed write of an undeploy result. -/
structure Timer where
  undeploy : Undeploy
  status : UndeployStatus
  deriving DecidableEq, Repr

/-- A `Restore` object created in velero. -/
structure Created where
  appId : AppId
  name : String
  restore : RestoreId
  origin : Option Undeploy
  deriving DecidableEq, Repr

structure State where
  db : Database
  -- `CreateRestore` requests that passed their checks
  requests : List (AppId × String)
  ticks : List Tick
  -- sent to an operator and not answered yet
  undeploys : List Undeploy
  timers : List Timer
  -- history: the restore last set, the undeploy whose result wrote the status, all undeploys sent
  current : AppId → RestoreId
  origin : AppId → Option Undeploy
  sent : List Undeploy
  created : List Created

inductive Action where
  | createRestore (snapshotName : String) (appId : AppId) (sequence : Int)
  | initiateRestore (i : Nat)
  | cancelRestore (appId : AppId)
  | load (appId : AppId) (clusterId : ClusterId)
  | undeploy (i : Nat) (env : Env) (copies : Nat)
  | setInProcess (i : Nat)
  | readRestore (i : Nat) (response : Except String (Option Phase))
  | startVeleroRestore (i : Nat) (accepted : Bool)
  | deployRestored (i : Nat) (sequence : Option Int) (now : Timestamp)
  | reset (i : Nat)
  | putUndeployResult (i : Nat) (token : String) (isError : Bool)
  | loseUndeploy (i : Nat)
  | timer (i : Nat)

/-! ## CreateRestore -/

/-- `GetDownstreamVersionStatus`: the first row of any cluster; no row is an error. -/
def getDownstreamVersionStatus (db : Database) (appId : AppId) (sequence : Int) : Option String :=
  (db.appDownstreamVersion.rows.find? fun r => r.appId = appId && r.sequence = sequence).map
    (·.status)

/-- The checks of the handler. -/
def canRestore (db : Database) (appId : AppId) (sequence : Int) : Bool :=
  getDownstreamVersionStatus db appId sequence = some "deployed" &&
    (db.app.find? appId).isSome &&
    (restoreInProgressName db appId).getD "" = ""

/-! ## Steps -/

/-- The tick goes on in a later step. -/
def State.advance (s : State) (i : Nat) (t : Tick) : State :=
  { s with ticks := s.ticks.eraseIdx i ++ [t] }

/-- The tick ends. -/
def State.finish (s : State) (i : Nat) : State :=
  { s with ticks := s.ticks.eraseIdx i }

/-- The app has its row, and its downstream lists it for the cluster. -/
def loadTick (s : State) (appId : AppId) (clusterId : ClusterId) : Option Tick :=
  match s.db.appDownstream.find? (appId, clusterId), getApp s.db appId,
      getCluster s.db clusterId with
  | some _, .ok app, .ok cluster =>
    if restoreInProgress app then
      some { app, cluster, restore := s.current appId, origin := s.origin appId, phase := .loaded }
    else none
  | _, _, _ => none

/-- `undeployApp` up to its emission, which reaches the sockets of the cluster. -/
def undeployApp (s : State) (i : Nat) (t : Tick) (env : Env) (copies : Nat) : Option State :=
  if t.phase = .loaded ∧ t.app.restoreUndeployStatus = none then
    match undeployArgs env s.db t.app t.cluster with
    | .error _ => some (s.finish i)
    | .ok args =>
      let u : Undeploy := ⟨t.app.id, t.restore, (s.current t.app.id).count, args⟩
      some { s.advance i { t with phase := .undeployed } with
        undeploys := s.undeploys ++ List.replicate copies u
        sent := u :: s.sent }
  else none

/-- The last statement of `undeployApp`. -/
def setInProcess (s : State) (i : Nat) (t : Tick) : Option State :=
  if t.phase = .undeployed then
    some { s.finish i with
      db := updateAppRestoreUndeployStatus s.db t.app.id .inProcess
      origin := Function.update s.origin t.app.id none }
  else none

/-- `handleUndeployCompleted` up to the answer of velero. -/
def handleUndeployCompleted (s : State) (i : Nat) (t : Tick)
    (response : Except String (Option Phase)) : Option State :=
  if t.phase = .loaded ∧ t.app.restoreUndeployStatus = some .completed then
    match response with
    | .error _ => some (s.finish i)
    | .ok none => some (s.advance i { t with phase := .notFound })
    | .ok (some phase) => some (s.advance i { t with phase := .found phase })
  else none

/-- The backup has the name of the restore. -/
def startVeleroRestore (s : State) (i : Nat) (t : Tick) (accepted : Bool) : Option State :=
  if t.phase = .notFound then
    let name := t.app.restoreInProgressName.getD ""
    some { s.finish i with
      created := if accepted then ⟨t.app.id, name, t.restore, t.origin⟩ :: s.created
        else s.created }
  else none

/-- `checkRestoreComplete` of a completed restore, with the sequence its backup is annotated with. -/
def deployRestored (s : State) (i : Nat) (t : Tick) (sequence : Option Int) (now : Timestamp) :
    Option State :=
  if t.phase = .found .completed then
    match sequence with
    | none => some (s.finish i)
    | some sequence =>
      some { s.advance i { t with phase := .deployed } with
        db := deployVersion s.db t.app.id sequence now }
  else none

/-- The last statement of `checkRestoreComplete`, for a completed or a failed restore. -/
def resetRestore (s : State) (i : Nat) (t : Tick) : Option State :=
  if t.phase = .deployed ∨ t.phase = .found .partiallyFailed ∨ t.phase = .found .failed then
    some { s.finish i with db := updateAppRestoreReset s.db t.app.id }
  else none

/-- The timer is set only while a restore is in progress. -/
def putUndeployResult (s : State) (i : Nat) (u : Undeploy) (token : String) (isError : Bool) :
    State :=
  let answered := { s with undeploys := s.undeploys.eraseIdx i }
  match getFromDeployToken s.db token, getApp s.db u.appId with
  | .ok _, .ok app =>
    if restoreInProgress app then
      { answered with timers := s.timers ++ [⟨u, if isError then .failed else .completed⟩] }
    else answered
  | _, _ => answered

def step (s : State) : Action → Option State
  | .createRestore snapshotName appId sequence =>
    if canRestore s.db appId sequence then
      some { s with requests := s.requests ++ [(appId, snapshotName)] }
    else none
  | .initiateRestore i =>
    match s.requests[i]? with
    | none => none
    | some (appId, snapshotName) =>
      some { s with
        db := initiateRestore s.db snapshotName appId
        requests := s.requests.eraseIdx i
        current := Function.update s.current appId ⟨(s.current appId).count + 1, snapshotName⟩ }
  | .cancelRestore appId => some { s with db := updateAppRestoreReset s.db appId }
  | .load appId clusterId =>
    (loadTick s appId clusterId).map fun t => { s with ticks := s.ticks ++ [t] }
  | .putUndeployResult i token isError =>
    (s.undeploys[i]?).map fun u => putUndeployResult s i u token isError
  | .loseUndeploy i => some { s with undeploys := s.undeploys.eraseIdx i }
  | .timer i =>
    match s.timers[i]? with
    | none => none
    | some t =>
      some { s with
        db := updateAppRestoreUndeployStatus s.db t.undeploy.appId t.status
        timers := s.timers.eraseIdx i
        origin := Function.update s.origin t.undeploy.appId (some t.undeploy) }
  | .undeploy i env copies => (s.ticks[i]?).bind fun t => undeployApp s i t env copies
  | .setInProcess i => (s.ticks[i]?).bind fun t => setInProcess s i t
  | .readRestore i response => (s.ticks[i]?).bind fun t => handleUndeployCompleted s i t response
  | .startVeleroRestore i accepted => (s.ticks[i]?).bind fun t => startVeleroRestore s i t accepted
  | .deployRestored i sequence now =>
    (s.ticks[i]?).bind fun t => deployRestored s i t sequence now
  | .reset i => (s.ticks[i]?).bind fun t => resetRestore s i t

def machine : Machine State Action := ⟨step⟩

/-- No restore was ever set; the database is otherwise arbitrary. -/
structure Init (s : State) : Prop where
  name : ∀ appId, restoreInProgressName s.db appId = none
  status : ∀ appId, restoreUndeployStatus s.db appId = none
  requests : s.requests = []
  ticks : s.ticks = []
  undeploys : s.undeploys = []
  timers : s.timers = []
  created : s.created = []

/-! ## The property -/

/-- `u` was sent for the restore, after it was set for the app. -/
def Own (sent : List Undeploy) (appId : AppId) (restore : RestoreId) (u : Undeploy) : Prop :=
  u ∈ sent ∧ u.appId = appId ∧ u.restore = restore ∧ restore.count ≤ u.setBefore

/-- Every velero `Restore` was created under the name of the restore that was set, on the `completed`
status reported for an undeploy sent for that restore. -/
def OwnUndeploy (s : State) : Prop :=
  ∀ c ∈ s.created, c.name = c.restore.name ∧ ∃ u, c.origin = some u ∧ Own s.sent c.appId c.restore u

/-! ## The condition -/

/-- When a restore is set, nothing of an earlier restore of the app is left that could complete it:
no `completed` status, no undeploy unanswered or about to be sent, and no timer that will write
`completed`. -/
def Guard (s : State) : Action → Prop
  | .initiateRestore i => ∀ appId snapshotName, s.requests[i]? = some (appId, snapshotName) →
      restoreUndeployStatus s.db appId ≠ some .completed ∧
      (∀ t ∈ s.ticks, t.app.id = appId → t.phase = .loaded →
        t.app.restoreUndeployStatus ≠ none) ∧
      (∀ u ∈ s.undeploys, u.appId ≠ appId) ∧
      (∀ t ∈ s.timers, t.undeploy.appId = appId → t.status ≠ .completed)
  | _ => True

/-! ## The invariant -/

/-- What a tick has read: the name of its restore, and `completed` only from an own undeploy. -/
structure TickOk (sent : List Undeploy) (current : AppId → RestoreId) (t : Tick) : Prop where
  name : t.app.restoreInProgressName = some t.restore.name
  idle : t.phase = .loaded → t.app.restoreUndeployStatus = none → t.restore = current t.app.id
  completed : t.app.restoreUndeployStatus = some .completed →
    ∃ u, t.origin = some u ∧ Own sent t.app.id t.restore u
  notFound : t.phase = .notFound → t.app.restoreUndeployStatus = some .completed

structure Inv (s : State) : Prop where
  name : ∀ appId name, restoreInProgressName s.db appId = some name → name = (s.current appId).name
  status : ∀ appId, restoreUndeployStatus s.db appId = some .completed →
    ∃ u, s.origin appId = some u ∧ Own s.sent appId (s.current appId) u
  ticks : ∀ t ∈ s.ticks, TickOk s.sent s.current t
  undeploys : ∀ u ∈ s.undeploys, Own s.sent u.appId (s.current u.appId) u
  timers : ∀ t ∈ s.timers, t.status = .completed →
    Own s.sent t.undeploy.appId (s.current t.undeploy.appId) t.undeploy
  created : OwnUndeploy s

/-- History only grows, so what was an own undeploy still is one. -/
theorem own_cons {sent : List Undeploy} {appId : AppId} {restore : RestoreId} {u : Undeploy}
    (v : Undeploy) (h : Own sent appId restore u) : Own (v :: sent) appId restore u :=
  ⟨List.mem_cons_of_mem v h.1, h.2⟩

theorem tickOk_cons {sent : List Undeploy} {current : AppId → RestoreId} {t : Tick} (v : Undeploy)
    (h : TickOk sent current t) : TickOk (v :: sent) current t :=
  ⟨h.name, h.idle, fun hc => (h.completed hc).imp fun _ hu => ⟨hu.1, own_cons v hu.2⟩, h.notFound⟩

/-- A tick goes on with what it has read. -/
theorem tickOk_phase {sent : List Undeploy} {current : AppId → RestoreId} {t : Tick}
    {phase : TickPhase} (h : TickOk sent current t) (hloaded : phase ≠ .loaded)
    (hnotFound : phase = .notFound → t.app.restoreUndeployStatus = some .completed) :
    TickOk sent current { t with phase := phase } :=
  ⟨h.name, fun hphase => absurd hphase hloaded, h.completed, hnotFound⟩

theorem inv_init {s : State} (hs : Init s) : Inv s where
  name appId name h := by
    rw [hs.name] at h
    cases h
  status appId h := by
    rw [hs.status] at h
    cases h
  ticks t ht := by
    rw [hs.ticks] at ht
    cases ht
  undeploys u hu := by
    rw [hs.undeploys] at hu
    cases hu
  timers t ht := by
    rw [hs.timers] at ht
    cases ht
  created c hc := by
    rw [hs.created] at hc
    cases hc

/-- Ticks that end or go on later take nothing from the other ticks. -/
theorem ticks_eraseIdx {s : State} (hs : Inv s) (i : Nat) :
    ∀ t ∈ s.ticks.eraseIdx i, TickOk s.sent s.current t :=
  fun t ht => hs.ticks t (List.mem_of_mem_eraseIdx ht)

theorem inv_finish {s : State} (hs : Inv s) (i : Nat) : Inv (s.finish i) :=
  ⟨hs.name, hs.status, ticks_eraseIdx hs i, hs.undeploys, hs.timers, hs.created⟩

theorem inv_advance {s : State} {t : Tick} (hs : Inv s) (i : Nat) (ht : TickOk s.sent s.current t) :
    Inv (s.advance i t) := by
  refine ⟨hs.name, hs.status, ?_, hs.undeploys, hs.timers, hs.created⟩
  intro t' ht'
  rcases List.mem_append.mp ht' with hold | hnew
  · exact ticks_eraseIdx hs i t' hold
  · obtain rfl := List.mem_singleton.mp hnew
    exact ht

/-- A write that leaves the names alone and sets no status but those with an own undeploy. -/
theorem inv_write {s : State} {db : Database} {origin : AppId → Option Undeploy} (hs : Inv s)
    (hname : ∀ appId name, restoreInProgressName db appId = some name →
      restoreInProgressName s.db appId = some name)
    (hstatus : ∀ appId, restoreUndeployStatus db appId = some .completed →
      ∃ u, origin appId = some u ∧ Own s.sent appId (s.current appId) u) :
    Inv { s with db := db, origin := origin } :=
  ⟨fun appId name h => hs.name appId name (hname appId name h), hstatus, hs.ticks, hs.undeploys,
    hs.timers, hs.created⟩

theorem inv_reset {s : State} (hs : Inv s) (appId : AppId) :
    Inv { s with db := updateAppRestoreReset s.db appId } :=
  inv_write hs (fun _ _ => restoreInProgressName_updateAppRestoreReset s.db appId _)
    fun appId' h => hs.status appId' (restoreUndeployStatus_updateAppRestoreReset s.db appId appId' h)

/-- A written status stands for `u` if it is `completed`. -/
theorem inv_setStatus {s : State} {appId : AppId} {status : UndeployStatus} {u : Option Undeploy}
    (hs : Inv s) (hown : status = .completed →
      ∃ v, u = some v ∧ Own s.sent appId (s.current appId) v) :
    Inv { s with
      db := updateAppRestoreUndeployStatus s.db appId status
      origin := Function.update s.origin appId u } := by
  refine inv_write hs (fun appId' name h => ?_) fun appId' h => ?_
  · rwa [restoreInProgressName_updateAppRestoreUndeployStatus] at h
  · have hcases := restoreUndeployStatus_updateAppRestoreUndeployStatus s.db appId appId' h
    by_cases heq : appId' = appId
    · subst heq
      rw [if_pos rfl] at hcases
      rw [Function.update_self]
      exact hown hcases.symm
    · rw [if_neg heq] at hcases
      rw [Function.update_of_ne heq]
      exact hs.status appId' hcases

theorem mapKotsApp_columns {db : Database} {appId : AppId} {app : KotsApp}
    (h : getApp db appId = .ok app) :
    restoreInProgressName db appId = app.restoreInProgressName ∧
      restoreUndeployStatus db appId = app.restoreUndeployStatus := by
  unfold getApp at h
  unfold KotsAppStore.restoreInProgressName KotsAppStore.restoreUndeployStatus
  split at h
  next => cases h
  next row hrow =>
    cases h
    rw [hrow]
    exact ⟨rfl, rfl⟩

theorem tickOk_loadTick {s : State} {appId : AppId} {clusterId : ClusterId} {t : Tick} (hs : Inv s)
    (h : loadTick s appId clusterId = some t) : TickOk s.sent s.current t := by
  unfold loadTick at h
  split at h
  next app cluster _ happ _ =>
    split at h
    next hrestore =>
      cases h
      obtain rfl := getApp_id happ
      obtain ⟨hname, hstatus⟩ := mapKotsApp_columns happ
      refine ⟨?_, fun _ _ => rfl, fun hcompleted => ?_, fun hphase => by cases hphase⟩
      · cases hsome : app.restoreInProgressName with
        | none => simp [restoreInProgress, hsome] at hrestore
        | some name =>
          rw [hsome] at hname
          exact congrArg some (hs.name app.id name hname)
      · exact hs.status app.id (hstatus.trans hcompleted)
    next => cases h
  next => cases h

theorem inv_undeployApp {s s' : State} {i copies : Nat} {env : Env} {t : Tick} (hs : Inv s)
    (ht : TickOk s.sent s.current t) (hstep : undeployApp s i t env copies = some s') : Inv s' := by
  unfold undeployApp at hstep
  split at hstep
  next hidle =>
    split at hstep
    next =>
      cases hstep
      exact inv_finish hs i
    next args _ =>
      cases hstep
      have hrestore : t.restore = s.current t.app.id := ht.idle hidle.1 hidle.2
      constructor
      · exact hs.name
      · exact fun appId h => (hs.status appId h).imp fun _ hu => ⟨hu.1, own_cons _ hu.2⟩
      · intro t' ht'
        rcases List.mem_append.mp ht' with hold | hnew
        · exact tickOk_cons _ (ticks_eraseIdx hs i t' hold)
        · obtain rfl := List.mem_singleton.mp hnew
          exact tickOk_phase (tickOk_cons _ ht) (by decide) fun h => by cases h
      · intro u hu
        rcases List.mem_append.mp hu with hold | hnew
        · exact own_cons _ (hs.undeploys u hold)
        · obtain rfl := List.eq_of_mem_replicate hnew
          exact ⟨List.mem_cons_self, rfl, hrestore, Nat.le_refl _⟩
      · exact fun t' ht' hc => own_cons _ (hs.timers t' ht' hc)
      · intro c hc
        obtain ⟨hname, hown⟩ := hs.created c hc
        exact ⟨hname, hown.imp fun _ hu => ⟨hu.1, own_cons _ hu.2⟩⟩
  next => cases hstep

theorem inv_setInProcess {s s' : State} {i : Nat} {t : Tick} (hs : Inv s)
    (hstep : setInProcess s i t = some s') : Inv s' := by
  unfold setInProcess at hstep
  split at hstep
  next =>
    cases hstep
    exact inv_setStatus (inv_finish hs i) fun h => by cases h
  next => cases hstep

theorem inv_handleUndeployCompleted {s s' : State} {i : Nat} {t : Tick}
    {response : Except String (Option Phase)} (hs : Inv s) (ht : TickOk s.sent s.current t)
    (hstep : handleUndeployCompleted s i t response = some s') : Inv s' := by
  unfold handleUndeployCompleted at hstep
  split at hstep
  next hloaded =>
    split at hstep
    next =>
      cases hstep
      exact inv_finish hs i
    next =>
      cases hstep
      exact inv_advance hs i (tickOk_phase ht (by decide) fun _ => hloaded.2)
    next =>
      cases hstep
      exact inv_advance hs i (tickOk_phase ht (by simp) fun h => by cases h)
  next => cases hstep

theorem inv_startVeleroRestore {s s' : State} {i : Nat} {accepted : Bool} {t : Tick} (hs : Inv s)
    (ht : TickOk s.sent s.current t) (hstep : startVeleroRestore s i t accepted = some s') :
    Inv s' := by
  unfold startVeleroRestore at hstep
  split at hstep
  next hphase =>
    cases hstep
    refine ⟨hs.name, hs.status, ticks_eraseIdx hs i, hs.undeploys, hs.timers, ?_⟩
    intro c hc
    cases accepted with
    | false => exact hs.created c hc
    | true =>
      rcases List.mem_cons.mp hc with rfl | hold
      · refine ⟨?_, ht.completed (ht.notFound hphase)⟩
        dsimp only
        rw [ht.name]
        rfl
      · exact hs.created c hold
  next => cases hstep

theorem inv_deployRestored {s s' : State} {i : Nat} {t : Tick} {sequence : Option Int}
    {now : Timestamp} (hs : Inv s) (ht : TickOk s.sent s.current t)
    (hstep : deployRestored s i t sequence now = some s') : Inv s' := by
  unfold deployRestored at hstep
  split at hstep
  next =>
    split at hstep
    next =>
      cases hstep
      exact inv_finish hs i
    next =>
      cases hstep
      have hphase : TickOk s.sent s.current { t with phase := .deployed } :=
        tickOk_phase ht (by decide) fun h => by cases h
      obtain ⟨hname, hstatus, hticks, hundeploys, htimers, hcreated⟩ := inv_advance hs i hphase
      exact ⟨hname, hstatus, hticks, hundeploys, htimers, hcreated⟩
  next => cases hstep

theorem inv_resetRestore {s s' : State} {i : Nat} {t : Tick} (hs : Inv s)
    (hstep : resetRestore s i t = some s') : Inv s' := by
  unfold resetRestore at hstep
  split at hstep
  next =>
    cases hstep
    exact inv_reset (inv_finish hs i) t.app.id
  next => cases hstep

theorem inv_putUndeployResult {s : State} {i : Nat} {u : Undeploy} (token : String)
    (isError : Bool) (hs : Inv s) (hu : u ∈ s.undeploys) :
    Inv (putUndeployResult s i u token isError) := by
  have hanswered : Inv { s with undeploys := s.undeploys.eraseIdx i } :=
    ⟨hs.name, hs.status, hs.ticks, fun u' hu' => hs.undeploys u' (List.mem_of_mem_eraseIdx hu'),
      hs.timers, hs.created⟩
  unfold putUndeployResult
  dsimp only
  split
  next =>
    split
    next =>
      refine ⟨hs.name, hs.status, hs.ticks, hanswered.undeploys, ?_, hs.created⟩
      intro t ht hcompleted
      rcases List.mem_append.mp ht with hold | hnew
      · exact hs.timers t hold hcompleted
      · obtain rfl := List.mem_singleton.mp hnew
        exact hs.undeploys u hu
    next => exact hanswered
  next => exact hanswered

/-- Setting a restore makes everything of the app stale; the guard says there is nothing. -/
theorem inv_initiateRestore {s : State} {i : Nat} {appId : AppId} {snapshotName : String}
    (hs : Inv s) (hrequest : s.requests[i]? = some (appId, snapshotName))
    (hguard : Guard s (.initiateRestore i)) :
    Inv { s with
      db := initiateRestore s.db snapshotName appId
      requests := s.requests.eraseIdx i
      current :=
        Function.update s.current appId ⟨(s.current appId).count + 1, snapshotName⟩ } := by
  obtain ⟨hstatus, hidle, hundeploys, htimers⟩ := hguard appId snapshotName hrequest
  constructor
  · intro appId' name h
    have hcases := restoreInProgressName_initiateRestore s.db appId appId' h
    dsimp only
    by_cases heq : appId' = appId
    · subst heq
      rw [if_pos rfl] at hcases
      rw [Function.update_self, hcases]
    · rw [if_neg heq] at hcases
      rw [Function.update_of_ne heq]
      exact hs.name appId' name hcases
  · intro appId' h
    dsimp only at h ⊢
    rw [restoreUndeployStatus_initiateRestore] at h
    have hne : appId' ≠ appId := by
      rintro rfl
      exact hstatus h
    rw [Function.update_of_ne hne]
    exact hs.status appId' h
  · intro t ht
    obtain ⟨hname, hcurrent, hcompleted, hnotFound⟩ := hs.ticks t ht
    refine ⟨hname, fun hphase hnone => ?_, hcompleted, hnotFound⟩
    have hne : t.app.id ≠ appId := fun heq => hidle t ht heq hphase hnone
    dsimp only
    rw [Function.update_of_ne hne]
    exact hcurrent hphase hnone
  · intro u hu
    dsimp only
    rw [Function.update_of_ne (hundeploys u hu)]
    exact hs.undeploys u hu
  · intro t ht hcompleted
    have hne : t.undeploy.appId ≠ appId := fun heq => htimers t ht heq hcompleted
    dsimp only
    rw [Function.update_of_ne hne]
    exact hs.timers t ht hcompleted
  · exact hs.created

theorem inv_step {s s' : State} {a : Action} (hs : Inv s) (hguard : Guard s a)
    (hstep : machine.step s a = some s') : Inv s' := by
  cases a with
  | createRestore snapshotName appId sequence =>
    simp only [machine, step] at hstep
    split at hstep
    next =>
      cases hstep
      exact ⟨hs.name, hs.status, hs.ticks, hs.undeploys, hs.timers, hs.created⟩
    next => cases hstep
  | initiateRestore i =>
    simp only [machine, step] at hstep
    split at hstep
    next => cases hstep
    next appId snapshotName hrequest =>
      cases hstep
      exact inv_initiateRestore hs hrequest hguard
  | cancelRestore appId =>
    cases hstep
    exact inv_reset hs appId
  | load appId clusterId =>
    obtain ⟨t, ht, rfl⟩ := Option.map_eq_some_iff.mp hstep
    refine ⟨hs.name, hs.status, ?_, hs.undeploys, hs.timers, hs.created⟩
    intro t' ht'
    rcases List.mem_append.mp ht' with hold | hnew
    · exact hs.ticks t' hold
    · have hok := tickOk_loadTick hs ht
      rw [List.mem_singleton.mp hnew]
      exact hok
  | undeploy i env copies =>
    obtain ⟨t, ht, hrun⟩ := Option.bind_eq_some_iff.mp hstep
    exact inv_undeployApp hs (hs.ticks t (List.mem_of_getElem? ht)) hrun
  | setInProcess i =>
    obtain ⟨t, ht, hrun⟩ := Option.bind_eq_some_iff.mp hstep
    exact inv_setInProcess hs hrun
  | readRestore i response =>
    obtain ⟨t, ht, hrun⟩ := Option.bind_eq_some_iff.mp hstep
    exact inv_handleUndeployCompleted hs (hs.ticks t (List.mem_of_getElem? ht)) hrun
  | startVeleroRestore i accepted =>
    obtain ⟨t, ht, hrun⟩ := Option.bind_eq_some_iff.mp hstep
    exact inv_startVeleroRestore hs (hs.ticks t (List.mem_of_getElem? ht)) hrun
  | deployRestored i sequence now =>
    obtain ⟨t, ht, hrun⟩ := Option.bind_eq_some_iff.mp hstep
    exact inv_deployRestored hs (hs.ticks t (List.mem_of_getElem? ht)) hrun
  | reset i =>
    obtain ⟨t, ht, hrun⟩ := Option.bind_eq_some_iff.mp hstep
    exact inv_resetRestore hs hrun
  | putUndeployResult i token isError =>
    obtain ⟨u, hu, rfl⟩ := Option.map_eq_some_iff.mp hstep
    exact inv_putUndeployResult token isError hs (List.mem_of_getElem? hu)
  | loseUndeploy i =>
    cases hstep
    exact ⟨hs.name, hs.status, hs.ticks,
      fun u hu => hs.undeploys u (List.mem_of_mem_eraseIdx hu), hs.timers, hs.created⟩
  | timer i =>
    simp only [machine, step] at hstep
    split at hstep
    next => cases hstep
    next t ht =>
      cases hstep
      have hfired : Inv { s with timers := s.timers.eraseIdx i } :=
        ⟨hs.name, hs.status, hs.ticks, hs.undeploys,
          fun t' ht' => hs.timers t' (List.mem_of_mem_eraseIdx ht'), hs.created⟩
      refine inv_setStatus hfired fun hcompleted => ⟨t.undeploy, rfl, ?_⟩
      exact hs.timers t (List.mem_of_getElem? ht) hcompleted

/-- **A restore is created only after its own undeploy, in every run that sets restores on a clean
app.**  As long as each restore is set while nothing of an earlier one can still complete it, every
velero `Restore` follows a `completed` result of an undeploy sent for that very restore. -/
theorem ownUndeploy_everyState {s : State} (hs : machine.Reachable Init Guard s) :
    OwnUndeploy s := by
  have hinv : machine.EveryState Init Guard Inv :=
    Machine.everyState_of_inv (fun _ => inv_init) fun _ _ _ => inv_step
  exact (hinv s hs).created

/-- An app with a deployed version on one cluster. -/
def deployedState : State where
  db := {
    app := .single { id := "app", name := "App", slug := "app", currentSequence := some 0 }
    cluster := .single { id := "c1", title := "this-cluster", token := "t1" }
    appDownstream := .single {
      appId := "app", clusterId := "c1", downstreamName := "this-cluster",
      currentSequence := some 0 }
    appDownstreamVersion := .single {
      appId := "app", clusterId := "c1", sequence := 0, parentSequence := 0,
      appliedAt := some 5, status := "deployed" } }
  requests := []
  ticks := []
  undeploys := []
  timers := []
  current := fun _ => ⟨0, ""⟩
  origin := fun _ => none
  sent := []
  created := []

theorem init_deployedState : Init deployedState where
  name appId := by
    by_cases h : appId = "app"
    · subst h
      rfl
    · simp [restoreInProgressName, deployedState, Keyed.find?, Ne.symm h]
  status appId := by
    by_cases h : appId = "app"
    · subst h
      rfl
    · simp [restoreUndeployStatus, deployedState, Keyed.find?, Ne.symm h]
  requests := rfl
  ticks := rfl
  undeploys := rfl
  timers := rfl
  created := rfl

/-- Restore `b1` is created after its undeploy. -/
theorem ownUndeploy_firstRestore : ∃ s, machine.Reachable Init Guard s ∧
    s.created.map (·.name) = ["b1"] ∧ OwnUndeploy s := by
  have hinit := Machine.Reachable.init (M := machine) (G := Guard) init_deployedState
  have hrequested := hinit.run [.createRestore "b1" "app" 0] (by simp [Guard]) rfl
  have hclean : Guard { deployedState with requests := [("app", "b1")] } (.initiateRestore 0) := by
    intro appId snapshotName hrequest
    cases hrequest
    refine ⟨by decide, ?_, ?_, ?_⟩
    · exact fun t ht => nomatch ht
    · exact fun u hu => nomatch hu
    · exact fun t ht => nomatch ht
  have hset := hrequested.step hclean rfl
  have hcreated := hset.run
    [.load "app" "c1", .undeploy 0 echoEnv 1, .setInProcess 0, .putUndeployResult 0 "t1" false,
      .timer 0, .load "app" "c1", .readRestore 0 (.ok none), .startVeleroRestore 0 true]
    (by simp [Guard]) rfl
  exact ⟨_, hcreated, rfl, ownUndeploy_everyState hcreated⟩

/-- Restore `b1` is cancelled between its undeploy result and the delayed write of it.  The write
then finds no restore in progress, and completes the next one: the velero `Restore` of `b2` is
created without an undeploy. -/
theorem not_ownUndeploy_cancelled : ¬ machine.EveryState Init Machine.Free OwnUndeploy := by
  refine Machine.not_everyState init_deployedState
    [.createRestore "b1" "app" 0, .initiateRestore 0, .load "app" "c1", .undeploy 0 echoEnv 1,
      .setInProcess 0, .putUndeployResult 0 "t1" false, .cancelRestore "app", .timer 0,
      .createRestore "b2" "app" 0, .initiateRestore 0, .load "app" "c1", .readRestore 0 (.ok none),
      .startVeleroRestore 0 true] rfl ?_
  intro hown
  obtain ⟨-, u, hu, -, -, hrestore, -⟩ := hown ⟨"app", "b2", ⟨2, "b2"⟩, _⟩ List.mem_cons_self
  cases hu
  exact absurd hrestore (by decide)

end Kotsadm.RestoreLoop
